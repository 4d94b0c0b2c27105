import MsRealty.Listing
import MsRealty.StateMachine

/-!
# Publication decisions

The pure decisions of publication (`src/domain/publication.ts`): what a
manifest needs to be activated, whether a queued delivery is still current,
and which pointers a material change or a withdrawal removes. Every one of
them is about the listing's publication generation, which a restriction, a
withdrawal and a new seller instruction increment.
-/

/-- The states of a publication pointer once a manifest was activated. -/
inductive PointerState where
  | active
  | restricted
  | withdrawn
  deriving DecidableEq

/-- The name of a pointer state in the database. -/
def PointerState.name : PointerState → String
  | .active => "active"
  | .restricted => "restricted"
  | .withdrawn => "withdrawn"

/-- The local website, and portals a person publishes to. -/
inductive PublicationDestination where
  | website
  | manualPortal
  deriving DecidableEq

/-- The name of a destination in the database. -/
def PublicationDestination.name : PublicationDestination → String
  | .website => "website"
  | .manualPortal => "manual_portal"

/-- The local website. -/
def publicDestination : PublicationDestination := .website

/-- What a delivery does. -/
inductive DeliveryKind where
  | publish
  | withdraw

/-- The outcomes of a delivery at its destination. -/
inductive DeliveryState where
  | queued
  | attempting
  | acknowledged
  | verified
  | failed
  | outcomeUnknown
  | withdrawing
  | withdrawn

namespace Publication

open Decision

/-! ## Activation -/

/-- What the activation of a manifest is decided on. -/
structure ActivationInput where
  locale : PublicLocale
  /-- The generation the manifest was prepared under. -/
  manifestGeneration : ℕ
  /-- The generation of the listing. -/
  currentGeneration : ℕ
  commercial : CommercialState
  /-- Valid factual review of the bound fact revision. -/
  factReviewValid : Bool
  /-- Valid editorial approval of the bound listing revision. -/
  revisionApprovalValid : Bool
  /-- Seller instruction with commercial terms and permission to publish. -/
  sellerInstructionValid : Bool
  /-- The localized revision is approved for the bound source revision. -/
  localeApprovedForSource : Bool
  /-- Every placed medium has cleared rights, review and a derivative. -/
  mediaEligible : Bool
  /-- Professional review of regulated claims; `none` when the copy makes
  none. -/
  regulatedClaimsReviewed : Option Bool

/-- **Whether a manifest may be activated.** The source locale needs no
localized approval. -/
def checkActivation (input : ActivationInput) (actor : Actor) : Decision :=
  firstDenial
    [need (actor.kind = .staff) "human_required",
      need (input.manifestGeneration = input.currentGeneration)
        "generation_superseded",
      need (input.commercial ≠ .withdrawn) "listing_withdrawn",
      need input.factReviewValid "fact_review_required",
      need input.revisionApprovalValid "approval_stale",
      need input.sellerInstructionValid "seller_instruction_required",
      need (input.locale = sourceLocale || input.localeApprovedForSource)
        "locale_not_approved_for_source",
      need input.mediaEligible "media_not_eligible",
      need (input.regulatedClaimsReviewed ≠ some false)
        "professional_review_required"]

/-- **Only a manifest of the current generation is activated**, and only by
a person. -/
theorem current_of_checkActivation {input : ActivationInput} {actor : Actor}
    (h : checkActivation input actor = .allowed) :
    actor.kind = .staff ∧ input.manifestGeneration = input.currentGeneration := by
  simp only [checkActivation, firstDenial_eq_allowed, List.forall_mem_cons,
    need_eq_allowed, decide_eq_true_eq] at h
  exact ⟨h.1, h.2.1⟩

/-! ## Generation fencing -/

/-- A queued delivery. -/
structure DeliveryJob where
  kind : DeliveryKind
  manifestId : Uuid
  /-- The generation the job was created under. -/
  generation : ℕ

/-- What a delivery sees of its pointer. -/
structure PointerView where
  state : PointerState
  manifestId : Uuid

/-- **Whether a queued delivery is still current**, read again before it
runs. -/
def fenceDelivery (job : DeliveryJob) (currentGeneration : ℕ)
    (pointer : Option PointerView) : Decision :=
  if job.generation ≠ currentGeneration then .denied "generation_superseded"
  else
    match job.kind with
    | .withdraw => need (pointer.map PointerView.state ≠ some .active) "pointer_active"
    | .publish =>
      firstDenial
        [need (pointer.map PointerView.state = some .active) "pointer_not_active",
          need (pointer.map PointerView.manifestId = some job.manifestId)
            "manifest_superseded"]

/-- **A job of another generation is cancelled**, whatever its pointer. -/
theorem fenceDelivery_superseded {job : DeliveryJob} {currentGeneration : ℕ}
    (h : job.generation ≠ currentGeneration) (pointer : Option PointerView) :
    fenceDelivery job currentGeneration pointer = .denied "generation_superseded" :=
  if_pos h

/-! ## Restriction and withdrawal -/

/-- What a restriction plan knows of a pointer. -/
structure PointerDependency where
  locale : PublicLocale
  destination : PublicationDestination
  state : PointerState
  /-- The change was proved not to touch this presentation. -/
  provenUnaffected : Bool

/-- A restriction plan. -/
structure RestrictionPlan where
  nextGeneration : ℕ
  restrict : List PointerDependency
  keep : List PointerDependency

/-- The plan of a material change: every active presentation not proved
unaffected is restricted. -/
def planMaterialRestriction (pointers : List PointerDependency) (generation : ℕ) :
    RestrictionPlan :=
  let active := pointers.filter (fun p => p.state = .active)
  { nextGeneration := generation + 1
    restrict := active.filter (fun p => !p.provenUnaffected)
    keep := active.filter (fun p => p.provenUnaffected) }

/-- A withdrawal plan. -/
structure WithdrawalPlan where
  nextGeneration : ℕ
  withdraw : List PointerDependency

/-- The plan of a withdrawal: exposure is removed everywhere. -/
def planWithdrawal (pointers : List PointerDependency) (generation : ℕ) :
    WithdrawalPlan where
  nextGeneration := generation + 1
  withdraw := pointers.filter (fun p => p.state ≠ .withdrawn)

/-- **Nothing active is left out of a restriction** unless it was proved
unaffected. -/
theorem mem_restrict {pointers : List PointerDependency} {generation : ℕ}
    {p : PointerDependency} :
    p ∈ (planMaterialRestriction pointers generation).restrict
      ↔ p ∈ pointers ∧ p.state = .active ∧ p.provenUnaffected = false := by
  simp only [planMaterialRestriction, List.mem_filter, decide_eq_true_eq,
    Bool.not_eq_true', and_assoc]

/-- **A withdrawal leaves nothing out** that is not withdrawn already. -/
theorem mem_withdraw {pointers : List PointerDependency} {generation : ℕ}
    {p : PointerDependency} :
    p ∈ (planWithdrawal pointers generation).withdraw
      ↔ p ∈ pointers ∧ p.state ≠ .withdrawn := by
  simp [planWithdrawal]

end Publication
