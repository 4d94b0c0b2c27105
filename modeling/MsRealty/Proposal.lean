import Mathlib.Data.List.Sort
import MsRealty.Facts
import MsRealty.IsoInstant
import MsRealty.Submissions
import MsRealty.Table

/-!
# Proposals

Offers for a listing, within a case, and what their parties answer
(`src/domain/proposal.ts`, `src/server/proposals/`). A proposal is a thread of
revisions of its terms; the active one is reviewed and submitted by staff, and
answered by each party: it is agreed when all have agreed, and a counteroffer is
a new revision.

What a command reads elsewhere – the session and its permissions, the interest,
the listing and the seller's evidence of an offer, the process of the case – is
a *finding* of the call, and may be anything. `hash` stands for `hashRequest`.
-/

namespace Proposals

/-! ## The machine -/

/-- `proposalStates`. -/
inductive ProposalState where
  | draft
  | reviewed
  | submitted
  | awaitingResponse
  | countered
  | declined
  | withdrawn
  | expired
  | agreedForNextStep
  deriving DecidableEq

/-- **`proposalMachine`.** -/
def proposalMachine : Machine ProposalState where
  states := [.draft, .reviewed, .submitted, .awaitingResponse, .countered, .declined, .withdrawn,
    .expired, .agreedForNextStep]
  transitions
    | .draft => [.reviewed, .withdrawn]
    | .reviewed => [.draft, .submitted, .withdrawn]
    | .submitted => [.awaitingResponse, .withdrawn]
    | .awaitingResponse => [.countered, .declined, .withdrawn, .expired, .agreedForNextStep]
    | _ => []

/-- The states in which a revision is open. -/
def openStates : List ProposalState := [.draft, .reviewed, .submitted, .awaitingResponse]

/-- `visibleProposalStates`: what a client may see. -/
def visibleProposalStates : List ProposalState :=
  [.submitted, .awaitingResponse, .countered, .declined, .withdrawn, .expired, .agreedForNextStep]

/-- What a step of the machine is taken on. -/
structure ProposalEvidence where
  currentContent : Option String
  approvedContent : Option String
  superseded : Bool
  deadlineAt : Option Instant
  now : Option Instant
  responseRecordId : Option Uuid
  reason : Option String

/-- A text that counts as true. -/
def truthy (text : Option String) : Bool := text.any (fun s => s ≠ "")

/-- `clientProposalTargets`. -/
def clientProposalTargets : List ProposalState :=
  [.submitted, .countered, .declined, .agreedForNextStep]

/-- Whether the deadline is ahead, if both it and the time are given. -/
def ahead (evidence : ProposalEvidence) : Bool :=
  evidence.deadlineAt.all (fun deadline => evidence.now.all (fun now => now < deadline))

/-- **`guardProposalTransition`.** -/
def guardProposalTransition (source target : ProposalState) (evidence : ProposalEvidence)
    (actor : Actor) : Decision :=
  if actor.kind = .client && target ∉ clientProposalTargets then .denied "staff_required"
  else
    .firstDenial [
      .need (!evidence.superseded) "proposal_superseded",
      .need (target = .expired || target = .withdrawn || ahead evidence) "proposal_expired",
      match target with
      | .reviewed =>
        .firstDenial [.need (actor.kind = .staff) "human_required",
          .need (truthy evidence.currentContent) "content_required"]
      | .submitted =>
        .firstDenial [.need (actor.kind = .staff || actor.kind = .client) "human_required",
          .need (truthy evidence.approvedContent
            && evidence.approvedContent = evidence.currentContent) "approval_invalidated_by_change"]
      | .countered | .declined | .agreedForNextStep =>
        .need (truthy evidence.responseRecordId) "response_record_required"
      | .expired =>
        .need (evidence.deadlineAt.any (fun deadline => evidence.now.any (fun now =>
          deadline ≤ now))) "deadline_not_passed"
      | .withdrawn => .need (truthy evidence.reason) "reason_required"
      | .draft | .awaitingResponse =>
        if source = .reviewed then .need (truthy evidence.reason) "reason_required"
        else .allowed]

/-! ## Terms -/

/-- The role of a party in an offer. -/
inductive OfferRole where
  | buyer
  | coBuyer
  | tenant
  | seller
  | landlord
  deriving DecidableEq

def OfferRole.name : OfferRole → String
  | .buyer => "buyer"
  | .coBuyer => "co_buyer"
  | .tenant => "tenant"
  | .seller => "seller"
  | .landlord => "landlord"

/-- Whether the role is on the buyer's side. -/
def OfferRole.buys (role : OfferRole) : Bool := role ∈ [OfferRole.buyer, .coBuyer, .tenant]

/-- A party of the terms. -/
structure ProposalParty where
  partyId : Uuid
  name : String
  role : OfferRole
  required : Bool

/-- A party as JSON. -/
def ProposalParty.toJson (party : ProposalParty) : JsonValue :=
  .obj [("partyId", .str party.partyId), ("name", .str party.name),
    ("role", .str party.role.name), ("required", .bool party.required)]

/-- The parties as JSON. -/
def partiesJson (parties : List ProposalParty) : JsonValue := .arr (parties.map ProposalParty.toJson)

/-- `partySnapshotsSchema`. -/
def snapshotValid (isUuid : String → Bool) (parties : List ProposalParty) : Bool :=
  2 ≤ parties.length && parties.length ≤ 20
    && parties.all (fun party => isUuid party.partyId && party.name ≠ "" && party.required)

/-- **The terms of a revision.** -/
structure Terms where
  amountMinor : ℕ
  currency : CurrencyCode
  period : PricePeriod
  paymentBasis : String
  conditions : List String
  inclusions : List String
  parties : List ProposalParty
  deadlineAt : Instant
  deadlineTimezone : String
  sourceListingRevisionId : Option Uuid

/-- `termsContent`. -/
def Terms.content (terms : Terms) : JsonValue :=
  .obj [("amountMinor", .num terms.amountMinor), ("currency", .str terms.currency.name),
    ("period", .str terms.period.name), ("paymentBasis", .str terms.paymentBasis),
    ("conditions", .arr (terms.conditions.map .str)),
    ("inclusions", .arr (terms.inclusions.map .str)), ("parties", partiesJson terms.parties),
    ("deadlineAt", .str (String.ofList (IsoInstant.toISOText terms.deadlineAt))),
    ("deadlineTimezone", .str terms.deadlineTimezone),
    ("sourceListingRevisionId", (terms.sourceListingRevisionId.map JsonValue.str).getD .null)]

/-- **What the commands compute with**: `hashRequest`, `sofiaInstant`, trimming
and the schema of identifiers. -/
structure Environment where
  hash : JsonValue → String
  sofiaInstant : String → Option Instant
  trim : String → String
  isUuid : String → Bool

/-- `termsDigest`. -/
def Environment.termsDigest (env : Environment) (terms : Terms) : String := env.hash terms.content

/-! ## The tables -/

/-- A case. -/
structure CaseRow where
  id : Uuid
  version : ℕ
  active : Bool

/-- **A proposal.** -/
structure ProposalRow where
  id : Uuid
  reference : String
  caseId : Uuid
  interestId : Option Uuid
  listingId : Uuid
  activeRevisionNumber : ℕ
  version : ℕ

/-- **A revision of the terms.** -/
structure Revision where
  id : Uuid
  proposalId : Uuid
  revisionNumber : ℕ
  state : ProposalState
  terms : Terms
  respondsToRevisionId : Option Uuid
  termsHash : String
  approvalId : Option Uuid
  submittedAt : Option Instant
  respondedAt : Option Instant
  responseNote : Option String
  version : ℕ

/-- What a party decides. -/
inductive ResponseDecision where
  | agree
  | decline
  | counter
  deriving DecidableEq

/-- **A response of a party to a revision.** -/
structure Response where
  id : Uuid
  revisionId : Uuid
  partyId : Uuid
  actor : Actor
  decision : ResponseDecision
  reason : String
  termsHash : String
  operationId : Uuid

/-- The unique index of the responses. -/
def Response.key (response : Response) : Uuid × Uuid := (response.revisionId, response.partyId)

/-- **An approval of the terms of a revision**; one that is invalidated says when
and why. -/
structure TermsApproval where
  id : Uuid
  subjectId : Uuid
  subjectVersion : ℕ
  subjectHash : String
  partyIds : List Uuid
  decidedBy : Actor
  decidedAt : Instant
  decisionNote : String
  expiresAt : Option Instant
  invalidated : Option (Instant × String)
  version : ℕ

/-- **The tables of the proposals.** -/
structure ProposalData where
  cases : Table Uuid CaseRow CaseRow.id
  proposals : Table Uuid ProposalRow ProposalRow.id
  revisions : Table Uuid Revision Revision.id
  responses : Table (Uuid × Uuid) Response Response.key
  approvals : Table Uuid TermsApproval TermsApproval.id

/-! ## What a command finds elsewhere -/

/-- A party that may be named as a buyer. -/
structure OfferBuyer where
  partyId : Uuid
  name : String
  role : OfferRole

/-- **What an offer is made from**: an interest of the case, its listing as it is
published, the seller and the parties that may buy. -/
structure OfferSource where
  interestId : Uuid
  listingId : Uuid
  purpose : ListingPurpose
  publishedRevisionId : Uuid
  owner : Uuid × String
  buyers : List OfferBuyer

/-- **What a command meets** outside its tables: what the checks of the session
and of its permissions refuse, the party of the caller, the offer of an interest
of a case, whether the case is ready to agree, the clock, as it is read each
time, and what the database draws. -/
structure Findings where
  /-- `caseFor`. -/
  access : Uuid → Option (Thrown JsonValue)
  /-- The capability a command needs of its record. -/
  permission : Uuid → Option (Thrown JsonValue)
  /-- `requireFreshAuth`. -/
  fresh : Option (Thrown JsonValue)
  listingRead : Uuid → Option (Thrown JsonValue)
  principalPartyId : Option Uuid
  offer : Uuid → Uuid → Tx OfferSource
  /-- `assertCaseAgreementReady`. -/
  agreementReady : Uuid → Uuid → Option (Thrown JsonValue)
  now : ℕ → Instant
  reference : String
  proposalId : Uuid
  revisionId : Uuid
  responseId : Uuid
  approvalId : Uuid

/-! ## Offers -/

/-- An offer: its source, and who its parties are. -/
structure Offer where
  source : OfferSource
  snapshot : List ProposalParty

/-- Ids in the order of their texts. -/
def sortIds (ids : List Uuid) : List Uuid := ids.insertionSort (fun a b : String => a ≤ b)

/-- The parties of an offer: those selected to buy, and the owner. -/
def OfferSource.snapshot (source : OfferSource) (selectedIds : List Uuid) : List ProposalParty :=
  selectedIds.filterMap (fun id => (source.buyers.find? (fun b => b.partyId = id)).map
      (fun b => ⟨id, b.name, b.role, true⟩))
    ++ [⟨source.owner.fst, source.owner.snd,
      if source.purpose = .sale then .seller else .landlord, true⟩]

/-- **`offerContext`.** -/
def offerContext (found : Findings) (caseId interestId clientPartyId : Uuid)
    (additionalPartyIds : List Uuid) : Tx Offer := do
  let source ← found.offer caseId interestId
  let buyer ← Tx.found (source.buyers.find?
      (fun b => b.partyId = clientPartyId && b.partyId ≠ source.owner.fst))
    (Tx.fieldError .validationFailed "clientPartyId" "current_principal_party_required")
  let selectedIds :=
    buyer.partyId :: sortIds (additionalPartyIds.filter (fun id => id ≠ buyer.partyId))
  Tx.demand (selectedIds.length ≤ 19 ∧ selectedIds.Nodup ∧ ∀ id ∈ selectedIds,
      id ≠ source.owner.fst ∧ id ∈ source.buyers.map OfferBuyer.partyId)
    (Tx.fieldError .validationFailed "additionalPartyIds" "current_principal_party_required")
  .ok ⟨source, source.snapshot selectedIds⟩

/-- The terms a command asks for. -/
structure TermInput where
  amountMinor : ℕ
  currency : CurrencyCode
  period : PricePeriod
  paymentBasis : String
  conditions : List String
  inclusions : List String
  deadline : String

/-- `termInputSchema`. -/
def TermInput.parse (env : Environment) (raw : TermInput) : Option TermInput :=
  let input : TermInput := { raw with
    paymentBasis := env.trim raw.paymentBasis
    conditions := raw.conditions.map env.trim
    inclusions := raw.inclusions.map env.trim }
  if 1 ≤ input.amountMinor && input.amountMinor ≤ 2 ^ 53 - 1
      && Tx.textWithin 3 1500 input.paymentBasis
      && input.conditions.length ≤ 20 && input.conditions.all (Tx.textWithin 1 1500)
      && input.inclusions.length ≤ 20 && input.inclusions.all (Tx.textWithin 1 1500)
      && (env.sofiaInstant input.deadline).isSome then some input
  else none

/-- **`terms`**: the terms of an offer. -/
def termsOf (env : Environment) (input : TermInput) (offer : Offer) (now : Instant) : Tx Terms := do
  let deadlineAt ← Tx.found ((env.sofiaInstant input.deadline).filter (fun t => now < t))
    (Tx.fieldError .validationFailed "deadline" "future_required")
  Tx.demand (input.period = if offer.source.purpose = .sale then .total else .month)
    (Tx.fieldError .validationFailed "period" "listing_purpose_period_mismatch")
  .ok { amountMinor := input.amountMinor
        currency := input.currency
        period := input.period
        paymentBasis := input.paymentBasis
        conditions := input.conditions
        inclusions := input.inclusions
        parties := offer.snapshot
        deadlineAt := deadlineAt
        deadlineTimezone := "Europe/Sofia"
        sourceListingRevisionId := some offer.source.publishedRevisionId }

/-! ## Parts of the commands -/

/-- What every input has. -/
structure Envelope where
  id : Uuid
  operationId : String
  expectedVersion : ℕ

/-- `commandEnvelope`. -/
def Envelope.isValid (env : Environment) (envelope : Envelope) : Bool :=
  env.isUuid envelope.id && Tx.textWithin 16 200 envelope.operationId
    && 0 < envelope.expectedVersion && envelope.expectedVersion ≤ 2 ^ 53 - 1

/-- `additionalParties`. -/
def additionalValid (env : Environment) (ids : Option (List Uuid)) : Bool :=
  ids.all (fun ids => ids.length ≤ 18 && ids.all env.isUuid && decide ids.Nodup)

/-- A denied decision, as `allow` reports it. -/
def denied (code : String) : Thrown JsonValue := Tx.fieldError .transitionDenied "form" code

/-- The active revision of a proposal. -/
def ProposalData.activeRevision (data : ProposalData) (proposal : ProposalRow) : Option Revision :=
  data.revisions.rows.find? (fun r => r.proposalId = proposal.id
    && r.revisionNumber = proposal.activeRevisionNumber)

/-- Whether a client may act on a revision: they are a party of it, and it was
submitted. -/
def mayRespond (env : Environment) (partyId : Uuid) (revision : Revision) : Bool :=
  revision.submittedAt.isSome && snapshotValid env.isUuid revision.terms.parties
    && revision.terms.parties.any (fun party => party.partyId = partyId)
    && revision.state ∈ visibleProposalStates

/-- **`proposalFor`**, to write: the proposal, its active revision and the party
of the caller. -/
def proposalFor (env : Environment) (found : Findings) (actor : Actor) (data : ProposalData)
    (id : Uuid) (clientRevisionId : Option Uuid) : Tx (ProposalRow × Revision × Uuid) := do
  let proposal ← Tx.found (data.proposals.get? id) (Tx.ofCode .notFound)
  Tx.refuse (found.access proposal.caseId)
  let row ← Tx.found (data.cases.get? proposal.caseId) (Tx.ofCode .notFound)
  Tx.refuse (found.permission id)
  Tx.refuse found.fresh
  Tx.demand (row.active = true) (Tx.ofCode .transitionDenied)
  let revision ← Tx.found (data.activeRevision proposal) (Tx.ofCode .notFound)
  let partyId ← Tx.found found.principalPartyId (Tx.ofCode .notFound)
  let asked : Option Revision := match clientRevisionId with
    | some revisionId => data.revisions.rows.find?
        (fun r => r.proposalId = id && r.id = revisionId)
    | none => some revision
  Tx.demand (actor.kind = .client → asked.any (mayRespond env partyId) = true)
    (Tx.ofCode .notFound)
  .ok (proposal, revision, partyId)

/-- **`currentRevision`.** -/
def currentRevision (env : Environment) (revision : Revision) (expectedId : Uuid)
    (now : Instant) : Tx Unit := do
  Tx.demand (revision.id = expectedId) (Tx.ofCode .versionConflict)
  Tx.demand (now < revision.terms.deadlineAt)
    (Tx.fieldError .transitionDenied "deadline" "proposal_expired")
  Tx.demand (env.termsDigest revision.terms = revision.termsHash) (Tx.ofCode .approvalStale)
  .ok ()

/-- Whether an approval is one of the revision as it is, and has not ended. -/
def TermsApproval.covers (approval : TermsApproval) (revision : Revision) (now : Instant) : Bool :=
  approval.invalidated.isNone && approval.subjectId = revision.id
    && approval.subjectVersion = revision.revisionNumber
    && approval.subjectHash = revision.termsHash && approval.decidedBy.kind = .staff
    && approval.expiresAt.all (fun expiry => now < expiry)

/-- **`validProposalApproval`.** -/
def validProposalApproval (env : Environment) (data : ProposalData) (revision : Revision)
    (now : Instant) : Tx Unit := do
  Tx.demand (env.termsDigest revision.terms = revision.termsHash) (Tx.ofCode .approvalStale)
  Tx.demand (((revision.approvalId.bind data.approvals.get?).any
    (fun approval => approval.covers revision now)) = true) (Tx.ofCode .approvalStale)
  .ok ()

/-- The buyer named first, and the ids of the others. -/
def buyersOf (parties : List ProposalParty) : Option (ProposalParty × List Uuid) :=
  (parties.find? (fun party => party.role.buys)).map (fun buyer => (buyer,
    (parties.filter (fun party => party.role.buys && party.partyId ≠ buyer.partyId)).map
      ProposalParty.partyId))

/-- **`validProposalSource`**: the offer would be made the same now. -/
def validProposalSource (env : Environment) (found : Findings) (proposal : ProposalRow)
    (revision : Revision) : Tx Unit := do
  let interestId ← Tx.found proposal.interestId (Tx.ofCode .transitionDenied)
  Tx.demand (snapshotValid env.isUuid revision.terms.parties = true) (Tx.ofCode .approvalStale)
  let (buyer, additional) ← Tx.found (buyersOf revision.terms.parties) (Tx.ofCode .approvalStale)
  let offer ← offerContext found proposal.caseId interestId buyer.partyId additional
  Tx.demand (offer.source.listingId = proposal.listingId
      ∧ some offer.source.publishedRevisionId = revision.terms.sourceListingRevisionId
      ∧ env.hash (partiesJson offer.snapshot) = env.hash (partiesJson revision.terms.parties))
    (Tx.ofCode .approvalStale)
  .ok ()

/-- **`invalidateApproval`.** -/
def invalidateApproval (approvals : Table Uuid TermsApproval TermsApproval.id)
    (revision : Revision) (reason : String) (now : Instant) :
    Table Uuid TermsApproval TermsApproval.id :=
  approvals.update (fun approval =>
    if revision.approvalId = some approval.id ∧ approval.invalidated = none then
      { approval with invalidated := some (now, reason), version := approval.version + 1 }
    else approval) (fun approval => by split_ifs <;> rfl)

/-- Inserts a revision; a proposal has one of each number. -/
def insertRevision (revisions : Table Uuid Revision Revision.id) (revision : Revision) :
    Tx (Table Uuid Revision Revision.id) := do
  Tx.demand (∀ other ∈ revisions.rows, ¬ (other.proposalId = revision.proposalId
    ∧ other.revisionNumber = revision.revisionNumber)) .other
  Tx.found (revisions.insert? revision) .other

/-- `bumpProposal`. -/
def ProposalRow.bumped (proposal : ProposalRow) (activeRevisionNumber : ℕ) : ProposalRow :=
  { proposal with activeRevisionNumber := activeRevisionNumber, version := proposal.version + 1 }

/-- `result`. -/
def result (proposal : ProposalRow) (version : ℕ) (now : Instant) : JsonValue :=
  .obj [("id", .str proposal.id), ("reference", .str proposal.reference),
    ("version", .num version),
    ("recordedAt", .str (String.ofList (IsoInstant.toISOText now)))]

/-- A new revision, a draft. -/
def newRevision (env : Environment) (id proposalId : Uuid) (revisionNumber : ℕ)
    (respondsTo : Option Uuid) (terms : Terms) : Revision where
  id := id
  proposalId := proposalId
  revisionNumber := revisionNumber
  state := .draft
  terms := terms
  respondsToRevisionId := respondsTo
  termsHash := env.termsDigest terms
  approvalId := none
  submittedAt := none
  respondedAt := none
  responseNote := none
  version := 1

end Proposals
