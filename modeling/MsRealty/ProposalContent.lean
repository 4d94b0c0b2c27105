import MsRealty.JsText
import MsRealty.Facts

/-!
# The content an approval of a proposal is bound to

The two readings of a material change of proposal terms
(`src/domain/proposal.ts`): `materialChanges` compares the material fields one
by one, and `proposalApprovalContent` is one text of all of them, which the
approval is bound to.

The text is read back into its fields, whatever they contain. So the two
readings agree (`materialChanges_eq_nil_iff`).
-/

namespace ProposalContent

open CanonicalText Doubles

/-! ## Terms -/

/-- **The terms of a proposal.** -/
structure ProposalTerms where
  amountMinor : JsNumber
  currency : CurrencyCode
  period : PricePeriod
  paymentBasis : JsString
  conditions : List JsString
  inclusions : List JsString
  partyIds : List JsString
  deadlineAt : JsString
  deadlineTimezone : JsString

/-- The fields whose change invalidates any approval of the terms. -/
inductive MaterialField where
  | amountMinor
  | currency
  | period
  | conditions
  | partyIds
  | deadlineAt
  | deadlineTimezone
  deriving DecidableEq

/-- The name of a field. -/
def MaterialField.name : MaterialField → String
  | .amountMinor => "amountMinor"
  | .currency => "currency"
  | .period => "period"
  | .conditions => "conditions"
  | .partyIds => "partyIds"
  | .deadlineAt => "deadlineAt"
  | .deadlineTimezone => "deadlineTimezone"

/-- `materialProposalFields`. -/
def materialProposalFields : List MaterialField :=
  [.amountMinor, .currency, .period, .conditions, .partyIds, .deadlineAt, .deadlineTimezone]

/-- `terms[field]`. -/
def ProposalTerms.get (terms : ProposalTerms) : MaterialField → JsValue
  | .amountMinor => terms.amountMinor.json
  | .currency => .str (units terms.currency.name)
  | .period => .str (units terms.period.name)
  | .conditions => .arr (terms.conditions.map .str)
  | .partyIds => .arr (terms.partyIds.map .str)
  | .deadlineAt => .str terms.deadlineAt
  | .deadlineTimezone => .str terms.deadlineTimezone

/-- **`materialChanges`.** -/
def materialChanges (previous next : ProposalTerms) : List MaterialField :=
  materialProposalFields.filter fun field =>
    canonicalJson (previous.get field) != canonicalJson (next.get field)

/-- The material fields of terms, as the members of an object. -/
def ProposalTerms.members (terms : ProposalTerms) : List (JsString × JsValue) :=
  materialProposalFields.map fun field => (units field.name, terms.get field)

/-- **`proposalApprovalContent`.** -/
def proposalApprovalContent (terms : ProposalTerms) : JsString :=
  canonicalJson (.obj terms.members)

/-! ## The fields are read back -/

theorem mem_materialProposalFields (field : MaterialField) : field ∈ materialProposalFields := by
  cases field <;> decide

/-- The fields have names of their own. -/
theorem names_nodup (terms : ProposalTerms) : (terms.members.map Prod.fst).Nodup := by
  have hnames : terms.members.map Prod.fst
      = materialProposalFields.map fun field => units field.name := by
    rw [ProposalTerms.members, List.map_map]
    rfl
  rw [hnames]
  decide

theorem distinctItems_texts (texts : List JsString) : DistinctItems (texts.map .str) :=
  distinctItems_iff.mpr fun item hmem => by
    obtain ⟨text, -, rfl⟩ := List.mem_map.mp hmem
    trivial

/-- The value of a field holds no object. -/
theorem distinct_get (terms : ProposalTerms) (field : MaterialField) :
    Distinct (terms.get field) := by
  cases field with
  | amountMinor =>
    show Distinct terms.amountMinor.json
    cases terms.amountMinor <;> trivial
  | conditions => exact distinctItems_texts terms.conditions
  | partyIds => exact distinctItems_texts terms.partyIds
  | currency | period | deadlineAt | deadlineTimezone => trivial

/-- **The content tells every field.** -/
theorem same_of_content {previous next : ProposalTerms}
    (h : proposalApprovalContent previous = proposalApprovalContent next) (field : MaterialField) :
    CanonicalText.Same (previous.get field) (next.get field) := by
  have hmember : ∀ terms : ProposalTerms,
      (units field.name, terms.get field) ∈ terms.members := fun terms =>
    List.mem_map_of_mem (mem_materialProposalFields field)
  obtain ⟨found, hfound, hsame⟩ :=
    membersIn_iff.mp (same_of_canonicalJson h).2 _ (hmember previous)
  -- Only one member has the name of the field.
  have heq := List.inj_on_of_nodup_map (names_nodup next) hfound (hmember next) rfl
  rwa [(Prod.mk.inj heq).2] at hsame

/-- The content is made of the texts of the fields. -/
theorem content_congr {previous next : ProposalTerms}
    (h : ∀ field, canonicalJson (previous.get field) = canonicalJson (next.get field)) :
    proposalApprovalContent previous = proposalApprovalContent next := by
  have hmembers : canonicalMembers previous.members = canonicalMembers next.members := by
    rw [canonicalMembers_eq, canonicalMembers_eq, ProposalTerms.members, ProposalTerms.members,
      List.map_map, List.map_map]
    exact List.map_congr_left fun field _ => Prod.ext rfl (h field)
  rw [proposalApprovalContent, proposalApprovalContent, canonicalJson, canonicalJson, hmembers]

theorem materialChanges_eq_nil {previous next : ProposalTerms} :
    materialChanges previous next = [] ↔
      ∀ field, canonicalJson (previous.get field) = canonicalJson (next.get field) := by
  rw [materialChanges, List.filter_eq_nil_iff]
  simp [mem_materialProposalFields]

/-- **No field changes materially exactly if the content is the same.** -/
theorem materialChanges_eq_nil_iff (previous next : ProposalTerms) :
    materialChanges previous next = [] ↔
      proposalApprovalContent previous = proposalApprovalContent next := by
  rw [materialChanges_eq_nil]
  constructor
  · exact content_congr
  · intro h field
    exact canonicalJson_of_same _ _ (distinct_get previous field) (distinct_get next field)
      (same_of_content h field)

end ProposalContent
