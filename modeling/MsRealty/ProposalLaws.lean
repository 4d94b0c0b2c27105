import MsRealty.ProposalWrites

/-!
# What the commands on proposals keep

The revisions of a proposal are numbered up to the active one, and no other is
open (`Numbered`). A revision is agreed only when every required party has agreed
to its terms (`Agreed`), and an approval that is valid is one of an active
revision that is neither withdrawn nor expired (`Approved`).
-/

namespace Proposals

variable {env : Environment} {data data' : ProposalData}
  {proposals : Table Uuid ProposalRow ProposalRow.id}
  {revisions revisions' : Table Uuid Revision Revision.id} {input : TransitionInput}
  {p : ProposalRow} {r r' next : Revision}

/-! ## Numbers -/

/-- **The revisions of each proposal are numbered** from one to its active one,
each number once, and only the active one may be open. -/
structure Numbered (proposals : Table Uuid ProposalRow ProposalRow.id)
    (revisions : Table Uuid Revision Revision.id) : Prop where
  once : ∀ r ∈ revisions.rows, ∀ r' ∈ revisions.rows, r.proposalId = r'.proposalId →
    r.revisionNumber = r'.revisionNumber → r = r'
  bounded : ∀ r ∈ revisions.rows, ∃ p ∈ proposals.rows, p.id = r.proposalId ∧
    1 ≤ r.revisionNumber ∧ r.revisionNumber ≤ p.activeRevisionNumber
  filled : ∀ p ∈ proposals.rows, ∀ n, 1 ≤ n → n ≤ p.activeRevisionNumber →
    ∃ r ∈ revisions.rows, r.proposalId = p.id ∧ r.revisionNumber = n
  active : ∀ r ∈ revisions.rows, ∀ p ∈ proposals.rows, p.id = r.proposalId →
    r.state ∈ openStates → r.revisionNumber = p.activeRevisionNumber

/-- **The active revision** is the one of its number. -/
theorem Numbered.activeRevision_iff (h : Numbered data.proposals data.revisions) :
    data.activeRevision p = some r ↔
      r ∈ data.revisions.rows ∧ r.proposalId = p.id ∧
        r.revisionNumber = p.activeRevisionNumber := by
  refine ⟨activeRevision_eq_some, fun ⟨hmem, hproposal, hnumber⟩ => ?_⟩
  cases hactive : data.activeRevision p with
  | none =>
    have hnone := List.find?_eq_none.mp hactive r hmem
    rw [Bool.and_eq_true, decide_eq_true_eq, decide_eq_true_eq] at hnone
    exact absurd ⟨hproposal, hnumber⟩ hnone
  | some other =>
    obtain ⟨hother, hotherProposal, hotherNumber⟩ := activeRevision_eq_some hactive
    rw [h.once other hother r hmem (hotherProposal.trans hproposal.symm)
      (hotherNumber.trans hnumber.symm)]

/-- A revision that is written comes from one there was: the same, or the one it
is written over. -/
theorem exists_before {x : Revision} (hr : r ∈ revisions.rows) (hsame : SameRevision r r')
    (hx : x ∈ (revisions.put r').rows) :
    ∃ y ∈ revisions.rows, SameRevision y x ∧ (x = y ∧ y ≠ r ∨ y = r ∧ x = r') := by
  obtain rfl | ⟨hx, hne⟩ := Table.mem_put.mp hx
  · exact ⟨r, hr, hsame, .inr ⟨rfl, rfl⟩⟩
  · refine ⟨x, hx, .refl x, .inl ⟨rfl, fun heq => hne ?_⟩⟩
    rw [heq, hsame.id]

/-- Each revision there was is still there, or as it is written. -/
theorem exists_after {y : Revision} (hr : r ∈ revisions.rows) (hsame : SameRevision r r')
    (hy : y ∈ revisions.rows) :
    ∃ x ∈ (revisions.put r').rows, SameRevision y x ∧ (x = y ∧ y ≠ r ∨ y = r ∧ x = r') := by
  by_cases heq : y = r
  · subst heq
    exact ⟨r', Table.mem_put.mpr (.inl rfl), hsame, .inr ⟨rfl, rfl⟩⟩
  · refine ⟨y, Table.mem_put.mpr (.inr ⟨hy, fun hid => heq ?_⟩), .refl y, .inl ⟨rfl, heq⟩⟩
    exact Table.eq_of_key hy hr (hid.trans hsame.id)

/-- Two states of one proposal. -/
structure SameProposal (p p' : ProposalRow) : Prop where
  id : p'.id = p.id
  caseId : p'.caseId = p.caseId
  interestId : p'.interestId = p.interestId

theorem SameProposal.refl (p : ProposalRow) : SameProposal p p := ⟨rfl, rfl, rfl⟩

/-- A proposal after one is bumped: that one, or another there was. -/
theorem exists_before_bumped {q : ProposalRow} {number : ℕ} (hp : p ∈ proposals.rows)
    (hq : q ∈ (proposals.put (p.bumped number)).rows) :
    ∃ q₀ ∈ proposals.rows, SameProposal q₀ q ∧
      (q₀ = p ∧ q.activeRevisionNumber = number ∨ q = q₀ ∧ q₀ ≠ p) := by
  obtain rfl | ⟨hq, hne⟩ := Table.mem_put.mp hq
  · exact ⟨p, hp, ⟨rfl, rfl, rfl⟩, .inl ⟨rfl, rfl⟩⟩
  · exact ⟨q, hq, .refl q, .inr ⟨rfl, fun heq => hne (heq ▸ rfl)⟩⟩

theorem exists_after_bumped {q : ProposalRow} (number : ℕ) (hp : p ∈ proposals.rows)
    (hq : q ∈ proposals.rows) :
    ∃ q' ∈ (proposals.put (p.bumped number)).rows, SameProposal q q' ∧
      (q = p ∧ q'.activeRevisionNumber = number ∨ q' = q ∧ q ≠ p) := by
  by_cases heq : q = p
  · subst heq
    exact ⟨_, Table.mem_put.mpr (.inl rfl), ⟨rfl, rfl, rfl⟩, .inl ⟨rfl, rfl⟩⟩
  · exact ⟨q, Table.mem_put.mpr (.inr ⟨hq, fun hid => heq (Table.eq_of_key hq hp hid)⟩), .refl q,
      .inr ⟨rfl, heq⟩⟩

/-- **Writing a revision** keeps the numbers, unless it opens. -/
theorem numbered_of_put (h : Numbered proposals revisions) (hr : r ∈ revisions.rows)
    (hsame : SameRevision r r') (hopen : r'.state ∈ openStates → r.state ∈ openStates) :
    Numbered proposals (revisions.put r') := by
  refine ⟨fun x hx y hy hproposal hnumber => ?_, fun x hx => ?_, fun q hq n hleast hmost => ?_,
    fun x hx q hq hid hstate => ?_⟩
  · obtain ⟨x₀, hx₀, hxsame, -⟩ := exists_before hr hsame hx
    obtain ⟨y₀, hy₀, hysame, -⟩ := exists_before hr hsame hy
    have heq : x₀ = y₀ := by
      refine h.once x₀ hx₀ y₀ hy₀ ?_ ?_
      · rw [← hxsame.proposalId, ← hysame.proposalId, hproposal]
      · rw [← hxsame.revisionNumber, ← hysame.revisionNumber, hnumber]
    exact Table.eq_of_key hx hy (by rw [hxsame.id, hysame.id, heq])
  · obtain ⟨x₀, hx₀, hxsame, -⟩ := exists_before hr hsame hx
    rw [hxsame.proposalId, hxsame.revisionNumber]
    exact h.bounded x₀ hx₀
  · obtain ⟨x₀, hx₀, hproposal, hnumber⟩ := h.filled q hq n hleast hmost
    obtain ⟨x, hx, hxsame, -⟩ := exists_after hr hsame hx₀
    exact ⟨x, hx, hxsame.proposalId.trans hproposal, hxsame.revisionNumber.trans hnumber⟩
  · obtain ⟨x₀, hx₀, hxsame, hcases⟩ := exists_before hr hsame hx
    rw [hxsame.revisionNumber]
    refine h.active x₀ hx₀ q hq (hid.trans hxsame.proposalId) ?_
    obtain ⟨rfl, -⟩ | ⟨rfl, rfl⟩ := hcases
    · exact hstate
    · exact hopen hstate

/-- Bumping a proposal to the number it has keeps the numbers. -/
theorem numbered_of_bumped (h : Numbered proposals revisions) (hp : p ∈ proposals.rows) :
    Numbered (proposals.put (p.bumped p.activeRevisionNumber)) revisions := by
  refine ⟨h.once, fun x hx => ?_, fun q hq n hleast hmost => ?_, fun x hx q hq hid hstate => ?_⟩
  · obtain ⟨q, hq, hid, hleast, hmost⟩ := h.bounded x hx
    obtain ⟨q', hq', hsame, hcases⟩ :=
      exists_after_bumped p.activeRevisionNumber hp hq
    refine ⟨q', hq', hsame.id.trans hid, hleast, hmost.trans (le_of_eq ?_)⟩
    obtain ⟨rfl, hactive⟩ | ⟨rfl, -⟩ := hcases
    · exact hactive.symm
    · rfl
  · obtain ⟨q₀, hq₀, hsame, hcases⟩ := exists_before_bumped hp hq
    have hactive : q.activeRevisionNumber = q₀.activeRevisionNumber := by
      obtain ⟨rfl, hactive⟩ | ⟨rfl, -⟩ := hcases
      · exact hactive
      · rfl
    rw [hsame.id]
    exact h.filled q₀ hq₀ n hleast (hactive ▸ hmost)
  · obtain ⟨q₀, hq₀, hsame, hcases⟩ := exists_before_bumped hp hq
    rw [h.active x hx q₀ hq₀ (hsame.id.symm.trans hid) hstate]
    obtain ⟨rfl, hactive⟩ | ⟨rfl, -⟩ := hcases
    · exact hactive.symm
    · rfl

theorem numbered_of_moves (h : Numbered data.proposals data.revisions)
    (hmoves : Moves data data' p r r') : Numbered data'.proposals data'.revisions := by
  rw [hmoves.proposals, hmoves.revisions]
  refine numbered_of_bumped (numbered_of_put h ?_ hmoves.same (fun _ => hmoves.wasOpen))
    hmoves.proposal
  exact (activeRevision_eq_some hmoves.active).1

/-- A revision is inserted under a number of its own. -/
theorem once_of_insert (h : Numbered proposals revisions)
    (hinsert : revisions.insert? r = some revisions')
    (hfree : ∀ other ∈ revisions.rows,
      ¬ (other.proposalId = r.proposalId ∧ other.revisionNumber = r.revisionNumber)) :
    ∀ x ∈ revisions'.rows, ∀ y ∈ revisions'.rows, x.proposalId = y.proposalId →
      x.revisionNumber = y.revisionNumber → x = y := by
  have hmem := Table.mem_insert? hinsert
  intro x hx y hy hproposal hnumber
  obtain rfl | hx := (hmem x).mp hx
  · obtain rfl | hy := (hmem y).mp hy
    · rfl
    · exact absurd ⟨hproposal.symm, hnumber.symm⟩ (hfree y hy)
  · obtain rfl | hy := (hmem y).mp hy
    · exact absurd ⟨hproposal, hnumber⟩ (hfree x hx)
    · exact h.once x hx y hy hproposal hnumber

/-- **A next revision** of a proposal none of whose revisions is open keeps the
numbers. -/
theorem numbered_of_next (h : Numbered proposals revisions) (hp : p ∈ proposals.rows)
    (hclosed : ∀ x ∈ revisions.rows, x.proposalId = p.id → x.state ∉ openStates)
    (hnew : next.New env p.id (p.activeRevisionNumber + 1))
    (hinsert : insertRevision revisions next = .ok revisions') :
    Numbered (proposals.put (p.bumped (p.activeRevisionNumber + 1))) revisions' := by
  obtain ⟨hinsert, hfree⟩ := insertRevision_eq_ok hinsert
  have hmem := Table.mem_insert? hinsert
  refine ⟨once_of_insert h hinsert hfree, fun x hx => ?_, fun q hq n hleast hmost => ?_,
    fun x hx q hq hid hstate => ?_⟩
  · obtain rfl | hx := (hmem x).mp hx
    · refine ⟨_, Table.mem_put.mpr (.inl rfl), hnew.proposalId.symm, ?_, ?_⟩
      · rw [hnew.revisionNumber]
        exact Nat.le_add_left _ _
      · rw [hnew.revisionNumber]
        exact le_rfl
    · obtain ⟨q, hq, hid, hleast, hmost⟩ := h.bounded x hx
      obtain ⟨q', hq', hsame, hcases⟩ := exists_after_bumped _ hp hq
      refine ⟨q', hq', hsame.id.trans hid, hleast, hmost.trans ?_⟩
      obtain ⟨rfl, hactive⟩ | ⟨rfl, -⟩ := hcases
      · rw [hactive]
        exact Nat.le_succ _
      · exact le_rfl
  · obtain ⟨q₀, hq₀, hsame, hcases⟩ := exists_before_bumped hp hq
    have hold : n ≤ q₀.activeRevisionNumber →
        ∃ x ∈ revisions'.rows, x.proposalId = q.id ∧ x.revisionNumber = n := by
      intro hn
      obtain ⟨x, hx, hproposal, hnumber⟩ := h.filled q₀ hq₀ n hleast hn
      exact ⟨x, (hmem x).mpr (.inr hx), hproposal.trans hsame.id.symm, hnumber⟩
    obtain ⟨rfl, hactive⟩ | ⟨rfl, -⟩ := hcases
    · rw [hactive] at hmost
      obtain hn | rfl := Nat.le_succ_iff.mp hmost
      · exact hold hn
      · exact ⟨next, (hmem next).mpr (.inl rfl), hnew.proposalId.trans hsame.id.symm,
          hnew.revisionNumber⟩
    · exact hold hmost
  · obtain ⟨q₀, hq₀, hsame, hcases⟩ := exists_before_bumped hp hq
    obtain rfl | hx := (hmem x).mp hx
    · obtain ⟨rfl, hactive⟩ | ⟨rfl, hne⟩ := hcases
      · rw [hactive, hnew.revisionNumber]
      · exact absurd (Table.eq_of_key hq₀ hp (hid.trans hnew.proposalId)) hne
    · obtain ⟨rfl, -⟩ | ⟨rfl, -⟩ := hcases
      · exact absurd hstate (hclosed x hx (hid.symm.trans hsame.id))
      · exact h.active x hx q hq₀ hid hstate

/-- The revisions of a proposal whose active one is left closed are all closed. -/
theorem not_open_of_revises (h : Numbered data.proposals data.revisions)
    (hrevises : Revises env data data' p r r' next) :
    ∀ x ∈ (data.revisions.put r').rows, x.proposalId = p.id → x.state ∉ openStates := by
  obtain ⟨hr, hproposal, hnumber⟩ := activeRevision_eq_some hrevises.active
  intro x hx hid hstate
  obtain ⟨y, hy, hsame, ⟨rfl, hne⟩ | ⟨-, rfl⟩⟩ := exists_before hr hrevises.same hx
  · refine hne (h.once x hy r hr (hid.trans hproposal.symm) ?_)
    rw [h.active x hy p hrevises.proposal hid.symm hstate, hnumber]
  · exact hrevises.closed hstate

theorem numbered_of_revises (h : Numbered data.proposals data.revisions)
    (hrevises : Revises env data data' p r r' next) :
    Numbered data'.proposals data'.revisions := by
  rw [hrevises.proposals]
  refine numbered_of_next (numbered_of_put h (activeRevision_eq_some hrevises.active).1
    hrevises.same (fun hstate => absurd hstate hrevises.closed)) hrevises.proposal
    (not_open_of_revises h hrevises) hrevises.new hrevises.revisions

theorem numbered_of_creates (h : Numbered data.proposals data.revisions)
    (hcreates : Creates env data data' p r) : Numbered data'.proposals data'.revisions := by
  obtain ⟨hinsert, hfree⟩ := insertRevision_eq_ok hcreates.revisions
  have hmem := Table.mem_insert? hinsert
  have hproposals := Table.mem_insert? hcreates.proposals
  have hunused := Table.get?_eq_none.mp (Table.get?_of_insert? hcreates.proposals)
  have hnew := hcreates.new
  refine ⟨once_of_insert h hinsert hfree, fun x hx => ?_, fun q hq n hleast hmost => ?_,
    fun x hx q hq hid hstate => ?_⟩
  · obtain rfl | hx := (hmem x).mp hx
    · refine ⟨p, (hproposals p).mpr (.inl rfl), hnew.proposalId.symm, ?_, ?_⟩
      · exact hnew.revisionNumber.ge
      · rw [hnew.revisionNumber, hcreates.first]
    · obtain ⟨q, hq, hrest⟩ := h.bounded x hx
      exact ⟨q, (hproposals q).mpr (.inr hq), hrest⟩
  · obtain rfl | hq := (hproposals q).mp hq
    · rw [hcreates.first] at hmost
      refine ⟨r, (hmem r).mpr (.inl rfl), hnew.proposalId, ?_⟩
      rw [hnew.revisionNumber, le_antisymm hmost hleast]
    · obtain ⟨x, hx, hrest⟩ := h.filled q hq n hleast hmost
      exact ⟨x, (hmem x).mpr (.inr hx), hrest⟩
  · obtain rfl | hx := (hmem x).mp hx
    · obtain rfl | hq := (hproposals q).mp hq
      · rw [hnew.revisionNumber, hcreates.first]
      · exact absurd (hid.trans hnew.proposalId) (hunused q hq)
    · obtain rfl | hq := (hproposals q).mp hq
      · obtain ⟨q₀, hq₀, hid₀, -⟩ := h.bounded x hx
        exact absurd (hid₀.trans hid.symm) (hunused q₀ hq₀)
      · exact h.active x hx q hq hid hstate

/-! ## Agreement -/

/-- **A revision is agreed** only when every required party of it has agreed to its
terms. -/
def Agreed (responses : Table (Uuid × Uuid) Response Response.key)
    (revisions : Table Uuid Revision Revision.id) : Prop :=
  ∀ r ∈ revisions.rows, r.state = .agreedForNextStep → ∀ party ∈ r.terms.parties,
    party.required = true → ∃ response ∈ responses.rows, response.revisionId = r.id ∧
      response.partyId = party.partyId ∧ response.decision = .agree ∧
        response.termsHash = r.termsHash

variable {responses responses' : Table (Uuid × Uuid) Response Response.key}

/-- What the check of all the parties finds. -/
theorem exists_agree (h : allAgreed responses r = true) {party : ProposalParty}
    (hparty : party ∈ r.terms.parties) (hrequired : party.required = true) :
    ∃ response ∈ responses.rows, response.revisionId = r.id ∧
      response.partyId = party.partyId ∧ response.decision = .agree ∧
        response.termsHash = r.termsHash := by
  have hany := List.all_eq_true.mp h party (List.mem_filter.mpr ⟨hparty, hrequired⟩)
  obtain ⟨response, hresponse, hmatch⟩ := List.any_eq_true.mp hany
  simp only [Bool.and_eq_true, decide_eq_true_eq] at hmatch
  obtain ⟨⟨⟨hrevision, hdecision⟩, hhash⟩, hid⟩ := hmatch
  exact ⟨response, hresponse, hrevision, hid, hdecision, hhash⟩

/-- **Writing a revision keeps the agreements**, if it is agreed only when all
have. -/
theorem agreed_of_put (h : Agreed responses revisions) (hr : r ∈ revisions.rows)
    (hsame : SameRevision r r')
    (hresponses : ∀ response ∈ responses.rows, response ∈ responses'.rows)
    (hstate : r'.state = .agreedForNextStep → allAgreed responses' r = true) :
    Agreed responses' (revisions.put r') := by
  intro x hx hagreed party hparty hrequired
  obtain ⟨y, hy, -, ⟨rfl, -⟩ | ⟨rfl, rfl⟩⟩ := exists_before hr hsame hx
  · obtain ⟨response, hresponse, hmatch⟩ := h x hy hagreed party hparty hrequired
    exact ⟨response, hresponses response hresponse, hmatch⟩
  · rw [hsame.id, hsame.termsHash]
    rw [hsame.terms] at hparty
    exact exists_agree (hstate hagreed) hparty hrequired

theorem agreed_of_insert (h : Agreed responses revisions)
    (hinsert : insertRevision revisions r = .ok revisions') (hdraft : r.state = .draft) :
    Agreed responses revisions' := by
  intro x hx hagreed
  obtain rfl | hx := (Table.mem_insert? (insertRevision_eq_ok hinsert).1 x).mp hx
  · rw [hdraft] at hagreed
    cases hagreed
  · exact h x hx hagreed

theorem agreed_of_creates (h : Agreed data.responses data.revisions)
    (hcreates : Creates env data data' p r) : Agreed data'.responses data'.revisions := by
  rw [hcreates.responses]
  exact agreed_of_insert h hcreates.revisions hcreates.new.state

theorem agreed_of_revises (h : Agreed data.responses data.revisions)
    (hrevises : Revises env data data' p r r' next) : Agreed data'.responses data'.revisions :=
  agreed_of_insert (agreed_of_put h (activeRevision_eq_some hrevises.active).1 hrevises.same
    hrevises.responses (fun hagreed => absurd hagreed hrevises.notAgreed)) hrevises.revisions
    hrevises.new.state

theorem Transitions.state_ne_agreed (h : Transitions data data' input p r r') :
    r'.state ≠ .agreedForNextStep ∧ r'.state ≠ .draft := by
  rw [h.state]
  cases input.action <;> decide

theorem agreed_of_transitions (h : Agreed data.responses data.revisions)
    (htransitions : Transitions data data' input p r r') :
    Agreed data'.responses data'.revisions := by
  rw [htransitions.responses, htransitions.revisions]
  exact agreed_of_put h (activeRevision_eq_some htransitions.active).1 htransitions.same
    (fun _ hresponse => hresponse) (fun hagreed => absurd hagreed htransitions.state_ne_agreed.1)

theorem agreed_of_decides (h : Agreed data.responses data.revisions)
    (hdecides : Decides data data' p r r') : Agreed data'.responses data'.revisions := by
  rw [hdecides.revisions]
  refine agreed_of_put h (activeRevision_eq_some hdecides.active).1 hdecides.same
    hdecides.responses (fun hagreed => ?_)
  obtain hstate | hstate | ⟨-, hall⟩ := hdecides.state
  · rw [hstate] at hagreed
    cases hagreed
  · rw [hstate] at hagreed
    cases hagreed
  · exact hall

/-! ## Digests -/

/-- **A revision has the digest of its terms**, and a draft has no approval. -/
def Digested (env : Environment) (revisions : Table Uuid Revision Revision.id) : Prop :=
  ∀ r ∈ revisions.rows, r.termsHash = env.termsDigest r.terms ∧
    (r.state = .draft → r.approvalId = none)

theorem digested_of_put (h : Digested env revisions) (hr : r ∈ revisions.rows)
    (hsame : SameRevision r r') (hdraft : r'.state ≠ .draft) :
    Digested env (revisions.put r') := by
  intro x hx
  obtain ⟨y, hy, -, ⟨rfl, -⟩ | ⟨rfl, rfl⟩⟩ := exists_before hr hsame hx
  · exact h x hy
  · rw [hsame.termsHash, hsame.terms]
    exact ⟨(h y hy).1, fun hstate => absurd hstate hdraft⟩

theorem digested_of_insert (h : Digested env revisions) {proposalId : Uuid} {number : ℕ}
    (hinsert : insertRevision revisions r = .ok revisions') (hnew : r.New env proposalId number) :
    Digested env revisions' := by
  intro x hx
  obtain rfl | hx := (Table.mem_insert? (insertRevision_eq_ok hinsert).1 x).mp hx
  · exact ⟨hnew.termsHash, fun _ => hnew.approvalId⟩
  · exact h x hx

/-! ## Approvals -/

/-- **An approval is alive**: it is that of its revision, an active one that is
neither withdrawn nor expired. -/
def Alive (proposals : Table Uuid ProposalRow ProposalRow.id)
    (revisions : Table Uuid Revision Revision.id) (approval : TermsApproval) : Prop :=
  ∃ r ∈ revisions.rows, r.id = approval.subjectId ∧ r.approvalId = some approval.id ∧
    r.state ≠ .withdrawn ∧ r.state ≠ .expired ∧
      ∃ p ∈ proposals.rows, p.id = r.proposalId ∧ r.revisionNumber = p.activeRevisionNumber

/-- **Every approval is alive** until it is invalidated. -/
def Approved (approvals : Table Uuid TermsApproval TermsApproval.id)
    (proposals : Table Uuid ProposalRow ProposalRow.id)
    (revisions : Table Uuid Revision Revision.id) : Prop :=
  ∀ approval ∈ approvals.rows, approval.invalidated = none → Alive proposals revisions approval

variable {approval : TermsApproval}

/-- **Writing the active revision of a proposal** leaves the approvals alive that
are not its own. -/
theorem alive_or_own (number : ℕ) (hn : Numbered data.proposals data.revisions)
    (hp : p ∈ data.proposals.rows) (hactive : data.activeRevision p = some r)
    (hsame : SameRevision r r') (h : Alive data.proposals data.revisions approval) :
    Alive (data.proposals.put (p.bumped number)) (data.revisions.put r') approval ∨
      (r.id = approval.subjectId ∧ r.approvalId = some approval.id) := by
  obtain ⟨hr, hproposal, hnumber⟩ := activeRevision_eq_some hactive
  obtain ⟨x, hx, hsubject, happroval, hwithdrawn, hexpired, q, hq, hid, hxnumber⟩ := h
  by_cases hxr : x = r
  · subst hxr
    exact .inr ⟨hsubject, happroval⟩
  -- a proposal has one active revision, so that of the other is not the one bumped
  have hqp : q ≠ p := by
    rintro rfl
    exact hxr (hn.once x hx r hr (hid.symm.trans hproposal.symm) (hxnumber.trans hnumber.symm))
  refine .inl ⟨x, Table.mem_put.mpr (.inr ⟨hx, fun heq => hxr ?_⟩), hsubject, happroval,
    hwithdrawn, hexpired, q, Table.mem_put.mpr (.inr ⟨hq, fun heq => hqp ?_⟩), hid, hxnumber⟩
  · exact Table.eq_of_key hx hr (heq.trans hsame.id)
  · exact Table.eq_of_key hq hp heq

/-- An approval of the revision that is written is alive, if it has it then. -/
theorem alive_of_own (hmoves : Moves data data' p r r') (hsubject : r.id = approval.subjectId)
    (happroval : r'.approvalId = some approval.id)
    (hstate : r'.state ≠ .withdrawn ∧ r'.state ≠ .expired) :
    Alive data'.proposals data'.revisions approval := by
  obtain ⟨-, hproposal, hnumber⟩ := activeRevision_eq_some hmoves.active
  rw [hmoves.proposals, hmoves.revisions]
  refine ⟨r', Table.mem_put.mpr (.inl rfl), hmoves.same.id.trans hsubject, happroval, hstate.1,
    hstate.2, _, Table.mem_put.mpr (.inl rfl), ?_, ?_⟩
  · exact hproposal.symm.trans hmoves.same.proposalId.symm
  · exact hmoves.same.revisionNumber.trans hnumber

/-- **Writing the active revision keeps the approvals alive**, when it keeps its own
and is neither withdrawn nor expired. -/
theorem alive_of_moves (hn : Numbered data.proposals data.revisions)
    (hmoves : Moves data data' p r r') (happrovalId : r'.approvalId = r.approvalId)
    (hstate : r'.state ≠ .withdrawn ∧ r'.state ≠ .expired)
    (h : Alive data.proposals data.revisions approval) :
    Alive data'.proposals data'.revisions approval := by
  obtain hother | ⟨hsubject, hown⟩ := alive_or_own p.activeRevisionNumber hn
    hmoves.proposal hmoves.active hmoves.same h
  · rw [hmoves.proposals, hmoves.revisions]
    exact hother
  · exact alive_of_own hmoves hsubject (happrovalId.trans hown) hstate

/-- An approval that is valid after those of a revision are invalidated was valid,
and is not its own. -/
theorem mem_invalidateApproval {approvals : Table Uuid TermsApproval TermsApproval.id}
    {reason : String} {now : Instant}
    (h : approval ∈ (invalidateApproval approvals r reason now).rows)
    (hvalid : approval.invalidated = none) :
    approval ∈ approvals.rows ∧ r.approvalId ≠ some approval.id := by
  obtain ⟨before, hbefore, heq⟩ := Table.mem_update.mp h
  split_ifs at heq with hown
  · rw [← heq] at hvalid
    cases hvalid
  · subst heq
    exact ⟨hbefore, fun hid => hown ⟨hid, hvalid⟩⟩

theorem approved_of_transitions (h : Approved data.approvals data.proposals data.revisions)
    (hn : Numbered data.proposals data.revisions) (hd : Digested env data.revisions)
    (htransitions : Transitions data data' input p r r') :
    Approved data'.approvals data'.proposals data'.revisions := by
  intro approval happroval hvalid
  have hr := (activeRevision_eq_some htransitions.active).1
  have hstate := htransitions.state
  have hedge := htransitions.edge
  cases haction : input.action with
  | review =>
    rw [haction] at hstate hedge
    obtain ⟨-, made, hinsert, hsubject, -, hmade⟩ := htransitions.review haction
    have hstate' : r'.state ≠ .withdrawn ∧ r'.state ≠ .expired := by
      rw [hstate]
      decide
    obtain rfl | hold := (Table.mem_insert? hinsert approval).mp happroval
    · exact alive_of_own htransitions.toMoves hsubject.symm hmade hstate'
    · -- only a draft is reviewed, and it has no approval yet
      have hdraft : r.state = .draft := by
        generalize r.state = state at hedge
        revert hedge
        cases state <;> decide
      obtain hother | ⟨-, hown⟩ := alive_or_own p.activeRevisionNumber hn
        htransitions.proposal htransitions.active htransitions.same (h approval hold hvalid)
      · rw [htransitions.proposals, htransitions.revisions]
        exact hother
      · rw [(hd r hr).2 hdraft] at hown
        cases hown
  | submit =>
    rw [haction] at hstate
    obtain ⟨-, happrovals, hsame⟩ := htransitions.submit haction
    rw [happrovals] at happroval
    refine alive_of_moves hn htransitions.toMoves hsame ?_ (h approval happroval hvalid)
    rw [hstate]
    decide
  | withdraw | expire =>
    obtain ⟨-, reason, now, happrovals⟩ := htransitions.ending (by rw [haction]; decide)
    rw [happrovals] at happroval
    obtain ⟨hold, hne⟩ := mem_invalidateApproval happroval hvalid
    obtain hother | ⟨-, hown⟩ := alive_or_own p.activeRevisionNumber hn
      htransitions.proposal htransitions.active htransitions.same (h approval hold hvalid)
    · rw [htransitions.proposals, htransitions.revisions]
      exact hother
    · exact absurd hown hne

theorem approved_of_decides (h : Approved data.approvals data.proposals data.revisions)
    (hn : Numbered data.proposals data.revisions) (hdecides : Decides data data' p r r') :
    Approved data'.approvals data'.proposals data'.revisions := by
  intro approval happroval hvalid
  rw [hdecides.approvals] at happroval
  refine alive_of_moves hn hdecides.toMoves hdecides.approvalId ?_ (h approval happroval hvalid)
  obtain hstate | hstate | ⟨hstate, -⟩ := hdecides.state <;> rw [hstate] <;> decide

/-- More proposals and revisions leave an approval alive. -/
theorem Alive.mono {proposals' : Table Uuid ProposalRow ProposalRow.id}
    (h : Alive proposals revisions approval) (hp : ∀ p ∈ proposals.rows, p ∈ proposals'.rows)
    (hr : ∀ r ∈ revisions.rows, r ∈ revisions'.rows) : Alive proposals' revisions' approval := by
  obtain ⟨x, hx, hsubject, happroval, hwithdrawn, hexpired, q, hq, hrest⟩ := h
  exact ⟨x, hr x hx, hsubject, happroval, hwithdrawn, hexpired, q, hp q hq, hrest⟩

theorem mem_insertRevision (h : insertRevision revisions r = .ok revisions') :
    ∀ x ∈ revisions.rows, x ∈ revisions'.rows :=
  fun x hx => (Table.mem_insert? (insertRevision_eq_ok h).1 x).mpr (.inr hx)

theorem approved_of_revises (h : Approved data.approvals data.proposals data.revisions)
    (hn : Numbered data.proposals data.revisions)
    (hrevises : Revises env data data' p r r' next) :
    Approved data'.approvals data'.proposals data'.revisions := by
  intro approval happroval hvalid
  obtain ⟨reason, now, happrovals⟩ := hrevises.approvals
  rw [happrovals] at happroval
  obtain ⟨hold, hne⟩ := mem_invalidateApproval happroval hvalid
  obtain hother | ⟨-, hown⟩ := alive_or_own (p.activeRevisionNumber + 1) hn
    hrevises.proposal hrevises.active hrevises.same (h approval hold hvalid)
  · rw [hrevises.proposals]
    exact hother.mono (fun _ hq => hq) (mem_insertRevision hrevises.revisions)
  · exact absurd hown hne

theorem approved_of_creates (h : Approved data.approvals data.proposals data.revisions)
    (hcreates : Creates env data data' p r) :
    Approved data'.approvals data'.proposals data'.revisions := by
  intro approval happroval hvalid
  rw [hcreates.approvals] at happroval
  exact (h approval happroval hvalid).mono
    (fun q hq => (Table.mem_insert? hcreates.proposals q).mpr (.inr hq))
    (mem_insertRevision hcreates.revisions)

end Proposals
