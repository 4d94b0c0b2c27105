import MsRealty.ProposalCommands

/-!
# What the commands on proposals write

Each command writes one revision of one proposal, the active one, or makes a new
one: `Creates`, `Revises`, `Transitions` and `Decides` say what can be told of the
tables after it, and each command is shown to do so once and for all.
-/

namespace Proposals

variable {env : Environment} {found : Findings} {context : OperationContext}
  {data data' : ProposalData} {p : ProposalRow} {r r' : Revision} {value : JsonValue}

/-! ## What a command reads -/

theorem activeRevision_eq_some (h : data.activeRevision p = some r) :
    r ∈ data.revisions.rows ∧ r.proposalId = p.id ∧ r.revisionNumber = p.activeRevisionNumber := by
  have hfound := List.find?_some h
  rw [Bool.and_eq_true, decide_eq_true_eq, decide_eq_true_eq] at hfound
  exact ⟨List.mem_of_find?_eq_some h, hfound⟩

theorem proposalFor_eq_ok {actor : Actor} {id : Uuid} {clientRevisionId : Option Uuid}
    {partyId : Uuid}
    (h : proposalFor env found actor data id clientRevisionId = .ok (p, r, partyId)) :
    p ∈ data.proposals.rows ∧ p.id = id ∧ data.activeRevision p = some r := by
  simp only [proposalFor, Tx.found_bind, Tx.refuse_bind, Tx.demand_bind] at h
  obtain ⟨proposal, hproposal, -, row, -, -, -, -, revision, hrevision, party, -, -, hdone⟩ := h
  obtain ⟨rfl, hrest⟩ := Prod.mk.inj (Except.ok.inj hdone)
  obtain ⟨rfl, -⟩ := Prod.mk.inj hrest
  obtain ⟨hmem, hid⟩ := Table.get?_eq_some.mp hproposal
  exact ⟨hmem, hid, hrevision⟩

theorem insertRevision_eq_ok {revisions revisions' : Table Uuid Revision Revision.id}
    (h : insertRevision revisions r = .ok revisions') :
    revisions.insert? r = some revisions' ∧ ∀ other ∈ revisions.rows,
      ¬ (other.proposalId = r.proposalId ∧ other.revisionNumber = r.revisionNumber) := by
  rw [insertRevision, Tx.demand_bind] at h
  obtain ⟨hfree, h⟩ := h
  unfold Tx.found at h
  split at h
  · next hinsert => exact ⟨Except.ok.inj h ▸ hinsert, hfree⟩
  · exact (nomatch h)

/-! ## What a command does -/

/-- Two states of one revision: its terms are never written. -/
structure SameRevision (r r' : Revision) : Prop where
  id : r'.id = r.id
  proposalId : r'.proposalId = r.proposalId
  revisionNumber : r'.revisionNumber = r.revisionNumber
  terms : r'.terms = r.terms
  termsHash : r'.termsHash = r.termsHash

theorem SameRevision.refl (r : Revision) : SameRevision r r := ⟨rfl, rfl, rfl, rfl, rfl⟩

/-- A revision is new: a draft, without an approval. -/
structure Revision.New (env : Environment) (r : Revision) (proposalId : Uuid) (number : ℕ) :
    Prop where
  proposalId : r.proposalId = proposalId
  revisionNumber : r.revisionNumber = number
  state : r.state = .draft
  termsHash : r.termsHash = env.termsDigest r.terms
  approvalId : r.approvalId = none

/-- **A proposal is created**, the only open one of its interest. -/
structure Creates (env : Environment) (data data' : ProposalData) (p : ProposalRow)
    (r : Revision) : Prop where
  interest : ∃ interestId, p.interestId = some interestId ∧ data.openFor p.caseId interestId = []
  first : p.activeRevisionNumber = 1
  new : r.New env p.id 1
  proposals : data.proposals.insert? p = some data'.proposals
  revisions : insertRevision data.revisions r = .ok data'.revisions
  responses : data'.responses = data.responses
  approvals : data'.approvals = data.approvals

/-- **A proposal is revised**: `r`, its active revision, is left closed as `r'`, and
`next` is active. -/
structure Revises (env : Environment) (data data' : ProposalData) (p : ProposalRow)
    (r r' next : Revision) : Prop where
  proposal : p ∈ data.proposals.rows
  active : data.activeRevision p = some r
  same : SameRevision r r'
  approvalId : r'.approvalId = r.approvalId
  path : Relation.ReflTransGen proposalMachine.Edge r.state r'.state
  closed : r'.state ∉ openStates
  notAgreed : r'.state ≠ .agreedForNextStep
  new : next.New env p.id (p.activeRevisionNumber + 1)
  proposals : data'.proposals = data.proposals.put (p.bumped (p.activeRevisionNumber + 1))
  revisions : insertRevision (data.revisions.put r') next = .ok data'.revisions
  responses : ∀ response ∈ data.responses.rows, response ∈ data'.responses.rows
  approvals : ∃ reason now, data'.approvals = invalidateApproval data.approvals r reason now

/-- **The active revision of a proposal is written**, and was open. -/
structure Moves (data data' : ProposalData) (p : ProposalRow) (r r' : Revision) : Prop where
  proposal : p ∈ data.proposals.rows
  active : data.activeRevision p = some r
  same : SameRevision r r'
  wasOpen : r.state ∈ openStates
  path : Relation.ReflTransGen proposalMachine.Edge r.state r'.state
  proposals : data'.proposals = data.proposals.put (p.bumped p.activeRevisionNumber)
  revisions : data'.revisions = data.revisions.put r'

/-- **An action of staff**: a review makes an approval, and to withdraw or expire
ends it. -/
structure Transitions (data data' : ProposalData) (input : TransitionInput) (p : ProposalRow)
    (r r' : Revision) : Prop extends Moves data data' p r r' where
  id : r.id = input.revisionId
  edge : proposalMachine.Edge r.state input.action.target
  state : r'.state = if input.action = .submit then .awaitingResponse else input.action.target
  responses : data'.responses = data.responses
  review : input.action = .review → input.reviewed = true ∧ ∃ approval,
    data.approvals.insert? approval = some data'.approvals ∧ approval.subjectId = r.id ∧
      approval.subjectHash = r.termsHash ∧ r'.approvalId = some approval.id
  submit : input.action = .submit → input.reviewed = true ∧ data'.approvals = data.approvals ∧
    r'.approvalId = r.approvalId
  ending : input.action = .withdraw ∨ input.action = .expire → r'.approvalId = r.approvalId ∧
    ∃ reason now, data'.approvals = invalidateApproval data.approvals r reason now

/-- **A party decides**; all have agreed when the revision is agreed. -/
structure Decides (data data' : ProposalData) (p : ProposalRow) (r r' : Revision) : Prop
    extends Moves data data' p r r' where
  awaited : r.state = .awaitingResponse
  state : r'.state = .awaitingResponse ∨ r'.state = .declined ∨
    r'.state = .agreedForNextStep ∧ allAgreed data'.responses r = true
  approvalId : r'.approvalId = r.approvalId
  responses : ∀ response ∈ data.responses.rows, response ∈ data'.responses.rows
  approvals : data'.approvals = data.approvals

theorem createProposal_eq_ok {input : CreateInput}
    (h : createProposal env input found context data = .ok (value, data')) :
    ∃ p r, Creates env data data' p r := by
  simp only [createProposal, Tx.refuse_bind, Tx.found_bind, Tx.demand_bind] at h
  obtain ⟨-, row, -, -, -, -, -, h⟩ := h
  obtain ⟨offer, -, h⟩ := Tx.bind_eq_ok.mp h
  simp only [Tx.refuse_bind, Tx.demand_bind, Tx.found_bind] at h
  obtain ⟨-, hopen, proposals, hproposals, h⟩ := h
  obtain ⟨terms, -, h⟩ := Tx.bind_eq_ok.mp h
  obtain ⟨revisions, hrevisions, hdone⟩ := Tx.bind_eq_ok.mp h
  obtain ⟨-, rfl⟩ := Prod.mk.inj (Except.ok.inj hdone)
  exact ⟨input.proposal offer found, _, ⟨_, rfl, hopen⟩, rfl, ⟨rfl, rfl, rfl, rfl, rfl⟩,
    hproposals, hrevisions, rfl, rfl⟩

/-! ## Revising -/

/-- **The state a revision is left in** is closed, and reached by the machine. -/
theorem path_supersededState {client : Bool} {now : Instant}
    (hclient : client = true → proposalMachine.Edge r.state .countered) :
    Relation.ReflTransGen proposalMachine.Edge r.state (supersededState client r now) := by
  unfold supersededState
  split_ifs with hc hexpired hopen
  · exact .single (hclient hc)
  · rw [hexpired.2]
    exact .single (by decide)
  · refine .single ?_
    generalize r.state = state at hopen
    revert hopen
    cases state <;> decide
  · exact .refl

theorem supersededState_not_open {client : Bool} {now : Instant} :
    supersededState client r now ∉ openStates := by
  unfold supersededState
  split_ifs with hc hexpired hopen
  · decide
  · decide
  · decide
  · exact hopen

theorem supersededState_ne_agreed {client : Bool} {now : Instant}
    (h : r.state ≠ .agreedForNextStep) :
    supersededState client r now ≠ .agreedForNextStep := by
  unfold supersededState
  split_ifs
  · decide
  · decide
  · decide
  · exact h

theorem same_left (r : Revision) (state : ProposalState) (note : String) (now : Instant) :
    SameRevision r (r.left state note now) := by
  unfold Revision.left
  split_ifs
  · exact .refl r
  · exact ⟨rfl, rfl, rfl, rfl, rfl⟩

theorem state_left (r : Revision) (state : ProposalState) (note : String) (now : Instant) :
    (r.left state note now).state = state := by
  unfold Revision.left
  split_ifs with h
  · exact h.symm
  · rfl

theorem approvalId_left (r : Revision) (state : ProposalState) (note : String) (now : Instant) :
    (r.left state note now).approvalId = r.approvalId := by
  unfold Revision.left
  split_ifs <;> rfl

/-- A client counters a revision that the machine lets be countered. -/
theorem edge_of_counterParties {input : ReviseInput} {partyId : Uuid} {ids : List Uuid}
    (h : counterParties env input found data r partyId = .ok ids) :
    proposalMachine.Edge r.state .countered := by
  obtain ⟨-, -, h⟩ := Tx.bind_eq_ok.mp h
  exact (Tx.allow_bind.mp h).1

theorem mem_counterResponses {input : ReviseInput} {partyId : Uuid}
    {responses : Table (Uuid × Uuid) Response Response.key}
    (h : counterResponses input found context data r partyId = .ok responses) :
    ∀ response ∈ data.responses.rows, response ∈ responses.rows := by
  simp only [counterResponses, Tx.found_bind, Tx.allow_bind] at h
  obtain ⟨_, hinsert, -, hdone⟩ := h
  obtain rfl := Except.ok.inj hdone
  exact fun response hresponse => (Table.mem_insert? hinsert response).mpr (.inr hresponse)

theorem reviseProposal_eq_ok {input : ReviseInput}
    (h : reviseProposal env input found context data = .ok (value, data')) :
    ∃ p r r' next, p.id = input.id ∧ Revises env data data' p r r' next := by
  obtain ⟨⟨p, r, partyId⟩, hproposal, h⟩ := Tx.bind_eq_ok.mp h
  simp only [Tx.demand_bind, Tx.found_bind] at h
  obtain ⟨-, ⟨-, hagreed⟩, interestId, -, -, h⟩ := h
  obtain ⟨ids, hids, h⟩ := Tx.bind_eq_ok.mp h
  obtain ⟨offer, -, h⟩ := Tx.bind_eq_ok.mp h
  obtain ⟨-, h⟩ := Tx.demand_bind.mp h
  obtain ⟨terms, -, h⟩ := Tx.bind_eq_ok.mp h
  obtain ⟨responses, hresponses, h⟩ := Tx.bind_eq_ok.mp h
  obtain ⟨revisions, hrevisions, hdone⟩ := Tx.bind_eq_ok.mp h
  obtain ⟨-, rfl⟩ := Prod.mk.inj (Except.ok.inj hdone)
  obtain ⟨hmem, hid, hactive⟩ := proposalFor_eq_ok hproposal
  have hclient : decide (context.actor.kind = .client) = true →
      proposalMachine.Edge r.state .countered := by
    intro hc
    rw [if_pos hc] at hids
    exact edge_of_counterParties hids
  refine ⟨p, r, _, _, hid, hmem, hactive, same_left r _ _ _, approvalId_left r _ _ _, ?_, ?_, ?_,
    ⟨rfl, rfl, rfl, rfl, rfl⟩, rfl, hrevisions, ?_, ⟨_, _, rfl⟩⟩
  · rw [state_left]
    exact path_supersededState hclient
  · rw [state_left]
    exact supersededState_not_open
  · rw [state_left]
    exact supersededState_ne_agreed hagreed
  · by_cases hc : decide (context.actor.kind = .client) = true
    · rw [if_pos hc] at hresponses
      exact mem_counterResponses hresponses
    · rw [if_neg hc] at hresponses
      obtain rfl := Except.ok.inj hresponses
      exact fun _ hresponse => hresponse

/-! ## Transitions -/

/-- What a review or a submission, or an end, checks and writes. -/
theorem reviewOrSubmit_eq_ok {input : TransitionInput}
    {approvals : Table Uuid TermsApproval TermsApproval.id} {approvalId : Option Uuid}
    (h : reviewOrSubmit env input found context data p r = .ok (approvals, approvalId)) :
    (input.action = .review → input.reviewed = true ∧ ∃ approval,
      data.approvals.insert? approval = some approvals ∧ approval.subjectId = r.id ∧
        approval.subjectHash = r.termsHash ∧ approvalId = some approval.id) ∧
    (input.action = .submit → input.reviewed = true ∧ approvals = data.approvals ∧
      approvalId = r.approvalId) ∧
    (input.action = .withdraw ∨ input.action = .expire → approvalId = r.approvalId ∧
      ∃ reason now, approvals = invalidateApproval data.approvals r reason now) := by
  unfold reviewOrSubmit at h
  cases haction : input.action with
  | review =>
    rw [haction] at h
    obtain ⟨-, -, h⟩ := Tx.bind_eq_ok.mp h
    obtain ⟨hreviewed, h⟩ := Tx.demand_bind.mp h
    obtain ⟨-, -, h⟩ := Tx.bind_eq_ok.mp h
    obtain ⟨_, hinsert, h⟩ := Tx.found_bind.mp h
    obtain ⟨-, hdone⟩ := Tx.demand_bind.mp h
    obtain ⟨rfl, rfl⟩ := Prod.mk.inj (Except.ok.inj hdone)
    exact ⟨fun _ => ⟨hreviewed, _, hinsert, rfl, rfl, rfl⟩, by simp, by simp⟩
  | submit =>
    rw [haction] at h
    obtain ⟨-, -, h⟩ := Tx.bind_eq_ok.mp h
    obtain ⟨hreviewed, h⟩ := Tx.demand_bind.mp h
    obtain ⟨-, -, h⟩ := Tx.bind_eq_ok.mp h
    obtain ⟨-, -, hdone⟩ := Tx.bind_eq_ok.mp h
    obtain ⟨rfl, rfl⟩ := Prod.mk.inj (Except.ok.inj hdone)
    exact ⟨by simp, fun _ => ⟨hreviewed, rfl, rfl⟩, by simp⟩
  | withdraw =>
    rw [haction] at h
    obtain ⟨rfl, rfl⟩ := Prod.mk.inj (Except.ok.inj h)
    exact ⟨by simp, by simp, fun _ => ⟨rfl, _, _, rfl⟩⟩
  | expire =>
    rw [haction] at h
    obtain ⟨rfl, rfl⟩ := Prod.mk.inj (Except.ok.inj h)
    exact ⟨by simp, by simp, fun _ => ⟨rfl, _, _, rfl⟩⟩

theorem open_of_edge {state : ProposalState} {action : TransitionAction}
    (h : proposalMachine.Edge state action.target) : state ∈ openStates := by
  revert h
  cases action <;> cases state <;> decide

/-- **An action takes a path of the machine**: one edge, or two to submit. -/
theorem path_of_edge {state : ProposalState} {action : TransitionAction}
    (h : proposalMachine.Edge state action.target) :
    Relation.ReflTransGen proposalMachine.Edge state
      (if action = .submit then .awaitingResponse else action.target) := by
  split_ifs with hsubmit
  · subst hsubmit
    exact (Relation.ReflTransGen.single h).tail (by decide)
  · exact .single h

theorem transitionProposal_eq_ok {input : TransitionInput}
    (h : transitionProposal env input found context data = .ok (value, data')) :
    ∃ p r r', p.id = input.id ∧ Transitions data data' input p r r' := by
  obtain ⟨⟨p, r, partyId⟩, hproposal, h⟩ := Tx.bind_eq_ok.mp h
  simp only [Tx.demand_bind, Tx.allow_bind] at h
  obtain ⟨-, hrevision, hedge, h⟩ := h
  obtain ⟨⟨approvals, approvalId⟩, happrovals, h⟩ := Tx.bind_eq_ok.mp h
  simp only [Tx.allow_bind] at h
  obtain ⟨-, -, hdone⟩ := h
  obtain ⟨-, rfl⟩ := Prod.mk.inj (Except.ok.inj hdone)
  obtain ⟨hmem, hid, hactive⟩ := proposalFor_eq_ok hproposal
  obtain ⟨hreview, hsubmit, hending⟩ := reviewOrSubmit_eq_ok happrovals
  exact ⟨p, r, r.moved input approvalId (found.now 4), hid, ⟨hmem, hactive,
    ⟨rfl, rfl, rfl, rfl, rfl⟩, open_of_edge hedge, path_of_edge hedge, rfl, rfl⟩, hrevision, hedge,
    rfl, rfl, hreview, hsubmit, hending⟩

/-! ## Decisions -/

theorem awaited_of_edge {state : ProposalState} {input : DecisionInput}
    (h : proposalMachine.Edge state input.state) : state = .awaitingResponse := by
  unfold DecisionInput.state at h
  revert h
  cases input.agrees <;> cases state <;> decide

theorem recordProposalDecision_eq_ok {input : DecisionInput}
    (h : recordProposalDecision env input found context data = .ok (value, data')) :
    ∃ p r r', p.id = input.id ∧ Decides data data' p r r' := by
  obtain ⟨⟨p, r, partyId⟩, hproposal, h⟩ := Tx.bind_eq_ok.mp h
  obtain ⟨-, h⟩ := Tx.demand_bind.mp h
  obtain ⟨-, -, h⟩ := Tx.bind_eq_ok.mp h
  obtain ⟨hedge, h⟩ := Tx.allow_bind.mp h
  obtain ⟨-, -, h⟩ := Tx.bind_eq_ok.mp h
  obtain ⟨-, h⟩ := Tx.demand_bind.mp h
  obtain ⟨-, -, h⟩ := Tx.bind_eq_ok.mp h
  simp only [Tx.refuse_bind, Tx.found_bind, Tx.allow_bind, Tx.demand_bind] at h
  obtain ⟨-, responses, hresponses, -, -, hdone⟩ := h
  obtain ⟨-, rfl⟩ := Prod.mk.inj (Except.ok.inj hdone)
  obtain ⟨hmem, hid, hactive⟩ := proposalFor_eq_ok hproposal
  have hawaited := awaited_of_edge hedge
  refine ⟨p, r, r.decided input (allAgreed responses r) (found.now 3), hid, ⟨hmem, hactive,
    ⟨rfl, rfl, rfl, rfl, rfl⟩, ?_, ?_, rfl, rfl⟩, hawaited, ?_, rfl,
    fun response hresponse => ?_, rfl⟩
  · rw [hawaited]
    decide
  · rw [hawaited]
    unfold Revision.decided
    dsimp only
    split_ifs
    · exact .single (by decide)
    · exact .single (by decide)
    · exact .refl
  · unfold Revision.decided
    dsimp only
    split_ifs with hdecline hagreed
    · exact .inr (.inl rfl)
    · exact .inr (.inr ⟨rfl, hagreed⟩)
    · exact .inl rfl
  · exact (Table.mem_insert? hresponses response).mpr (.inr hresponse)

end Proposals
