import MsRealty.Proposal

/-!
# The commands on proposals

The four commands of the proposals (`src/server/proposals/service.ts`), in their
transactions: creating one, revising its terms, the transitions staff makes, and
the decisions of its parties.
-/

namespace Proposals

/-! ## Creating -/

structure CreateInput extends Envelope, TermInput where
  interestId : Uuid
  clientPartyId : Uuid
  additionalPartyIds : Option (List Uuid)

/-- The input of `createProposal` as its schema leaves it. -/
def CreateInput.parse (env : Environment) (raw : CreateInput) : Option CreateInput :=
  if raw.toEnvelope.isValid env && env.isUuid raw.interestId && env.isUuid raw.clientPartyId
      && additionalValid env raw.additionalPartyIds then
    (raw.toTermInput.parse env).map (fun terms => { raw with toTermInput := terms })
  else none

/-- The proposal of an offer. -/
def CreateInput.proposal (input : CreateInput) (offer : Offer) (found : Findings) :
    ProposalRow where
  id := found.proposalId
  reference := found.reference
  caseId := input.id
  interestId := some offer.source.interestId
  listingId := offer.source.listingId
  activeRevisionNumber := 1
  version := 1

/-- **The proposals of an interest that are open**: their active revision is. -/
def ProposalData.openFor (data : ProposalData) (caseId interestId : Uuid) : List ProposalRow :=
  data.proposals.rows.filter (fun p => p.caseId = caseId && p.interestId = some interestId
    && (data.activeRevision p).any (fun r => r.state ∈ openStates))

/-- **`createProposal`**, in its transaction. -/
def createProposal (env : Environment) (input : CreateInput) (found : Findings)
    (context : OperationContext) (data : ProposalData) : Tx (JsonValue × ProposalData) := do
  Tx.refuse (found.access input.id)
  let row ← Tx.found (data.cases.get? input.id) (Tx.ofCode .notFound)
  Tx.demand (context.actor.kind = .staff) (Tx.ofCode .forbidden)
  Tx.refuse found.fresh
  Tx.demand (row.version = input.expectedVersion) (Tx.versionConflict row.version)
  Tx.demand (row.active = true) (Tx.ofCode .transitionDenied)
  let offer ← offerContext found input.id input.interestId input.clientPartyId
    (input.additionalPartyIds.getD [])
  Tx.refuse (found.listingRead offer.source.listingId)
  Tx.demand (data.openFor input.id offer.source.interestId = []) (Tx.ofCode .transitionDenied)
  let proposal := input.proposal offer found
  let proposals ← Tx.found (data.proposals.insert? proposal) .other
  let terms ← termsOf env input.toTermInput offer (found.now 0)
  let revisions ← insertRevision data.revisions
    (newRevision env found.revisionId proposal.id 1 none terms)
  .ok (result proposal 1 (found.now 1),
    { data with
      cases := data.cases.put { row with version := row.version + 1 }
      proposals := proposals
      revisions := revisions })

/-! ## Revising -/

structure ReviseInput extends Envelope, TermInput where
  revisionId : Uuid
  clientPartyId : Uuid
  additionalPartyIds : Option (List Uuid)
  reason : String

/-- The input of `reviseProposal` as its schema leaves it. -/
def ReviseInput.parse (env : Environment) (raw : ReviseInput) : Option ReviseInput :=
  if raw.toEnvelope.isValid env && env.isUuid raw.revisionId && env.isUuid raw.clientPartyId
      && additionalValid env raw.additionalPartyIds && Tx.textWithin 3 1500 (env.trim raw.reason)
  then (raw.toTermInput.parse env).map (fun terms =>
    { raw with toTermInput := terms, reason := env.trim raw.reason })
  else none

/-- What a client must satisfy to counter; the additional buyers are those of
the revision that is countered. -/
def counterParties (env : Environment) (input : ReviseInput) (found : Findings)
    (data : ProposalData) (revision : Revision) (partyId : Uuid) : Tx (List Uuid) := do
  currentRevision env revision input.revisionId (found.now 0)
  Tx.allow (proposalMachine.check revision.state .countered) denied
  validProposalApproval env data revision (found.now 1)
  Tx.demand (snapshotValid env.isUuid revision.terms.parties = true) .other
  let (buyer, additional) ← Tx.found ((buyersOf revision.terms.parties).filter
    (fun p => input.clientPartyId = p.fst.partyId)) (Tx.ofCode .forbidden)
  let prior := sortIds additional
  Tx.demand (input.additionalPartyIds.all (fun ids =>
      env.hash (.arr ((sortIds (ids.filter (fun id => id ≠ buyer.partyId))).map .str)) =
        env.hash (.arr (prior.map .str))) = true) (Tx.ofCode .forbidden)
  Tx.demand (data.responses.get? (revision.id, partyId) = none) (Tx.ofCode .transitionDenied)
  .ok prior

/-- The response of a client that counters. -/
def counterResponse (input : ReviseInput) (found : Findings) (context : OperationContext)
    (revision : Revision) (partyId : Uuid) : Response where
  id := found.responseId
  revisionId := revision.id
  partyId := partyId
  actor := ⟨.client, context.actor.id⟩
  decision := .counter
  reason := input.reason
  termsHash := revision.termsHash
  operationId := context.operationId

/-- **The state a revision is left in** by the next one. -/
def supersededState (client : Bool) (revision : Revision) (now : Instant) : ProposalState :=
  if client then .countered
  else if revision.terms.deadlineAt ≤ now ∧ revision.state = .awaitingResponse then .expired
  else if revision.state ∈ openStates then .withdrawn
  else revision.state

/-- The revision that is left; it is written if its state changes. -/
def Revision.left (revision : Revision) (state : ProposalState) (note : String) (now : Instant) :
    Revision :=
  if state = revision.state then revision
  else { revision with
    state := state
    responseNote := some note
    respondedAt := some now
    version := revision.version + 1 }

/-- The responses with that of a client that counters. -/
def counterResponses (input : ReviseInput) (found : Findings) (context : OperationContext)
    (data : ProposalData) (revision : Revision) (partyId : Uuid) :
    Tx (Table (Uuid × Uuid) Response Response.key) := do
  let responses ← Tx.found (data.responses.insert?
    (counterResponse input found context revision partyId)) .other
  Tx.allow (guardProposalTransition revision.state .countered
    { currentContent := none
      approvedContent := none
      superseded := false
      deadlineAt := some revision.terms.deadlineAt
      now := some (found.now 3)
      responseRecordId := some found.responseId
      reason := none } context.actor) denied
  .ok responses

/-- **`reviseProposal`**, in its transaction. -/
def reviseProposal (env : Environment) (input : ReviseInput) (found : Findings)
    (context : OperationContext) (data : ProposalData) : Tx (JsonValue × ProposalData) := do
  let (proposal, revision, partyId) ←
    proposalFor env found context.actor data input.id (some input.revisionId)
  Tx.demand (proposal.version = input.expectedVersion) (Tx.versionConflict proposal.version)
  Tx.demand (revision.id = input.revisionId ∧ revision.state ≠ .agreedForNextStep)
    (Tx.ofCode .versionConflict)
  let interestId ← Tx.found proposal.interestId (Tx.ofCode .transitionDenied)
  Tx.demand (env.termsDigest revision.terms = revision.termsHash) (Tx.ofCode .approvalStale)
  let client := decide (context.actor.kind = .client)
  let additionalPartyIds ← (if client then counterParties env input found data revision partyId
    else .ok (input.additionalPartyIds.getD []))
  let offer ← offerContext found proposal.caseId interestId input.clientPartyId additionalPartyIds
  Tx.demand (client = true →
      env.hash (partiesJson offer.snapshot) = env.hash (partiesJson revision.terms.parties))
    (Tx.ofCode .approvalStale)
  let terms ← termsOf env input.toTermInput offer (found.now 2)
  let responses ← (if client then counterResponses input found context data revision partyId
    else .ok data.responses)
  let left := revision.left (supersededState client revision (found.now 4)) input.reason
    (found.now 5)
  let number := proposal.activeRevisionNumber + 1
  let revisions ← insertRevision (data.revisions.put left)
    (newRevision env found.revisionId proposal.id number (some revision.id) terms)
  .ok (result proposal (proposal.version + 1) (found.now 7),
    { data with
      proposals := data.proposals.put (proposal.bumped number)
      revisions := revisions
      responses := responses
      approvals := invalidateApproval data.approvals revision
        "Superseded by a new exact-terms revision" (found.now 6) })

/-! ## Transitions -/

/-- What staff does with a revision. -/
inductive TransitionAction where
  | review
  | submit
  | withdraw
  | expire
  deriving DecidableEq

/-- The state an action asks for. -/
def TransitionAction.target : TransitionAction → ProposalState
  | .review => .reviewed
  | .submit => .submitted
  | .withdraw => .withdrawn
  | .expire => .expired

structure TransitionInput extends Envelope where
  revisionId : Uuid
  action : TransitionAction
  reviewed : Bool
  reason : String

/-- The input of `transitionProposal` as its schema leaves it. -/
def TransitionInput.parse (env : Environment) (raw : TransitionInput) : Option TransitionInput :=
  let input : TransitionInput := { raw with reason := env.trim raw.reason }
  if input.toEnvelope.isValid env && env.isUuid input.revisionId
      && Tx.textWithin 0 1500 input.reason then some input
  else none

/-- The approval of a revision that was reviewed. -/
def termsApproval (input : TransitionInput) (found : Findings) (context : OperationContext)
    (revision : Revision) : TermsApproval where
  id := found.approvalId
  subjectId := revision.id
  subjectVersion := revision.revisionNumber
  subjectHash := revision.termsHash
  partyIds := revision.terms.parties.map ProposalParty.partyId
  decidedBy := ⟨.staff, context.actor.id⟩
  decidedAt := found.now 1
  decisionNote :=
    if input.reason = "" then "Human reviewed the exact proposal terms" else input.reason
  expiresAt := some revision.terms.deadlineAt
  invalidated := none
  version := 1

/-- What an action checks and approves: the approvals, and that of the revision. -/
def reviewOrSubmit (env : Environment) (input : TransitionInput) (found : Findings)
    (context : OperationContext) (data : ProposalData) (proposal : ProposalRow)
    (revision : Revision) : Tx (Table Uuid TermsApproval TermsApproval.id × Option Uuid) := do
  match input.action with
  | .review =>
    currentRevision env revision input.revisionId (found.now 0)
    Tx.demand (input.reviewed = true)
      (Tx.fieldError .validationFailed "reviewed" "exact_terms_review_required")
    validProposalSource env found proposal revision
    let approval := termsApproval input found context revision
    let approvals ← Tx.found (data.approvals.insert? approval) .other
    Tx.demand (snapshotValid env.isUuid revision.terms.parties = true) .other
    .ok (approvals, some approval.id)
  | .submit =>
    currentRevision env revision input.revisionId (found.now 0)
    Tx.demand (input.reviewed = true)
      (Tx.fieldError .validationFailed "reviewed" "exact_audience_review_required")
    validProposalApproval env data revision (found.now 1)
    validProposalSource env found proposal revision
    .ok (data.approvals, revision.approvalId)
  | .withdraw =>
    .ok (invalidateApproval data.approvals revision input.reason (found.now 3),
      revision.approvalId)
  | .expire =>
    .ok (invalidateApproval data.approvals revision "Proposal deadline passed" (found.now 3),
      revision.approvalId)

/-- The revision an action leaves: one that is submitted awaits its parties. -/
def Revision.moved (revision : Revision) (input : TransitionInput) (approvalId : Option Uuid)
    (now : Instant) : Revision :=
  { revision with
    state := if input.action = .submit then .awaitingResponse else input.action.target
    approvalId := approvalId
    submittedAt := if input.action = .submit then some now else revision.submittedAt
    responseNote := if input.action = .withdraw then some input.reason else revision.responseNote
    version := revision.version + 1 }

/-- The evidence of an action. -/
def actionEvidence (env : Environment) (input : TransitionInput) (revision : Revision)
    (now : Instant) : ProposalEvidence where
  currentContent := some (env.termsDigest revision.terms)
  approvedContent := if input.action = .submit then some revision.termsHash else none
  superseded := false
  deadlineAt := some revision.terms.deadlineAt
  now := some now
  responseRecordId := none
  reason := some input.reason

/-- **`transitionProposal`**, in its transaction. -/
def transitionProposal (env : Environment) (input : TransitionInput) (found : Findings)
    (context : OperationContext) (data : ProposalData) : Tx (JsonValue × ProposalData) := do
  let (proposal, revision, _) ← proposalFor env found context.actor data input.id none
  Tx.demand (proposal.version = input.expectedVersion) (Tx.versionConflict proposal.version)
  Tx.demand (revision.id = input.revisionId) (Tx.ofCode .versionConflict)
  Tx.allow (proposalMachine.check revision.state input.action.target) denied
  let (approvals, approvalId) ← reviewOrSubmit env input found context data proposal revision
  Tx.allow (guardProposalTransition revision.state input.action.target
    (actionEvidence env input revision (found.now 2)) context.actor) denied
  Tx.allow (if input.action = .submit then proposalMachine.check .submitted .awaitingResponse
    else .allowed) denied
  .ok (result proposal (proposal.version + 1) (found.now 5),
    { data with
      proposals := data.proposals.put (proposal.bumped proposal.activeRevisionNumber)
      revisions := data.revisions.put (revision.moved input approvalId (found.now 4))
      approvals := approvals })

/-! ## Decisions -/

structure DecisionInput extends Envelope where
  revisionId : Uuid
  /-- Whether the party agrees; it declines otherwise. -/
  agrees : Bool
  reason : String

/-- The input of `recordProposalDecision` as its schema leaves it. -/
def DecisionInput.parse (env : Environment) (raw : DecisionInput) : Option DecisionInput :=
  let input : DecisionInput := { raw with reason := env.trim raw.reason }
  if input.toEnvelope.isValid env && env.isUuid input.revisionId
      && Tx.textWithin 3 1500 input.reason then some input
  else none

/-- The state a decision asks for. -/
def DecisionInput.state (input : DecisionInput) : ProposalState :=
  if input.agrees then .agreedForNextStep else .declined

/-- The response of a party that decides. -/
def decisionResponse (input : DecisionInput) (found : Findings) (context : OperationContext)
    (revision : Revision) (partyId : Uuid) : Response where
  id := found.responseId
  revisionId := revision.id
  partyId := partyId
  actor := ⟨.client, context.actor.id⟩
  decision := if input.agrees then .agree else .decline
  reason := input.reason
  termsHash := revision.termsHash
  operationId := context.operationId

/-- **Whether all have agreed**: every required party, with the terms as they
are. -/
def allAgreed (responses : Table (Uuid × Uuid) Response Response.key) (revision : Revision) :
    Bool :=
  (revision.terms.parties.filter ProposalParty.required).all (fun party =>
    responses.rows.any (fun response => response.revisionId = revision.id
      && response.decision = .agree && response.termsHash = revision.termsHash
      && response.partyId = party.partyId))

/-- The revision a decision leaves. -/
def Revision.decided (revision : Revision) (input : DecisionInput) (agreed : Bool)
    (now : Instant) : Revision :=
  { revision with
    state := if !input.agrees then .declined
      else if agreed then .agreedForNextStep
      else .awaitingResponse
    respondedAt := some now
    responseNote := some input.reason
    version := revision.version + 1 }

/-- **`recordProposalDecision`**, in its transaction. -/
def recordProposalDecision (env : Environment) (input : DecisionInput) (found : Findings)
    (context : OperationContext) (data : ProposalData) : Tx (JsonValue × ProposalData) := do
  let (proposal, revision, partyId) ←
    proposalFor env found context.actor data input.id (some input.revisionId)
  Tx.demand (proposal.version = input.expectedVersion) (Tx.versionConflict proposal.version)
  currentRevision env revision input.revisionId (found.now 0)
  Tx.allow (proposalMachine.check revision.state input.state) denied
  validProposalApproval env data revision (found.now 1)
  Tx.demand (data.responses.get? (revision.id, partyId) = none) (Tx.ofCode .transitionDenied)
  (if input.agrees then validProposalSource env found proposal revision else .ok ())
  Tx.refuse (if input.agrees then found.agreementReady proposal.caseId revision.id else none)
  let response := decisionResponse input found context revision partyId
  let responses ← Tx.found (data.responses.insert? response) .other
  Tx.allow (guardProposalTransition revision.state input.state
    { currentContent := none
      approvedContent := none
      superseded := false
      deadlineAt := some revision.terms.deadlineAt
      now := some (found.now 2)
      responseRecordId := some response.id
      reason := none } context.actor) denied
  Tx.demand (snapshotValid env.isUuid revision.terms.parties = true) .other
  .ok (result proposal (proposal.version + 1) (found.now 4),
    { data with
      proposals := data.proposals.put (proposal.bumped proposal.activeRevisionNumber)
      revisions := data.revisions.put
        (revision.decided input (allAgreed responses revision) (found.now 3))
      responses := responses })

end Proposals
