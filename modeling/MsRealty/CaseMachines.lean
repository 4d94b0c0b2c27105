import MsRealty.SearchInput
import MsRealty.StateMachine

/-!
# The machines of a case

The state machines of tasks (`src/domain/task.ts`), of the disposition of a case
(`src/domain/case.ts`), of inquiries (`src/domain/inquiry.ts`) and of the versions of a
document (`src/domain/document.ts`), with the guards their commands ask.
-/

namespace CaseWork

/-- A text in the sense of a JavaScript condition: present, and not empty. -/
def truthy (text : Option String) : Bool := text.any (fun s => s ≠ "")

/-! ## Tasks -/

/-- `taskStates`. -/
inductive TaskState where
  | open_
  | inProgress
  | waiting
  | done
  | cancelled
  deriving DecidableEq

/-- The name of a state of a task in the database. -/
def TaskState.name : TaskState → String
  | .open_ => "open"
  | .inProgress => "in_progress"
  | .waiting => "waiting"
  | .done => "done"
  | .cancelled => "cancelled"

/-- `taskTypes`. -/
inductive TaskType where
  | general
  | followUp
  | call
  | factVerification
  | documentRequest
  | viewingCoordination
  | correction
  | publishing
  | communication
  | accessGrant
  | approval
  deriving DecidableEq

/-- `highImpactTaskTypes`: what no generic completion may complete. -/
def highImpactTaskTypes : List TaskType := [.publishing, .communication, .accessGrant, .approval]

/-- **`taskMachine`**: done and cancelled are final. -/
def taskMachine : Machine TaskState where
  states := [.open_, .inProgress, .waiting, .done, .cancelled]
  transitions
    | .open_ => [.inProgress, .waiting, .done, .cancelled]
    | .inProgress => [.open_, .waiting, .done, .cancelled]
    | .waiting => [.inProgress, .done, .cancelled]
    | .done => []
    | .cancelled => []

/-- `openTaskStates`. -/
def openTaskStates : List TaskState := [.open_, .inProgress, .waiting]

/-- What a task is changed with. -/
structure TaskEvidence where
  waitingOn : Option String
  followUpAt : Option Instant
  outcomeNote : Option String
  evidenceIds : Option (List Uuid)
  evidenceRequired : Bool
  reason : Option String

/-- **`guardTaskTransition`**: what a task needs to come into a state. -/
def guardTaskTransition (_source target : TaskState) (evidence : TaskEvidence) : Decision :=
  match target with
  | .waiting => Decision.firstDenial [
      .need (truthy evidence.waitingOn) "dependency_required",
      .need evidence.followUpAt.isSome "follow_up_required"]
  | .done => Decision.firstDenial [
      .need (truthy evidence.outcomeNote) "outcome_required",
      if evidence.evidenceRequired then
        .need (evidence.evidenceIds.any (fun ids => !ids.isEmpty)) "evidence_required"
      else .allowed]
  | .cancelled => .need (truthy evidence.reason) "reason_required"
  | _ => .allowed

/-- Whether a task is open work. -/
def TaskState.isOpen (state : TaskState) : Bool := state ∈ openTaskStates

/-- **What is open is not final**, and nothing else is. -/
theorem isTerminal_taskMachine (state : TaskState) :
    taskMachine.isTerminal state = !state.isOpen := by
  cases state <;> decide

/-- No edge opens a task again. -/
theorem isOpen_of_edge {source target : TaskState} (h : taskMachine.Edge source target) :
    source.isOpen = true := by
  by_contra hclosed
  refine Machine.not_edge_of_isTerminal ?_ h
  rw [isTerminal_taskMachine, Bool.eq_false_iff.mpr hclosed]
  rfl

/-! ## The disposition of a case -/

/-- `caseDispositions`. -/
inductive CaseDisposition where
  | active
  | paused
  | closed
  deriving DecidableEq

/-- **`dispositionMachine`**: a closed case may be opened again. -/
def dispositionMachine : Machine CaseDisposition where
  states := [.active, .paused, .closed]
  transitions
    | .active => [.paused, .closed]
    | .paused => [.active, .closed]
    | .closed => [.active]

/-- What a disposition is changed with. -/
structure DispositionEvidence where
  reason : Option String
  waitingOn : Option String
  reviewAt : Option Instant
  outcome : Option String
  openCommitmentIds : Option (List Uuid)
  commitmentDispositions : List (Uuid × String)

/-- **`guardDisposition`.** -/
def guardDisposition (source target : CaseDisposition) (evidence : DispositionEvidence)
    (actor : ActorKind) : Decision :=
  match target with
  | .paused => Decision.firstDenial [
      .need (truthy evidence.reason) "reason_required",
      .need (truthy evidence.waitingOn) "dependency_required",
      .need evidence.reviewAt.isSome "review_date_required"]
  | .closed =>
    match evidence.openCommitmentIds with
    | none => .denied "obligations_not_reviewed"
    | some ids => Decision.firstDenial [
        .need (actor = .staff) "human_required",
        .need (truthy evidence.outcome) "outcome_required",
        if ids.all (fun id => truthy ((evidence.commitmentDispositions.lookup id).map Search.trim))
        then .allowed
        else .denied "commitment_disposition_required"]
  | .active =>
    if source = .closed then .need (truthy evidence.reason) "reason_required" else .allowed

/-! ## Inquiries -/

/-- `inquiryStates`. -/
inductive InquiryState where
  | received
  | assigned
  | awaitingClient
  | linkedToCase
  | resolvedWithoutCase
  | suspectedSpam
  | duplicateCandidate
  | contactUnreachable
  deriving DecidableEq

/-- **`inquiryMachine`.** -/
def inquiryMachine : Machine InquiryState where
  states := [.received, .assigned, .awaitingClient, .linkedToCase, .resolvedWithoutCase,
    .suspectedSpam, .duplicateCandidate, .contactUnreachable]
  transitions
    | .received => [.assigned, .suspectedSpam, .duplicateCandidate]
    | .assigned => [.awaitingClient, .linkedToCase, .resolvedWithoutCase, .suspectedSpam,
        .duplicateCandidate, .contactUnreachable]
    | .awaitingClient => [.assigned, .linkedToCase, .resolvedWithoutCase, .contactUnreachable]
    | .suspectedSpam => [.assigned, .resolvedWithoutCase]
    | .duplicateCandidate => [.assigned, .linkedToCase, .resolvedWithoutCase]
    | .contactUnreachable => [.assigned, .resolvedWithoutCase]
    | .linkedToCase => []
    | .resolvedWithoutCase => []

/-- `guardInquiryTransition`, into the state assigned. -/
def guardInquiryAssigned (ownerId coverageQueue : Option String) : Decision :=
  .need (truthy ownerId || truthy coverageQueue) "owner_required"

/-! ## Versions of a document -/

/-- `documentStates`. -/
inductive DocumentState where
  | selected
  | uploading
  | uploaded
  | sealed
  | scanning
  | readyForReview
  | reviewed
  | rejected
  | needsReplacement
  | expired
  | superseded
  deriving DecidableEq

/-- **`documentMachine`**: superseded is final. -/
def documentMachine : Machine DocumentState where
  states := [.selected, .uploading, .uploaded, .sealed, .scanning, .readyForReview, .reviewed,
    .rejected, .needsReplacement, .expired, .superseded]
  transitions
    | .selected => [.uploading]
    | .uploading => [.uploaded, .selected]
    | .uploaded => [.sealed, .rejected]
    | .sealed => [.scanning]
    | .scanning => [.readyForReview, .rejected]
    | .readyForReview => [.reviewed, .rejected, .needsReplacement]
    | .reviewed => [.needsReplacement, .expired, .superseded]
    | .needsReplacement => [.superseded]
    | .rejected => [.superseded]
    | .expired => [.superseded]
    | .superseded => []

/-- `documentReviewTypes`. -/
inductive DocumentReviewType where
  | acceptedForPurpose
  | needsReplacement
  | reviewedWithOpenQuestions
  deriving DecidableEq

/-- The states of a scan. -/
inductive ScanState where
  | pending
  | clean
  | infected
  | failed
  deriving DecidableEq

/-- **`isDocumentExposable`**: only scanned content that is clean. -/
def isDocumentExposable (state : DocumentState) (scan : ScanState) : Bool :=
  scan = .clean && (state = .readyForReview || state = .reviewed)

theorem not_exposable_superseded (scan : ScanState) :
    isDocumentExposable .superseded scan = false := by
  cases scan <;> rfl

/-- **What has an edge to superseded.** -/
theorem edge_superseded_iff {state : DocumentState} :
    documentMachine.Edge state .superseded
      ↔ state ∈ [.reviewed, .needsReplacement, .rejected, .expired] := by
  cases state <;> decide

end CaseWork
