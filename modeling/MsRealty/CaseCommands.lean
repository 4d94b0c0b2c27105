import MsRealty.CaseData

/-!
# Commands on cases, inquiries and tasks

The disposition of a case (`src/server/cases/lifecycle.ts`), new tasks
(`src/server/work/create-task.ts`), the acceptance of an inquiry and the changes of a
task (`src/server/work/commands.ts`), and the handover of a task
(`src/server/work/handover.ts`), each as the statements of its transaction. What a
command checks before its transaction it checks again inside, and the first check is
left out: so there are more runs here, not fewer. Texts of an input are as its schema
leaves them, trimmed.
-/

namespace CaseWork

open RowLocks Tx

/-! ## Outcomes -/

/-- What a new task is a part of, and the version of it that was seen. -/
inductive TaskParent where
  | case_ (id : Uuid) (expectedVersion : ℕ)
  | inquiry (id : Uuid) (expectedVersion : ℕ)
  deriving DecidableEq

/-- **What a call ends with.** -/
inductive Outcome where
  | disposed (caseId : Uuid) (state : CaseDisposition)
  | taskCreated (taskId : Uuid) (parent : Option TaskParent)
  | inquiryAccepted (inquiryId taskId : Uuid)
  | taskChanged (taskId : Uuid) (state : TaskState)
  | taskHandedOver (taskId : Uuid)
  | requested (requestId : Uuid)
  | uploaded (documentId versionId : Uuid)
  | reviewed (versionId : Uuid)
  | requestReviewed (requestId versionId : Uuid) (accepted : Bool)
  | requestCancelled (requestId : Uuid)
  | fileProcessed (versionId : Uuid)
  deriving DecidableEq

/-! ## The disposition of a case -/

/-- **A call of `changeCaseDisposition`.** -/
structure DispositionCall where
  permitted : Bool
  id : Uuid
  expectedVersion : ℕ
  state : CaseDisposition
  reason : String
  waitingOn : String
  reviewAt : Option Instant
  outcome : String
  retention : String
  aftercare : String
  nextAction : String
  dueAt : Option Instant
  /-- Whether the appointments and the proposals of the case are resolved. -/
  othersResolved : Bool
  /-- Whether its owner is an active member of staff. -/
  ownerAccountable : Bool
  now : Instant

/-- What is recorded of a task when its case is closed. -/
def TaskRow.commitmentDisposition (task : TaskRow) : String :=
  task.state.name ++ ": "
    ++ (task.outcomeNote.orElse fun _ => task.cancelReason).getD "Recorded terminal state"

/-- **`assertResolved`**: no open task, under the locks of the tasks there are. It answers
with what is recorded of each. -/
def assertResolved (caseId : Uuid) (othersResolved : Bool) : Statements (List (Uuid × String)) := do
  let d ← reading
  let _ ← lockingAll Row.task (fun _ _ => true)
    ((d.tasks.rows.filter (fun task => task.caseId = some caseId)).map TaskRow.id)
  let d ← reading
  Prog.demand (d.openTasks caseId = [] ∧ othersResolved = true)
  let d ← reading
  pure ((d.tasks.rows.filter (fun task => task.caseId = some caseId)).map
    (fun task => (task.id, task.commitmentDisposition)))

/-- The evidence of a call. -/
def DispositionCall.evidence (call : DispositionCall) (resolved : List (Uuid × String)) :
    DispositionEvidence where
  reason := some call.reason
  waitingOn := some call.waitingOn
  reviewAt := call.reviewAt
  outcome := some call.outcome
  openCommitmentIds := some []
  commitmentDispositions := resolved

/-- What a state needs of the case and of the call. -/
def DispositionCall.admits (call : DispositionCall) (row : CaseRow) : Bool :=
  match call.state with
  | .closed => row.pendingOwnerId.isNone && call.retention ≠ "" && call.aftercare ≠ ""
  | .paused => call.reviewAt.any (fun reviewAt => call.now < reviewAt)
  | .active => row.ownerId.isSome && textWithin 3 500 call.nextAction
      && call.dueAt.any (fun dueAt => call.now < dueAt) && call.ownerAccountable

/-- What is written to the case. -/
def DispositionCall.patch (call : DispositionCall) (resolved : List (Uuid × String))
    (row : CaseRow) : CaseRow :=
  let row := { row with disposition := call.state, dispositionReason := some call.reason }
  match call.state with
  | .closed =>
    { row with closureOutcome := some call.outcome, commitmentDispositions := some resolved }
  | .paused => { row with waitingOn := some call.waitingOn, reviewAt := call.reviewAt }
  | .active => { row with
      nextAction := some call.nextAction
      nextActionDueAt := call.dueAt
      waitingOn := none
      reviewAt := none }

/-- **`changeCaseDisposition`.** -/
def changeCaseDisposition (call : DispositionCall) : Statements Outcome := do
  Prog.demand (call.permitted = true ∧ textWithin 3 2000 call.reason = true)
  let row ← lockRow cases call.id
  Prog.demand (row.version = call.expectedVersion)
  Prog.demand (dispositionMachine.check row.disposition call.state = .allowed)
  let resolved ←
    if call.state = .closed then assertResolved call.id call.othersResolved else pure []
  Prog.demand
    (guardDisposition row.disposition call.state (call.evidence resolved) .staff = .allowed)
  Prog.demand (call.admits row = true)
  bumpCase call.id row.version (call.patch resolved)
  pure (.disposed call.id call.state)

/-! ## New tasks -/

/-- A task as the defaults of its columns leave it. -/
def TaskRow.new (id : Uuid) (title : String) (type : TaskType) (ownerId : Option Uuid)
    (caseId inquiryId : Option Uuid) : TaskRow where
  id := id
  version := 1
  title := title
  purpose := none
  type := type
  state := .open_
  ownerId := ownerId
  pendingOwnerId := none
  dueAt := none
  dueTimezone := none
  dependsOnTaskId := none
  waitingOn := none
  followUpAt := none
  evidenceRequired := false
  outcomeNote := none
  completedAt := none
  completedById := none
  cancelReason := none
  caseId := caseId
  inquiryId := inquiryId

/-- An inquiry of the next version. -/
def InquiryRow.bumped (change : InquiryRow → InquiryRow) (row : InquiryRow) : InquiryRow :=
  { change row with id := row.id, version := row.version + 1 }

/-- A change of an inquiry of a version. -/
def bumpInquiry (id : Uuid) (expectedVersion : ℕ) (change : InquiryRow → InquiryRow) :
    Statements Unit := do
  let row ← lockRow inquiries id
  Prog.demand (row.version = expectedVersion)
  updateRow inquiries id ⟨InquiryRow.bumped change, fun _ => rfl⟩

/-- **A call of `createTask`.** -/
structure CreateTaskCall where
  permitted : Bool
  actorId : Uuid
  parent : Option TaskParent
  title : String
  purpose : String
  type : TaskType
  taskId : Uuid

/-- The task of a call. -/
def CreateTaskCall.task (call : CreateTaskCall) (caseId inquiryId : Option Uuid) : TaskRow :=
  { TaskRow.new call.taskId call.title call.type (some call.actorId) caseId inquiryId with
    purpose := some call.purpose }

/-- The case of an inquiry is read, if it has one. -/
def readLinkedCase : Option Uuid → Statements Unit
  | none => pure ()
  | some caseId => do
    let _ ← readRow cases caseId
    pure ()

/-- **A task under its parent**: a case must be active; of the case of an inquiry nothing
is asked. -/
def createUnder (call : CreateTaskCall) : Option TaskParent → Statements Unit
  | none => insertTask (call.task none none)
  | some (.case_ id expectedVersion) => do
    let row ← lockRow cases id
    Prog.demand (row.version = expectedVersion)
    Prog.demand (row.disposition = .active)
    insertTask (call.task (some row.id) none)
    bumpCase id expectedVersion (fun row => row)
  | some (.inquiry id expectedVersion) => do
    let row ← lockRow inquiries id
    readLinkedCase row.caseId
    Prog.demand (row.version = expectedVersion)
    insertTask (call.task row.caseId (some row.id))
    bumpInquiry id expectedVersion (fun row => row)

/-- **`createTask`.** -/
def createTask (call : CreateTaskCall) : Statements Outcome := do
  Prog.demand (call.permitted = true ∧ textWithin 3 180 call.title = true
    ∧ textWithin 3 6000 call.purpose = true)
  createUnder call call.parent
  pure (.taskCreated call.taskId call.parent)

/-- **A call of `acceptInquiry`.** -/
structure AcceptCall where
  permitted : Bool
  actorId : Uuid
  id : Uuid
  expectedVersion : ℕ
  nextAction : String
  dueAt : Instant
  taskId : Uuid
  now : Instant

/-- The first follow-up. -/
def AcceptCall.task (call : AcceptCall) (row : InquiryRow) : TaskRow :=
  { TaskRow.new call.taskId call.nextAction .followUp (some call.actorId) row.caseId
      (some row.id) with
    dueAt := some call.dueAt
    dueTimezone := some "Europe/Sofia" }

/-- **`acceptInquiry`**: one that is assigned to someone else is taken over. -/
def acceptInquiry (call : AcceptCall) : Statements Outcome := do
  Prog.demand (call.permitted = true ∧ textWithin 3 500 call.nextAction = true)
  let row ← lockRow inquiries call.id
  Prog.demand (row.version = call.expectedVersion)
  Prog.demand (row.state ≠ .assigned ∨ row.ownerId = some call.actorId →
    inquiryMachine.check row.state .assigned = .allowed)
  Prog.demand (guardInquiryAssigned (some call.actorId) none = .allowed)
  Prog.demand (call.now < call.dueAt)
  insertTask (call.task row)
  bumpInquiry call.id call.expectedVersion (fun row => { row with
    state := .assigned
    ownerId := some call.actorId
    coverageQueue := none
    followUpAt := some call.dueAt })
  pure (.inquiryAccepted call.id call.taskId)

/-! ## Changes of a task -/

/-- **A call of `changeTask`.** -/
structure TaskCall where
  permitted : Bool
  actorId : Uuid
  id : Uuid
  expectedVersion : ℕ
  state : TaskState
  note : String
  followUpAt : Option Instant
  checkedAt : Instant
  now : Instant

/-- The evidence of a call. -/
def TaskCall.evidence (call : TaskCall) (row : TaskRow) : TaskEvidence where
  waitingOn := some call.note
  followUpAt := call.followUpAt
  outcomeNote := some call.note
  evidenceIds := none
  evidenceRequired := row.evidenceRequired
  reason := some call.note

/-- A task after a change: the review of a handover survives while it is open. -/
def TaskRow.changed (call : TaskCall) (found row : TaskRow) : TaskRow :=
  { row with
    state := call.state
    waitingOn := if call.state = .waiting then some call.note else none
    followUpAt := if call.state = .waiting then call.followUpAt
      else if call.state.isOpen then found.followUpAt else none
    outcomeNote := if call.state = .done then some call.note else row.outcomeNote
    completedAt := if call.state = .done then some call.now else row.completedAt
    completedById := if call.state = .done then some call.actorId else row.completedById
    cancelReason := if call.state = .cancelled then some call.note else row.cancelReason
    version := row.version + 1 }

/-- What a task depends on is done. -/
def demandDependency : Option Uuid → Statements Unit
  | none => pure ()
  | some id => do
    let dependency ← readRow tasks id
    Prog.demand (dependency.state = .done)

/-- **`changeTask`.** -/
def changeTask (call : TaskCall) : Statements Outcome := do
  Prog.demand (call.permitted = true ∧ call.state ≠ .open_ ∧ textWithin 0 1500 call.note = true)
  let row ← lockRow tasks call.id
  Prog.demand (row.version = call.expectedVersion)
  Prog.demand (taskMachine.check row.state call.state = .allowed)
  Prog.demand ¬(call.state = .done ∧ (row.evidenceRequired = true ∨ row.type ∈ highImpactTaskTypes))
  demandDependency (if call.state = .done then row.dependsOnTaskId else none)
  Prog.demand (guardTaskTransition row.state call.state (call.evidence row) = .allowed)
  Prog.demand (call.state = .waiting →
    call.followUpAt.any (fun followUpAt => call.checkedAt < followUpAt) = true)
  updateRow tasks call.id ⟨TaskRow.changed call row, fun _ => rfl⟩
  pure (.taskChanged call.id call.state)

/-! ## Handover -/

/-- What is asked about a handover. -/
inductive HandoverAction where
  | request (reason : String)
  | accept (nextAction : String) (dueAt : Instant)
  | decline (reason : String)
  | cancel (reason : String)

/-- **A call of `handoverTask`.** -/
structure HandoverCall where
  permitted : Bool
  actorId : Uuid
  id : Uuid
  expectedVersion : ℕ
  receiverId : Uuid
  action : HandoverAction
  /-- `receiverEligible`. -/
  eligible : Bool
  /-- Whether the latest event of the handover is a request of this actor. -/
  requestedByActor : Bool
  now : Instant

/-- The texts of a call. -/
def HandoverCall.wellFormed (call : HandoverCall) : Bool :=
  match call.action with
  | .accept nextAction _ => textWithin 3 500 nextAction
  | .request reason => textWithin 10 2000 reason
  | .decline reason => textWithin 10 2000 reason
  | .cancel reason => textWithin 10 2000 reason

/-- What an action needs of the task. -/
def HandoverCall.admits (call : HandoverCall) (row : TaskRow) : Bool :=
  match call.action with
  | .request _ => row.pendingOwnerId.isNone && row.ownerId ≠ some call.receiverId && call.eligible
  | .accept _ dueAt => row.pendingOwnerId = some call.receiverId && call.actorId = call.receiverId
      && call.eligible && call.now < dueAt
      && row.dueAt.all (fun deadline => !(call.now < deadline) || dueAt ≤ deadline)
  | .decline _ => row.pendingOwnerId = some call.receiverId && call.actorId = call.receiverId
  | .cancel _ => row.pendingOwnerId = some call.receiverId && call.requestedByActor

/-- A task after a step of its handover. -/
def TaskRow.handedOver (call : HandoverCall) (row : TaskRow) : TaskRow :=
  match call.action with
  | .request _ => { row with pendingOwnerId := some call.receiverId, version := row.version + 1 }
  | .accept nextAction dueAt => { row with
      ownerId := some call.receiverId
      title := nextAction
      followUpAt := some dueAt
      pendingOwnerId := none
      version := row.version + 1 }
  | .decline _ => { row with pendingOwnerId := none, version := row.version + 1 }
  | .cancel _ => { row with pendingOwnerId := none, version := row.version + 1 }

theorem TaskRow.handedOver_id (call : HandoverCall) (row : TaskRow) :
    (row.handedOver call).id = row.id := by
  unfold TaskRow.handedOver
  split <;> rfl

/-- **`handoverTask`.** -/
def handoverTask (call : HandoverCall) : Statements Outcome := do
  Prog.demand (call.permitted = true ∧ call.wellFormed = true)
  let row ← lockRow tasks call.id
  Prog.demand (row.version = call.expectedVersion)
  Prog.demand (row.state.isOpen = true)
  Prog.demand (call.admits row = true)
  updateRow tasks call.id ⟨TaskRow.handedOver call, TaskRow.handedOver_id call⟩
  pure (.taskHandedOver call.id)

end CaseWork
