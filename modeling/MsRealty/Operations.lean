import Mathlib.Data.List.Nodup
import MsRealty.Errors
import MsRealty.Runs

/-!
# Operations: one outcome per idempotency key

A consequential command runs at most once per actor, type and idempotency
key (`src/server/operations.ts`, `src/domain/operation-receipt.ts`). The
first call executes in a transaction that also stores its outcome; an
identical retry gets the stored outcome back; the same key with another
request hash is a conflict; an effect whose result is unknown is parked for
reconciliation instead of being run again.

A transaction is a function from the database to the database and an answer;
one that throws leaves the database it met. The effect of a command runs in a
savepoint, so what it wrote is either all kept or all undone. The advisory
lock is tried, not awaited: whether a call got it is part of the event.

`data` is everything the effect functions read and write. `V` is the type of
the values they return and throw, and `serialise` is `JSON.stringify`
followed by `JSON.parse` on them: `none` where that throws.
-/

/-- The stored statuses of an operation. -/
inductive OperationStatus where
  | accepted
  | inProgress
  | succeeded
  | failed
  | outcomeUnknown
  deriving DecidableEq

/-- What the replay decision reads of a stored receipt. -/
structure OperationReceipt where
  /-- The key the command was sent under. -/
  idempotencyKey : String
  /-- The command name. -/
  operationType : String
  /-- Hash of the canonical request body the key was first used with. -/
  requestHash : String
  /-- The stored status. -/
  status : OperationStatus
  /-- The record the operation was about. -/
  resultReference : Option Uuid

/-- What to do with a command, given any receipt stored under its key. -/
inductive ReplayDecision where
  | execute
  | replay (receipt : OperationReceipt)
  | reconcile (receipt : OperationReceipt)
  | reject

/-- A key reused with a different body is rejected; an unknown outcome is
reconciled, never run again. -/
def decideReplay (existing : Option OperationReceipt) (requestHash : String) :
    ReplayDecision :=
  match existing with
  | none => .execute
  | some receipt =>
    if receipt.requestHash ≠ requestHash then .reject
    else if receipt.status = .outcomeUnknown then .reconcile receipt
    else .replay receipt

/-! ## The stored receipts -/

/-- The four columns that identify a command. -/
structure OperationKey where
  /-- The kind of the actor. -/
  actorKind : ActorKind
  /-- The id of the actor. -/
  actorId : String
  /-- The command name. -/
  operationType : String
  /-- The key the command was sent under. -/
  idempotencyKey : String
  deriving DecidableEq

/-- A row of the operations table. The outcome column reads as `null` when
nothing is stored. -/
structure OperationRow where
  id : Uuid
  key : OperationKey
  requestHash : String
  expectedRevision : Option ℤ
  status : OperationStatus
  outcome : JsonValue
  resultType : Option String
  resultId : Option Uuid
  completedAt : Option Instant
  version : ℕ

/-- The receipt view of a row. -/
def OperationRow.receipt (row : OperationRow) : OperationReceipt where
  idempotencyKey := row.key.idempotencyKey
  operationType := row.key.operationType
  requestHash := row.requestHash
  status := row.status
  resultReference := row.resultId

/-- **The operations table**, with its primary key and its unique index. -/
structure OperationsTable where
  /-- The rows. -/
  rows : List OperationRow
  /-- The primary key. -/
  primaryKey : (rows.map OperationRow.id).Nodup
  /-- The unique index `operations_key_idx`. -/
  keyIndex : (rows.map OperationRow.key).Nodup

namespace OperationsTable

/-- The receipt stored under a key. -/
def find (t : OperationsTable) (key : OperationKey) : Option OperationRow :=
  t.rows.find? (fun row => row.key = key)

/-- Inserts a row; a taken id or key is refused by the database. -/
def insert (t : OperationsTable) (row : OperationRow) : Option OperationsTable :=
  if h : row.id ∉ t.rows.map OperationRow.id
      ∧ row.key ∉ t.rows.map OperationRow.key then
    some ⟨row :: t.rows, List.nodup_cons.mpr ⟨h.1, t.primaryKey⟩,
      List.nodup_cons.mpr ⟨h.2, t.keyIndex⟩⟩
  else none

/-- What settling a receipt writes. -/
def settleRow (status : OperationStatus) (outcome : JsonValue) (now : Instant)
    (row : OperationRow) : OperationRow :=
  { row with
    status := status
    outcome := outcome
    completedAt := some now
    version := row.version + 1 }

/-- Writes a status and an outcome to the row of an id. -/
def settle (t : OperationsTable) (id : Uuid) (status : OperationStatus)
    (outcome : JsonValue) (now : Instant) : OperationsTable where
  rows := t.rows.map
    (fun row => if row.id = id then settleRow status outcome now row else row)
  primaryKey := by
    rw [List.map_map]
    refine (List.map_congr_left (fun row _ => ?_) : _ = t.rows.map _) ▸ t.primaryKey
    show _ = (if row.id = id then settleRow status outcome now row else row).id
    split <;> rfl
  keyIndex := by
    rw [List.map_map]
    refine (List.map_congr_left (fun row _ => ?_) : _ = t.rows.map _) ▸ t.keyIndex
    show _ = (if row.id = id then settleRow status outcome now row else row).key
    split <;> rfl

theorem find_key {t : OperationsTable} {key : OperationKey} {row : OperationRow}
    (h : t.find key = some row) : row.key = key := by
  simpa using List.find?_some h

theorem mem_of_find {t : OperationsTable} {key : OperationKey}
    {row : OperationRow} (h : t.find key = some row) : row ∈ t.rows :=
  List.mem_of_find?_eq_some h

/-- A row is what its own key finds: the index makes it the only one. -/
theorem find_of_mem {t : OperationsTable} {row : OperationRow}
    (h : row ∈ t.rows) : t.find row.key = some row := by
  cases hf : t.find row.key with
  | none =>
    rw [find, List.find?_eq_none] at hf
    exact absurd (by simp) (hf row h)
  | some other =>
    rw [List.inj_on_of_nodup_map t.keyIndex (mem_of_find hf) h (find_key hf)]

/-- **Settling commutes with the lookup**: only the row of the id changes. -/
theorem find_settle (t : OperationsTable) (id : Uuid) (status : OperationStatus)
    (outcome : JsonValue) (now : Instant) (key : OperationKey) :
    (t.settle id status outcome now).find key
      = (t.find key).map (fun row =>
          if row.id = id then settleRow status outcome now row else row) := by
  show (t.rows.map _).find? _ = _
  rw [List.find?_map]
  refine congrArg (Option.map _) (congrArg (fun p => t.rows.find? p) ?_)
  funext row
  show decide ((if row.id = id then settleRow status outcome now row else row).key
    = key) = _
  split <;> rfl

/-- An inserted row is found under its key, and no other key changes. -/
theorem find_insert {t t' : OperationsTable} {row : OperationRow}
    (h : t.insert row = some t') (key : OperationKey) :
    t'.find key = if row.key = key then some row else t.find key := by
  unfold insert at h
  split at h
  · obtain rfl := Option.some.inj h
    rw [find, List.find?_cons]
    by_cases hkey : row.key = key
    · rw [if_pos hkey, decide_eq_true hkey]
    · rw [if_neg hkey, decide_eq_false hkey]
      rfl
  · exact absurd h (by simp)

end OperationsTable

/-! ## What is stored and what is read back -/

/-- A member of an object that is written only when it is there. -/
def optionalMember (key : String) (value : Option JsonValue) :
    List (String × JsonValue) :=
  match value with
  | none => []
  | some v => [(key, v)]

/-- A failure as it is stored. -/
structure StoredFailure where
  /-- The stable code. -/
  code : ErrorCode
  /-- Field errors, if the error names fields. -/
  fieldErrors : Option FieldErrors
  /-- The current value, if the error carries one. -/
  current : Option JsonValue

/-- The JSON of a stored failure. -/
def StoredFailure.toJson (failure : StoredFailure) : JsonValue :=
  .obj (("code", .str failure.code.name)
    :: optionalMember "fieldErrors" (failure.fieldErrors.map FieldErrors.toJson)
    ++ optionalMember "current" failure.current)

/-- The error a stored failure is answered with. Reading a code that has no
definition throws, which is `none`. -/
def failureError (stored : JsonValue) : Option (AppError JsonValue) := do
  let name ← (stored.get? "code").bind JsonValue.asString?
  let code ← ErrorCode.ofName? name
  pure ⟨code, code.outcome,
    ((stored.get? "fieldErrors").filter JsonValue.truthy).map FieldErrors.ofJson,
    stored.get? "current"⟩

/-- **A stored failure is answered with its code, its field errors and its
current value.** -/
@[simp] theorem failureError_toJson (failure : StoredFailure) :
    failureError failure.toJson
      = some ⟨failure.code, failure.code.outcome, failure.fieldErrors,
          failure.current⟩ := by
  obtain ⟨code, fieldErrors, current⟩ := failure
  cases fieldErrors <;> cases current <;>
    simp [failureError, StoredFailure.toJson, optionalMember, JsonValue.get?,
      FieldErrors.toJson, Option.filter] <;>
    exact FieldErrors.ofJson_toJson _

/-- Whether a stored value is the tagged success of an automated attempt. -/
def storedButlerSuccess (value : JsonValue) : Bool :=
  (value.get? "kind").bind JsonValue.asString? = some "butler_outcome_v1"
    && (value.get? "butlerReceipt").isSome

/-- The receipt of an automated attempt; a default of the legacy policy. -/
def butlerReceipt (operationId : Uuid) (action : Option JsonValue)
    (verdict reason outcome : String) (policy : Option JsonValue) : JsonValue :=
  .obj (("policy", policy.getD (.str "owner_draft_only"))
    :: ("operationId", .str operationId)
    :: optionalMember "action" action
    ++ [("verdict", .str verdict), ("reason", .str reason),
      ("outcome", .str outcome),
      ("manual", .obj [("available", .bool true),
        ("requiresAuthorization", .bool true),
        ("requiresReconciliation", .bool (outcome = "unknown"))])])

/-! ## Running a command -/

/-- The binding of a receipt to a record, chosen by the server. -/
structure OperationSubject where
  /-- The record's type. -/
  type : String
  /-- The record's id. -/
  id : Uuid

/-- **A command as submitted.** -/
structure OperationInput where
  actor : Actor
  /-- The command name. -/
  type : String
  idempotencyKey : String
  /-- The hash of the command, its expected version included. -/
  requestHash : String
  expectedVersion : Option ℤ
  subject : Option OperationSubject
  /-- Whether the input carries an authority of the automated adapter. -/
  butlerAuthorization : Bool

/-- The key the command's receipt is stored under. -/
def OperationInput.key (input : OperationInput) : OperationKey where
  actorKind := input.actor.kind
  actorId := input.actor.id
  operationType := input.type
  idempotencyKey := input.idempotencyKey

/-- Whether the command is an automated attempt. -/
def isButlerOperation (input : OperationInput) : Bool :=
  input.actor.kind = .aiService
    || (input.actor.kind = .system && input.actor.id = "butler")
    || startsWith input.type "butler."
    || input.butlerAuthorization

/-- What the effect function is told. -/
structure OperationContext where
  /-- The receipt's id. -/
  operationId : Uuid
  actor : Actor
  expectedVersion : Option ℤ

/-- **What an effect function does**: it returns a value and leaves new data,
or it throws, and its savepoint undoes what it wrote. -/
inductive Effect (S V : Type*) where
  /-- It returned; a missing value is `undefined`. -/
  | returned (value : Option V) (data : S)
  /-- It threw. -/
  | threw (error : Thrown V)

/-- What the authority check of an automated attempt finds. -/
structure ButlerCheck where
  action : String
  /-- Whether the attempt awaits an approval; otherwise it is blocked. -/
  awaitingApproval : Bool
  reason : String

/-- The decision of a check, as it is recorded. -/
def ButlerCheck.decision (check : ButlerCheck) : String :=
  if check.awaitingApproval then "awaiting_approval" else "blocked"

/-- **One call of `runOperation`**: the command, its effect function, and
what the call meets outside the two tables. -/
structure Call (S V : Type*) where
  input : OperationInput
  fn : OperationContext → S → Effect S V
  /-- The check of an automated attempt. -/
  butlerCheck : OperationContext → S → Except (Thrown V) ButlerCheck
  /-- Whether the advisory lock of the key was free. -/
  locked : Bool
  /-- The id the database draws for a new receipt. -/
  freshId : Uuid
  now : Instant

/-- An audit entry of an operation. -/
structure OperationAudit where
  action : String
  actorKind : ActorKind
  actorId : String
  operationId : Uuid
  recordType : Option String
  recordId : Option Uuid
  receipt : JsonValue

/-- **The database**: the receipts, the audit entries that record verdicts,
and everything the effect functions read and write. -/
structure Db (S : Type*) where
  operations : OperationsTable
  audit : List OperationAudit
  data : S

/-- A call's success. -/
structure OperationSuccess where
  operationId : Uuid
  /-- Whether this is a retry answered from the stored receipt. -/
  replayed : Bool
  /-- What the command returned; a missing value is `undefined`. -/
  outcome : Option JsonValue
  butlerReceipt : Option JsonValue

/-- **A call's answer.** -/
inductive Answer (V : Type*) where
  /-- The operation's outcome. -/
  | success (value : OperationSuccess)
  /-- The error the settled receipt, or the replay decision, answers with. -/
  | failed (error : AppError JsonValue)
  /-- An error that rolled the transaction back. -/
  | rolledBack (error : Thrown V)

variable {S V : Type*}

/-- The JSON form of a value; `undefined` becomes `null`. -/
def toJson (serialise : V → Option JsonValue) : Option V → Option JsonValue
  | none => some .null
  | some value => serialise value

/-- **The answer of a stored receipt.** -/
def replayAnswer (automated : Bool) (row : OperationRow) : Answer V :=
  match row.status with
  | .succeeded =>
    if storedButlerSuccess row.outcome then
      .success ⟨row.id, true, row.outcome.get? "result",
        row.outcome.get? "butlerReceipt"⟩
    else .success ⟨row.id, true, some row.outcome, none⟩
  | .failed =>
    match failureError row.outcome with
    | some error => .failed error
    | none => .rolledBack .other
  | .outcomeUnknown =>
    .failed ⟨.outcomeUnknown, ErrorCode.outcomeUnknown.outcome, none,
      if automated then row.outcome.get? "current" else none⟩
  | _ => .failed (AppError.ofCode .operationPending)

/-- The receipt a new operation starts from. -/
def newReceipt (call : Call S V) : OperationRow where
  id := call.freshId
  key := call.input.key
  requestHash := call.input.requestHash
  expectedRevision := call.input.expectedVersion
  status := .inProgress
  outcome := .null
  resultType := call.input.subject.map OperationSubject.type
  resultId := call.input.subject.map OperationSubject.id
  completedAt := none
  version := 1

/-- What the effect function of a call is told. -/
def Call.context (call : Call S V) : OperationContext :=
  ⟨call.freshId, call.input.actor, call.input.expectedVersion⟩

/-- The audit entry of a verdict. -/
def verdictAudit (call : Call S V) (verdict : JsonValue) : OperationAudit where
  action := "butler.verdict"
  actorKind := call.input.actor.kind
  actorId := call.input.actor.id
  operationId := call.freshId
  recordType := call.input.subject.map OperationSubject.type
  recordId := call.input.subject.map OperationSubject.id
  receipt := verdict

/-- The automated attempt: never executed, and every denial is retained with
its verdict. -/
def runButler (db : Db S) (call : Call S V) (table : OperationsTable) :
    Db S × Answer V :=
  let defaultAction :=
    if startsWith call.input.type "butler." then
      String.ofList (call.input.type.toList.drop 7)
    else "unclassified"
  let (action, decision, reason, code) :=
    match call.butlerCheck call.context db.data with
    | .ok check =>
      (check.action, check.decision, check.reason,
        if check.awaitingApproval then ErrorCode.butlerApprovalRequired
        else ErrorCode.forbidden)
    | .error (.appError e) =>
      let code := if e.outcome = KnownOutcome.unknown then ErrorCode.unavailable else e.code
      (defaultAction, "blocked", code.name, code)
    | .error .other =>
      (defaultAction, "blocked", ErrorCode.unavailable.name, .unavailable)
  let fieldErrors :=
    match call.butlerCheck call.context db.data with
    | .error (.appError e) => if e.outcome = KnownOutcome.unknown then none else e.fieldErrors
    | _ => none
  -- a failed evidence read cannot claim an ambiguous external outcome, so what
  -- is stored here is always a denial and never an unknown outcome
  let verdict := butlerReceipt call.freshId (some (.str action)) decision reason
    "not_applied" none
  let stored : StoredFailure :=
    ⟨code, fieldErrors, some (.obj [("butlerReceipt", verdict)])⟩
  ({ db with
      operations := table.settle call.freshId .failed stored.toJson call.now
      audit := verdictAudit call verdict :: db.audit },
    match failureError stored.toJson with
    | some error => .failed error
    | none => .rolledBack .other)

/-- **The first execution of a command** under its new receipt. -/
def execute (serialise : V → Option JsonValue) (db : Db S) (call : Call S V)
    (table : OperationsTable) : Db S × Answer V :=
  match call.fn call.context db.data with
  | .returned value data =>
    match toJson serialise value with
    -- the savepoint is released, but the transaction rolls back
    | none => (db, .rolledBack .other)
    | some result =>
      ({ db with
          operations := table.settle call.freshId .succeeded result call.now
          data := data },
        .success ⟨call.freshId, false, some result, none⟩)
  | .threw .other => (db, .rolledBack .other)
  | .threw (.appError failure) =>
    if failure.outcome = KnownOutcome.unknown then
      let stored : StoredFailure := ⟨failure.code, none, none⟩
      ({ db with
          operations :=
            table.settle call.freshId .outcomeUnknown stored.toJson call.now },
        .failed (AppError.ofCode .outcomeUnknown))
    else if failure.retryable then (db, .rolledBack (.appError failure))
    else
      match failure.current.map serialise with
      | some none => (db, .rolledBack .other)
      | current =>
        let stored : StoredFailure :=
          ⟨failure.code, failure.fieldErrors, current.bind id⟩
        ({ db with
            operations := table.settle call.freshId .failed stored.toJson call.now },
          match failureError stored.toJson with
          | some error => .failed error
          | none => .rolledBack .other)

/-- **`runOperation`**: one call in one transaction. -/
def runOperation (serialise : V → Option JsonValue) (db : Db S)
    (call : Call S V) : Db S × Answer V :=
  if !call.locked then (db, .failed (AppError.ofCode .operationPending))
  else
    let existing := db.operations.find call.input.key
    match decideReplay (existing.map OperationRow.receipt) call.input.requestHash,
        existing with
    | .reject, _ => (db, .failed (AppError.ofCode .idempotencyKeyReused))
    | .replay _, some row => (db, replayAnswer (isButlerOperation call.input) row)
    | .reconcile _, some row => (db, replayAnswer (isButlerOperation call.input) row)
    | _, _ =>
      match db.operations.insert (newReceipt call) with
      -- the unique index or the primary key refuses the receipt
      | none => (db, .rolledBack .other)
      | some table =>
        if isButlerOperation call.input then runButler db call table
        else execute serialise db call table

/-! ## Reconciliation -/

/-- What reconciliation established. -/
inductive Settlement (V : Type*) where
  | succeeded (outcome : Option V)
  | failed (code : ErrorCode)

/-- **`reconcileOperation`**: records what was established for an operation
awaiting reconciliation, and answers whether it was; `none` where the
outcome could not be serialised and the transaction rolled back. -/
def reconcileOperation (serialise : V → Option JsonValue) (db : Db S)
    (operationId : Uuid) (settlement : Settlement V) (now : Instant) :
    Db S × Option Bool :=
  match db.operations.rows.find?
      (fun row => row.id = operationId && row.status = .outcomeUnknown) with
  | none => (db, some false)
  | some row =>
    let previous := ((row.outcome.get? "current").bind
      (JsonValue.get? "butlerReceipt")).filter JsonValue.truthy
    let write (status : OperationStatus) (outcome : JsonValue)
        (verdict : Option JsonValue) : Db S × Option Bool :=
      ({ db with
          operations := db.operations.settle operationId status outcome now
          audit := (verdict.map (fun receipt =>
            (⟨"butler.reconciled", row.key.actorKind, row.key.actorId,
              operationId, row.resultType, row.resultId, receipt⟩
              : OperationAudit))).toList ++ db.audit },
        some true)
    match settlement with
    | .succeeded outcome =>
      match toJson serialise outcome with
      | none => (db, none)
      | some result =>
        let verdict := previous.map (fun receipt =>
          butlerReceipt operationId (receipt.get? "action") "done_automatically"
            "reconciled_applied" "applied" (receipt.get? "policy"))
        write .succeeded
          (match verdict with
            | some receipt =>
              .obj [("kind", .str "butler_outcome_v1"), ("result", result),
                ("butlerReceipt", receipt)]
            | none => result)
          verdict
    | .failed code =>
      let verdict := previous.map (fun receipt =>
        butlerReceipt operationId (receipt.get? "action") "blocked" code.name
          "not_applied" (receipt.get? "policy"))
      write .failed
        (StoredFailure.toJson ⟨code, none,
          verdict.map (fun receipt => .obj [("butlerReceipt", receipt)])⟩)
        verdict
