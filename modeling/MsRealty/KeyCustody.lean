import MsRealty.Submissions
import MsRealty.Table

/-!
# The custody of keys

The sets of keys of the properties and the events of their custody
(`src/server/key-custody/service.ts`): keys are received, moved and given
another day to be back. Every command writes the row under its lock and records
the event in the same transaction.

What a command reads elsewhere – the caller's live session and passkeys, the
property, the holder – is a *finding* of the call, and may be anything. The
check constraint of the table and the unique index of the events are left out:
what they demand is proved of the commands. A transaction that the database
rolls back, the overflow of an integer column included, is one that did not
happen.
-/

namespace KeyCustody

/-! ## States -/

/-- `custodyStates`. -/
inductive CustodyState where
  | stored
  | checkedOut
  | lost
  | returnedToOwner
  deriving DecidableEq

/-- The state as it is stored. -/
def CustodyState.name : CustodyState → String
  | .stored => "stored"
  | .checkedOut => "checked_out"
  | .lost => "lost"
  | .returnedToOwner => "returned_to_owner"

/-- **`custodyTransitions`.** -/
def custodyTransitions : CustodyState → List CustodyState
  | .stored => [.checkedOut, .returnedToOwner, .lost]
  | .checkedOut => [.stored, .returnedToOwner, .lost]
  | .lost => [.stored, .returnedToOwner]
  | .returnedToOwner => []

/-! ## The tables -/

/-- **A set of keys.** -/
structure KeySet where
  id : Uuid
  version : ℕ
  reference : String
  propertyId : Uuid
  keyTag : String
  quantity : ℤ
  sourceReference : String
  state : CustodyState
  storageLabel : Option String
  holderId : Option Uuid
  dueAt : Option Instant
  updatedAt : Instant

/-- **An event of the custody of a set.** -/
structure CustodyEvent where
  keySetId : Uuid
  version : ℕ
  state : CustodyState
  storageLabel : Option String
  holderId : Option Uuid
  dueAt : Option Instant
  note : String
  recordedById : Uuid
  operationId : Uuid

/-- An audit entry of a custody event. -/
structure CustodyAudit where
  actor : Actor
  action : String
  recordId : Uuid
  operationId : Uuid
  version : ℕ
  state : CustodyState
  contentHash : String

/-- **The custody tables**, the events and the audit newest first. -/
structure CustodyData where
  keySets : Table Uuid KeySet KeySet.id
  events : List CustodyEvent
  audit : List CustodyAudit

/-- The events of a set, newest first. -/
def CustodyData.eventsOf (data : CustodyData) (id : Uuid) : List CustodyEvent :=
  data.events.filter (fun e => e.keySetId = id)

/-! ## What a command finds elsewhere -/

/-- **What a command meets** outside its tables: what `custodyOperator` refuses
in the transaction, the current property of the input's reference, who may hold
keys, and what the database draws. -/
structure Findings where
  operator : Option (Thrown JsonValue)
  property : Option (Uuid × Option Uuid)
  eligibleHolder : Uuid → Bool
  freshId : Uuid
  freshReference : String
  now : Instant
  /-- `hashRequest`, of a row. -/
  hashRow : KeySet → String

/-! ## Recording -/

/-- The answer of a custody command. -/
def answer (row : KeySet) : JsonValue :=
  .obj [("id", .str row.id), ("reference", .str row.reference), ("version", .num row.version),
    ("state", .str row.state.name)]

/-- The event of a row. -/
def KeySet.event (row : KeySet) (context : OperationContext) (note : String) : CustodyEvent where
  keySetId := row.id
  version := row.version
  state := row.state
  storageLabel := row.storageLabel
  holderId := row.holderId
  dueAt := row.dueAt
  note := note
  recordedById := context.actor.id
  operationId := context.operationId

/-- **`recordCustody`.** -/
def recordCustody (context : OperationContext) (found : Findings) (row : KeySet) (note : String)
    (action : String) (data : CustodyData) : CustodyData :=
  { data with
    events := row.event context note :: data.events
    audit := ⟨context.actor, action, row.id, context.operationId, row.version, row.state,
      found.hashRow row⟩ :: data.audit }

/-! ## Receiving -/

/-- What every input has. -/
structure Common where
  operationId : String
  note : String
  reviewed : Bool

/-- The common part of the schemas. -/
def Common.isValid (common : Common) : Bool :=
  Tx.textWithin 16 200 common.operationId && Tx.textWithin 10 2000 common.note && common.reviewed

structure ReceiveInput extends Common where
  propertyReference : String
  keyTag : String
  quantity : ℤ
  sourceReference : String
  storageLabel : String

/-- The input of `receiveKeys` as its schema leaves it. -/
def ReceiveInput.parse (schemas : Tx.Schemas) (raw : ReceiveInput) : Option ReceiveInput :=
  let input : ReceiveInput := { raw with
    note := schemas.trim raw.note
    propertyReference := schemas.trim raw.propertyReference
    keyTag := schemas.toUpperCase (schemas.trim raw.keyTag)
    sourceReference := schemas.trim raw.sourceReference
    storageLabel := schemas.trim raw.storageLabel }
  if input.toCommon.isValid && Tx.textWithin 3 80 input.propertyReference
      && Tx.textWithin 2 80 (schemas.trim raw.keyTag) && 1 ≤ input.quantity && input.quantity ≤ 50
      && Tx.textWithin 3 250 input.sourceReference && Tx.textWithin 2 150 input.storageLabel then
    some input
  else none

/-- The row of a set that is received. -/
def ReceiveInput.row (input : ReceiveInput) (propertyId : Uuid) (found : Findings) : KeySet where
  id := found.freshId
  version := 1
  reference := found.freshReference
  propertyId := propertyId
  keyTag := input.keyTag
  quantity := input.quantity
  sourceReference := input.sourceReference
  state := .stored
  storageLabel := some input.storageLabel
  holderId := none
  dueAt := none
  updatedAt := found.now

/-- **`receiveKeys`**, in its transaction. -/
def receiveKeys (input : ReceiveInput) (found : Findings) (context : OperationContext)
    (data : CustodyData) : Tx (JsonValue × CustodyData) := do
  Tx.refuse found.operator
  let property ← Tx.found (found.property.filter (fun property => property.snd.isNone))
    (Tx.fieldError .validationFailed "propertyReference" "Choose a current property reference")
  let row := input.row property.fst found
  Tx.demand (∀ other ∈ data.keySets.rows, other.keyTag ≠ row.keyTag)
    (Tx.fieldError .validationFailed "keyTag" "This tag is already registered")
  Tx.demand (∀ other ∈ data.keySets.rows, other.reference ≠ row.reference) .other
  let keySets ← Tx.found (data.keySets.insert? row) .other
  .ok (answer row, recordCustody context found row input.note "key.custody_recorded"
    { data with keySets := keySets })

/-! ## Moving -/

structure MoveInput extends Common where
  id : Uuid
  expectedVersion : ℤ
  state : CustodyState
  holderId : String
  dueAt : String
  storageLabel : String

/-- The input of `moveKeys` as its schema leaves it. -/
def MoveInput.parse (schemas : Tx.Schemas) (raw : MoveInput) : Option MoveInput :=
  let input : MoveInput := { raw with
    note := schemas.trim raw.note
    storageLabel := schemas.trim raw.storageLabel }
  if input.toCommon.isValid && schemas.isUuid input.id && 0 < input.expectedVersion
      && Tx.textWithin 0 36 input.holderId && Tx.textWithin 0 40 input.dueAt
      && Tx.textWithin 0 150 input.storageLabel then some input
  else none

/-- The row of a set that is moved. -/
def MoveInput.row (input : MoveInput) (dueAt : Option Instant) (now : Instant) (row : KeySet) :
    KeySet :=
  { row with
    state := input.state
    holderId := if input.state = .checkedOut then some input.holderId else none
    dueAt := if input.state = .checkedOut then dueAt else none
    storageLabel := if input.state = .stored then some input.storageLabel else none
    version := row.version + 1
    updatedAt := now }

/-- Writes the row of its id. -/
def writeRow (data : CustodyData) (row : KeySet) : CustodyData :=
  { data with keySets := data.keySets.put row }

/-- **`moveKeys`**, in its transaction. -/
def moveKeys (schemas : Tx.Schemas) (input : MoveInput) (found : Findings)
    (context : OperationContext) (data : CustodyData) : Tx (JsonValue × CustodyData) := do
  Tx.refuse found.operator
  let row ← Tx.found (data.keySets.get? input.id) (Tx.ofCode .notFound)
  Tx.demand (row.version = input.expectedVersion) (Tx.versionConflict row.version)
  Tx.demand (input.state ∈ custodyTransitions row.state) (Tx.ofCode .transitionDenied)
  Tx.demand (input.state = .checkedOut →
      schemas.isUuid input.holderId = true ∧ found.eligibleHolder input.holderId = true)
    (Tx.fieldError .validationFailed "holderId"
      "Choose a current staff holder with an enrolled passkey")
  let dueAt := schemas.datetime input.dueAt
  Tx.demand (input.state = .checkedOut → dueAt.any (fun due => found.now < due) = true)
    (Tx.fieldError .validationFailed "dueAt" "Choose a future due-back time")
  Tx.demand (input.state = .stored → 2 ≤ (Utf16.encode input.storageLabel.toList).length)
    (Tx.fieldError .validationFailed "storageLabel" "Record the actual storage label")
  let changed := input.row dueAt found.now row
  .ok (answer changed, recordCustody context found changed input.note "key.custody_recorded"
    (writeRow data changed))

/-! ## Another day to be back -/

structure AmendInput extends Common where
  id : Uuid
  expectedVersion : ℤ
  dueAt : String

/-- The input of `amendKeyDeadline` as its schema leaves it. -/
def AmendInput.parse (schemas : Tx.Schemas) (raw : AmendInput) : Option (AmendInput × Instant) :=
  let input : AmendInput := { raw with note := schemas.trim raw.note }
  if input.toCommon.isValid && schemas.isUuid input.id && 0 < input.expectedVersion then
    (schemas.datetime input.dueAt).map (fun dueAt => (input, dueAt))
  else none

/-- **`amendKeyDeadline`**, in its transaction. -/
def amendKeyDeadline (input : AmendInput) (dueAt : Instant) (found : Findings)
    (context : OperationContext) (data : CustodyData) : Tx (JsonValue × CustodyData) := do
  Tx.refuse found.operator
  let row ← Tx.found (data.keySets.get? input.id) (Tx.ofCode .notFound)
  Tx.demand (row.version = input.expectedVersion) (Tx.versionConflict row.version)
  Tx.demand (row.state = .checkedOut ∧ row.holderId.any found.eligibleHolder = true)
    (Tx.ofCode .transitionDenied)
  Tx.demand (found.now < dueAt ∧ row.dueAt ≠ some dueAt)
    (Tx.fieldError .validationFailed "dueAt" "Choose a different future due-back time")
  let changed := { row with
    dueAt := some dueAt, version := row.version + 1, updatedAt := found.now }
  .ok (answer changed, recordCustody context found changed input.note "key.deadline_amended"
    (writeRow data changed))

end KeyCustody
