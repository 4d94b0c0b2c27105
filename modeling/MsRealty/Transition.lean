import MsRealty.Authz
import MsRealty.Errors
import MsRealty.StateMachine
import MsRealty.Table

/-!
# Transitions of versioned records

The universal transition contract (`src/domain/transition.ts`) and its
execution over a table with an id, a version and a state column
(`src/server/transitions.ts`). A call loads the record, decides – capability,
then expected version, then transition table, then guard – and, if the
transition applies, writes the new state and version on the condition that
the version is still the expected one, together with an activity entry and an
audit entry, in one transaction.

`S` is the type of the states, `E` of the evidence. What authorization reads
and the clock are part of each call.
-/

namespace Transition

variable {S E : Type*}

/-- **A record**, as the store loads it: a column that is null is left out. -/
structure TableRecord (S : Type*) where
  id : Uuid
  reference : Option String
  state : S
  version : ℤ
  locale : Option PublicLocale
  caseId : Option Uuid
  propertyId : Option Uuid
  audience : Option Audience

/-- **The transitions of one kind of record.** -/
structure TransitionSpec (S E : Type*) where
  recordType : String
  machine : Machine S
  /-- The names of the states in the database. -/
  stateName : S → String
  /-- The capability a step needs. -/
  capabilityFor : S → S → Actor → Capability
  /-- Evidence and business rules beyond the transition table. -/
  guard : S → S → E → Actor → Decision

/-- A transition, as it is requested. -/
structure TransitionRequest (S E : Type*) where
  actor : Actor
  /-- The grants resolved for this actor and record. -/
  capabilities : List CapabilityGrant
  expectedVersion : ℤ
  target : S
  evidence : E
  operationId : String
  time : Instant
  reason : Option String

/-- A timeline entry. -/
structure ActivityDescription where
  recordType : String
  recordId : Uuid
  reference : Option String
  messageKey : String
  summary : String
  actor : Actor
  time : Instant
  operationId : String

/-- **An audit entry of a transition.** -/
structure AuditPayload (S E : Type*) where
  action : String
  operationId : String
  actor : Actor
  capability : Capability
  recordType : String
  recordId : Uuid
  fromState : S
  toState : S
  expectedVersion : ℤ
  newVersion : ℤ
  evidence : E
  reason : Option String
  time : Instant

/-- The result of deciding a transition. -/
inductive TransitionResult (S E : Type*) where
  | applied (record : TableRecord S) (activity : ActivityDescription)
      (audit : AuditPayload S E)
  | denied (code : String)
  | versionConflict (current : TableRecord S)

/-- A state's name as people read it. -/
def stateLabel (state : String) : String :=
  let words := state.toList.map (fun c => if c = '_' then ' ' else c)
  match words with
  | [] => ""
  | c :: rest => String.ofList (c.toUpper :: rest)

/-- The record a transition leaves. -/
def TableRecord.moved (record : TableRecord S) (target : S) : TableRecord S :=
  { record with state := target, version := record.version + 1 }

/-- **`applyTransition`**: capability, then version, then table and guard. -/
def applyTransition [DecidableEq S] (spec : TransitionSpec S E) (record : TableRecord S)
    (request : TransitionRequest S E) : TransitionResult S E :=
  let source := record.state
  let target := request.target
  let capability := spec.capabilityFor source target request.actor
  if !hasCapability request.actor request.capabilities capability
      ⟨some spec.recordType, some record.id, record.locale, some request.time⟩ then
    .denied "missing_capability"
  else if request.expectedVersion ≠ record.version then .versionConflict record
  else
    match spec.machine.check source target with
    | .denied code => .denied code
    | .allowed =>
      match spec.guard source target request.evidence request.actor with
      | .denied code => .denied code
      | .allowed =>
        let next := record.moved target
        let name := stateLabel spec.recordType ++ " " ++ record.reference.getD record.id
        let reason := Authz.present request.reason
        let summary := name ++ " moved from " ++ stateLabel (spec.stateName source)
          ++ " to " ++ stateLabel (spec.stateName target)
          ++ (reason.map (fun r => ": " ++ r)).getD "" ++ "."
        .applied next
          { recordType := spec.recordType
            recordId := record.id
            reference := Authz.present record.reference
            messageKey := "activity." ++ spec.recordType ++ "." ++ spec.stateName target
            summary := summary
            actor := request.actor
            time := request.time
            operationId := request.operationId }
          { action := spec.recordType ++ ".transition"
            operationId := request.operationId
            actor := request.actor
            capability := capability
            recordType := spec.recordType
            recordId := record.id
            fromState := source
            toState := target
            expectedVersion := request.expectedVersion
            newVersion := next.version
            evidence := request.evidence
            reason := reason
            time := request.time }

/-- **What an applied transition is**: the capability is held, the version is
the expected one, the step is an edge of the machine and the guard allows it. -/
theorem applyTransition_applied [DecidableEq S] {spec : TransitionSpec S E}
    {record next : TableRecord S}
    {request : TransitionRequest S E} {activity : ActivityDescription}
    {audit : AuditPayload S E}
    (h : applyTransition spec record request = .applied next activity audit) :
    hasCapability request.actor request.capabilities audit.capability
        ⟨some spec.recordType, some record.id, record.locale, some request.time⟩ = true
      ∧ request.expectedVersion = record.version
      ∧ spec.machine.Edge record.state request.target
      ∧ spec.guard record.state request.target request.evidence request.actor = .allowed
      ∧ next = record.moved request.target
      ∧ audit.recordId = record.id ∧ audit.fromState = record.state
      ∧ audit.toState = request.target
      ∧ audit.expectedVersion = record.version
      ∧ audit.newVersion = record.version + 1
      ∧ audit.evidence = request.evidence ∧ audit.actor = request.actor := by
  unfold applyTransition at h
  dsimp only at h
  split_ifs at h with hcapability hversion
  split at h
  · exact absurd h (by simp)
  · next htable =>
    split at h
    · exact absurd h (by simp)
    · next hguard =>
      obtain ⟨rfl, -, rfl⟩ := TransitionResult.applied.inj h
      have hversion := not_not.mp hversion
      refine ⟨?_, hversion, htable, hguard, rfl, rfl, rfl, rfl, hversion, rfl, rfl, rfl⟩
      simpa using hcapability

/-! ## The store -/

/-- Who sees a timeline entry. -/
inductive ActivityAudience where
  | internal
  | participants
  | publicAudience

/-- A row of the activity timeline. -/
structure ActivityRow (S : Type*) where
  description : ActivityDescription
  /-- The two states of the transition. -/
  params : S × S
  audience : Audience

/-- A row of the audit trail. -/
structure AuditRow (S E : Type*) where
  payload : AuditPayload S E
  correlationId : Option String

/-- **The tables of a transition.** New entries are the last. -/
structure TransitionDb (S E : Type*) where
  records : Table Uuid (TableRecord S) TableRecord.id
  activity : List (ActivityRow S)
  audit : List (AuditRow S E)

/-- The audience column of an activity entry; internal unless it is said. -/
def audienceColumn (audience : Option ActivityAudience) : Audience :=
  match audience.getD .internal with
  | .internal => .internal
  | .participants => .caseParticipants
  | .publicAudience => .publicAudience

/-- **A transition command.** -/
structure TransitionCommand (S E : Type*) where
  actor : Actor
  recordId : Uuid
  expectedVersion : ℤ
  target : S
  evidence : E
  operationId : String
  reason : Option String
  audience : Option ActivityAudience
  correlationId : Option String

/-- A transaction that has decided to apply its transition. -/
structure Decided (S E : Type*) where
  /-- The record as it was loaded. -/
  loaded : TableRecord S
  next : TableRecord S
  expectedVersion : ℤ
  activity : ActivityRow S
  audit : AuditRow S E

/-- What a call answers; `thrown` is the error that rolled it back. -/
inductive Outcome (S E : Type*) where
  | applied (record : TableRecord S) (entry : AuditRow S E)
  | denied (code : String)
  | versionConflict (current : TableRecord S)
  | thrown (code : ErrorCode)

/-- The record the store loads: the row of the id. -/
def load (db : TransitionDb S E) (id : Uuid) : Option (TableRecord S) :=
  db.records.get? id

/-- The resource a transition is checked on. -/
def resourceOf (spec : TransitionSpec S E) (record : TableRecord S) : Resource where
  type := spec.recordType
  id := some record.id
  locale := record.locale
  caseId := Authz.present record.caseId
  propertyId := Authz.present record.propertyId
  audience := record.audience

/-- **The first half of `executeTransition`**: load the record and decide. -/
def decideTransition [DecidableEq S] (spec : TransitionSpec S E) (db : TransitionDb S E)
    (command : TransitionCommand S E) (authz : Authz.AuthzData) (now : Instant) :
    Outcome S E ⊕ Decided S E :=
  match load db command.recordId with
  | none => .inl (.thrown .notFound)
  | some record =>
    let request : TransitionRequest S E :=
      { actor := command.actor
        capabilities := Authz.grantsFor authz command.actor (resourceOf spec record) now
        expectedVersion := command.expectedVersion
        target := command.target
        evidence := command.evidence
        operationId := command.operationId
        time := now
        reason := Authz.present command.reason }
    match applyTransition spec record request with
    | .denied code => .inl (.denied code)
    | .versionConflict current => .inl (.versionConflict current)
    | .applied next activity audit =>
      .inr
        { loaded := record
          next := next
          expectedVersion := command.expectedVersion
          activity := ⟨activity, (audit.fromState, audit.toState),
            audienceColumn command.audience⟩
          audit := ⟨audit, Authz.present command.correlationId⟩ }

/-- Whether the row is the one a save updates. -/
def selects (next : TableRecord S) (expectedVersion : ℤ) (row : TableRecord S) : Bool :=
  row.id = next.id && row.version = expectedVersion

/-- What a save writes to a row. -/
def saveRow (next : TableRecord S) (expectedVersion : ℤ) (row : TableRecord S) :
    TableRecord S :=
  if selects next expectedVersion row then
    { row with state := next.state, version := next.version }
  else row

@[simp] theorem saveRow_id (next : TableRecord S) (expectedVersion : ℤ)
    (row : TableRecord S) : (saveRow next expectedVersion row).id = row.id := by
  unfold saveRow
  split <;> rfl

/-- **The second half of `executeTransition`**: save the record if its version
is still the expected one, and record the activity and the audit entry. -/
def commitTransition (db : TransitionDb S E) (decided : Decided S E) :
    TransitionDb S E × Outcome S E :=
  if (db.records.rows.filter
      (selects decided.next decided.expectedVersion)).length = 1 then
    ({ records := db.records.update (saveRow decided.next decided.expectedVersion)
        (saveRow_id decided.next decided.expectedVersion)
       activity := db.activity ++ [decided.activity]
       audit := db.audit ++ [decided.audit] },
      .applied decided.next decided.audit)
  else (db, .thrown .versionConflict)

end Transition
