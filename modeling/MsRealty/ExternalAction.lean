import MsRealty.Capabilities
import MsRealty.JsonValue
import MsRealty.StateMachine

/-!
# The external-action ledger

One row of the ledger is one logical provider effect
(`src/db/schema/records.ts`): the payload that is sent, the identity every
attempt shares, and where the effect stands. `externalActionMachine` is the
machine the domain declares for the state
(`src/domain/external-action.ts`). The writers do not go through it: each sets
the state with a conditional update of its own.

This module has the row and the two writers that act on a row from outside a
dispatch (`src/server/jobs/outbox.ts`): the provider's delivery report and a
person's reconciliation. The dispatchers are in `MsRealty.Outbox` and
`MsRealty.Alerts`.
-/

/-- The kinds of external action. -/
inductive ExternalActionKind where
  | emailSend
  | destinationPublish
  | destinationWithdraw
  | mediaPurge
  deriving DecidableEq

/-- Where an external action stands. -/
inductive ExternalActionState where
  | queued
  | attempting
  | acknowledged
  | verified
  | failed
  | outcomeUnknown
  | cancelled
  deriving DecidableEq

/-- **The declared machine of external actions.** -/
def externalActionMachine : Machine ExternalActionState where
  states := [.queued, .attempting, .acknowledged, .verified, .failed,
    .outcomeUnknown, .cancelled]
  transitions
    | .queued => [.attempting, .cancelled]
    -- Back to queued only when the provider did not take the request.
    | .attempting => [.acknowledged, .failed, .outcomeUnknown, .queued]
    | .acknowledged => [.verified, .failed]
    | .verified => []
    | .failed => [.queued]
    | .outcomeUnknown => [.acknowledged, .verified, .failed]
    | .cancelled => []

/-- Retries stop here. -/
def maxDeliveryAttempts : ℕ := 3

/-- The provider's idempotency window, in milliseconds. -/
def providerIdempotencyWindowMs : ℤ := 24 * 60 * 60 * 1000

/-- **A row of the ledger**: the columns the dispatchers, the reports and the
reconciliation read or write. -/
structure ExternalAction where
  id : Uuid
  version : ℕ
  updatedAt : Instant
  kind : ExternalActionKind
  /-- The identity of the effect, also the provider's idempotency key. -/
  effectKey : String
  subjectType : Option String
  subjectId : Option Uuid
  sourceGeneration : Option ℕ
  payload : JsonValue
  payloadDigest : String
  /-- Values that do not outlive dispatch, such as a sign-in link. -/
  secretPayload : Option JsonValue
  state : ExternalActionState
  /-- How many claims have committed. -/
  attempts : ℕ
  provider : Option String
  providerReference : Option String
  lastErrorCode : Option String
  firstAttemptAt : Option Instant
  lastAttemptAt : Option Instant
  acknowledgedAt : Option Instant
  verifiedAt : Option Instant
  failedAt : Option Instant
  reconciledAt : Option Instant

/-- What the provider said about one message. -/
inductive ProviderResult where
  | accepted (providerMessageId : String)
  /-- `retryable`: the provider did not take the message and may be asked
  again. -/
  | rejected (code : String) (retryable : Bool)

/-- The message a dispatcher hands to the provider: the identity of the
effect and the members of its payload. -/
structure OutboundMessage where
  outboxId : Uuid
  idempotencyKey : String
  channel : Option JsonValue
  recipient : Option JsonValue
  template : Option JsonValue
  params : Option JsonValue
  secretParams : Option JsonValue

namespace ExternalAction

/-- The string member `key` of the payload. A member that is not a string
equals no string. -/
def payloadText (row : ExternalAction) (key : String) : Option String :=
  (row.payload.get? key).bind JsonValue.asString?

/-- Whether a retry at `now` would fall outside the provider's idempotency
window. -/
def windowPassed (row : ExternalAction) (now : Instant) : Bool :=
  match row.firstAttemptAt with
  | some first => decide (now - first ≥ providerIdempotencyWindowMs)
  | none => false

/-- What a claim writes, whichever dispatcher makes it. -/
def claim (row : ExternalAction) (provider : String) (now : Instant) :
    ExternalAction :=
  { row with
    state := .attempting
    attempts := row.attempts + 1
    provider := some provider
    firstAttemptAt := some (row.firstAttemptAt.getD now)
    lastAttemptAt := some now
    secretPayload := none
    version := row.version + 1 }

/-- What a cancellation writes, whichever command makes it. -/
def cancel (row : ExternalAction) (code : String) (now : Instant) :
    ExternalAction :=
  { row with
    state := .cancelled
    lastErrorCode := some code
    updatedAt := now
    version := row.version + 1 }

/-! ## The provider's delivery report -/

/-- An authenticated report of the provider about one message. -/
structure DeliveryReport where
  provider : String
  providerMessageId : String
  /-- Whether the message was delivered; otherwise it failed. -/
  delivered : Bool
  code : Option String

/-- The states a report may move on. A delivery never overwrites a recorded
failure; a failure is also recorded over a delivery. -/
def DeliveryReport.sources (report : DeliveryReport) : List ExternalActionState :=
  if report.delivered then [.acknowledged, .outcomeUnknown]
  else [.acknowledged, .outcomeUnknown, .verified]

/-- The rows a report is about: `null` equals nothing. -/
def matchesReport (row : ExternalAction) (report : DeliveryReport) : Bool :=
  decide (row.provider = some report.provider
    ∧ row.providerReference = some report.providerMessageId
    ∧ row.state ∈ report.sources)

/-- **What `recordDeliveryReport` does to a row.** -/
def recordDeliveryReport (row : ExternalAction) (report : DeliveryReport)
    (at' : Instant) : ExternalAction :=
  if !row.matchesReport report then row
  else if report.delivered then
    { row with
      state := .verified, verifiedAt := some at', version := row.version + 1 }
  else
    { row with
      state := .failed
      failedAt := some at'
      lastErrorCode := some (report.code.getD "delivery_failed")
      version := row.version + 1 }

/-! ## Reconciliation -/

/-- What a person established about an unknown outcome. -/
inductive Finding where
  | acknowledged (providerMessageId : Option String)
  | verified (providerMessageId : Option String)
  | failed (code : String)

/-- The state a finding sets. -/
def Finding.state : Finding → ExternalActionState
  | .acknowledged _ => .acknowledged
  | .verified _ => .verified
  | .failed _ => .failed

/-- The other columns a finding sets. A provider message id it does not name
leaves the stored one. -/
def Finding.values (now : Instant) (row : ExternalAction) :
    Finding → ExternalAction
  | .acknowledged id =>
    { row with
      acknowledgedAt := some now
      providerReference := id.or row.providerReference }
  | .verified id =>
    { row with
      verifiedAt := some now
      providerReference := id.or row.providerReference }
  | .failed code => { row with failedAt := some now, lastErrorCode := some code }

/-- Whether a row awaits reconciliation. -/
def awaitsReconciliation (row : ExternalAction) : Bool :=
  row.state ∈ [ExternalActionState.attempting, .outcomeUnknown]

/-- **What `reconcileMessage` does to a row.** It never sends. -/
def reconcileMessage (row : ExternalAction) (finding : Finding)
    (now : Instant) : ExternalAction :=
  if !row.awaitsReconciliation then row
  else
    { finding.values now row with
      state := finding.state
      reconciledAt := some now
      version := row.version + 1 }

end ExternalAction
