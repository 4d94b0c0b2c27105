import MsRealty.CanonicalJson
import MsRealty.ExternalAction
import MsRealty.IsoDatetime
import MsRealty.Submissions
import MsRealty.Table

/-!
# The inbox of delivery reports

Signed webhooks of the mail provider are stored first and processed afterwards
(`src/server/jobs/resend-inbox.ts`): an event is stored once per event id, and
settles the external action of its mail once that action is committed with the
provider's reference. Until then a sweep tries again.

What a report does to the row of an action is in `MsRealty.ExternalAction`.
Here are the tables around it: the events, the message an action is about and
its delivery attempts (`recordDeliveryReport` and `syncMessageOutcome` of
`src/server/jobs/outbox.ts`), and the commit of a mail's dispatch
(`src/server/cases/email-dispatch.ts`).

The verification of a signature and the schema of identifiers are parameters.
-/

/-- Where a message, or one attempt to deliver it, stands. -/
inductive MessageState where
  | draft
  | approved
  | queued
  | attempting
  | providerAccepted
  | delivered
  | bounced
  | failed
  | outcomeUnknown
  deriving DecidableEq

namespace ResendInbox

open ExternalAction JsonText

/-! ## Events -/

/-- Where a stored event stands. -/
inductive InboxEventState where
  | received
  | processed
  | rejected
  | ignored
  deriving DecidableEq

/-- The instant of a date and time whose offset from UTC may be written out. -/
def offsetDatetime (text : List Char) : Option Instant :=
  match IsoInstant.datetime text, text.drop (text.length - 6) with
  | some instant, _ => some instant
  | none, [sign, h, h', ':', m, m'] =>
    if (sign = '+' ∨ sign = '-') ∧ [h, h', m, m'].all Char.isDigit
        ∧ Nat.ofDigitChars 10 [h, h'] 0 ≤ 23 ∧ Nat.ofDigitChars 10 [m, m'] 0 ≤ 59 then
      let ahead : ℤ := Nat.ofDigitChars 10 [h, h'] 0 * 3600000 + Nat.ofDigitChars 10 [m, m'] 0 * 60000
      (IsoInstant.datetime (text.take (text.length - 6) ++ ['Z'])).map
        (fun local_ => if sign = '+' then local_ - ahead else local_ + ahead)
    else none
  | none, _ => none

/-- **What is kept of an event**: the identifier of its mail and when it
happened, a date the schema has accepted. -/
structure InboxPayload where
  emailId : Option String
  occurredAt : String
  dated : (offsetDatetime occurredAt.toList).isSome = true

namespace InboxPayload

/-- The instant of an event. -/
def instant (payload : InboxPayload) : Instant :=
  (offsetDatetime payload.occurredAt.toList).get payload.dated

/-- The payload as it is stored. -/
def toJson (payload : InboxPayload) : JsonValue :=
  .obj (["emailId", "occurredAt"].zip
    [(payload.emailId.map JsonValue.str).getD .null, .str payload.occurredAt])

end InboxPayload

/-- An event the webhook has read. -/
structure ResendEvent where
  type : String
  payload : InboxPayload

/-- The type of a delivery. -/
def delivered : String := "email.delivered"

/-- The types of a failure. -/
def failures : List String :=
  ["email.bounced", "email.complained", "email.failed", "email.suppressed"]

/-- The type of mail that came in. -/
def inbound : String := "email.received"

/-- The types the inbox processes. -/
def supported (type : String) : Bool := decide (type = delivered ∨ type ∈ failures)

/-- The schema of an identifier that may be left out. -/
def optionalUuid (isUuid : String → Bool) : Option JsonValue → Option (Option String)
  | none => some none
  | some (.str text) => if isUuid text then some (some text) else none
  | some _ => none

/-- **The schema of an event.** -/
def eventSchema (isUuid : String → Bool) (json : JsonValue) : Option ResendEvent := do
  let type ← (json.get? "type").bind JsonValue.asString?
  let createdAt ← (json.get? "created_at").bind JsonValue.asString?
  let content ← json.get? "data"
  let emailId ← match content with
    | .obj _ => optionalUuid isUuid (content.get? "email_id")
    | _ => none
  if h : (offsetDatetime createdAt.toList).isSome = true ∧ Tx.textWithin 1 80 type = true then
    some ⟨type, ⟨emailId, createdAt, h.1⟩⟩
  else none

/-- A request of the provider: its length, its event id, and what verifying its
signature and reading its body gave, unless that threw. -/
structure WebhookRequest where
  byteLength : ℕ
  svixId : Option String
  verified : Option JsonValue

/-- **The checks before an event is stored**: its id and what it says. -/
def readWebhook (isUuid : String → Bool) (secret : String) (request : WebhookRequest) :
    Except ErrorCode (String × ResendEvent) :=
  if secret = "" then .error .unavailable
  else if 128 * 1024 < request.byteLength then .error .validationFailed
  else if Tx.textWithin 1 256 (request.svixId.getD "") = false then .error .unauthenticated
  else
    match request.verified with
    | none => .error .unauthenticated
    | some json =>
      match eventSchema isUuid json with
      | none => .error .validationFailed
      | some event =>
        if (supported event.type || event.type = inbound) && event.payload.emailId.isNone then
          .error .validationFailed
        else .ok (request.svixId.getD "", event)

/-! ## Tables -/

/-- A stored event. -/
structure InboxEvent where
  id : Uuid
  provider : String
  eventId : String
  eventType : String
  signatureVerified : Bool
  payload : InboxPayload
  state : InboxEventState
  receivedAt : Instant
  processedAt : Option Instant
  errorCode : Option String

/-- A message. -/
structure Message where
  id : Uuid
  version : ℕ
  state : MessageState
  updatedAt : Instant

/-- One attempt to deliver a message. -/
structure MessageAttempt where
  id : Uuid
  version : ℕ
  externalActionId : Option Uuid
  attemptNumber : ℕ
  state : MessageState
  providerReference : Option String
  acceptedAt : Option Instant
  deliveredAt : Option Instant
  failedAt : Option Instant
  errorCode : Option String

/-- **The tables.** -/
structure InboxData where
  events : Table Uuid InboxEvent InboxEvent.id
  actions : Table Uuid ExternalAction ExternalAction.id
  messages : Table Uuid Message Message.id
  attempts : Table Uuid MessageAttempt MessageAttempt.id

variable {data : InboxData}

/-! ## Delivery reports -/

/-- The state of a message whose action came to a state with a code. -/
def messageOutcome (state : ExternalActionState) (code : Option String) : MessageState :=
  if state = .verified then .delivered
  else if state = .acknowledged then .providerAccepted
  else if code = some "email.bounced" then .bounced
  else .failed

/-- What an outcome writes to a message. -/
def Message.settle (message : Message) (row : ExternalAction) (at' : Instant)
    (code : Option String) : Message :=
  { message with
    state := messageOutcome row.state code
    updatedAt := at'
    version := message.version + 1 }

theorem Message.id_settle (message : Message) (row : ExternalAction) (at' : Instant)
    (code : Option String) : (message.settle row at' code).id = message.id := rfl

/-- What an outcome writes to an attempt. -/
def MessageAttempt.settle (attempt : MessageAttempt) (row : ExternalAction) (at' : Instant)
    (code : Option String) : MessageAttempt :=
  let state := messageOutcome row.state code
  { attempt with
    state := state
    providerReference := row.providerReference
    errorCode := code
    deliveredAt := if state = .delivered then some at' else attempt.deliveredAt
    acceptedAt := if state = .providerAccepted then some at' else attempt.acceptedAt
    failedAt :=
      if state = .delivered ∨ state = .providerAccepted then attempt.failedAt else some at'
    version := attempt.version + 1 }

theorem MessageAttempt.id_settle (attempt : MessageAttempt) (row : ExternalAction)
    (at' : Instant) (code : Option String) : (attempt.settle row at' code).id = attempt.id := rfl

/-- Whether an action is the one of a message. -/
def IsSubject (row : ExternalAction) (messageId : Uuid) : Prop :=
  row.subjectType = some "message" ∧ row.subjectId = some messageId

/-- Whether an attempt is the last one of an action. -/
def MessageAttempt.isLast (attempt : MessageAttempt) (row : ExternalAction) : Bool :=
  attempt.externalActionId = some row.id && attempt.attemptNumber = row.attempts

/-- **Carries the outcome of an action** to its message and its last attempt. -/
def syncMessageOutcome (data : InboxData) (row : ExternalAction) (at' : Instant)
    (code : Option String) : InboxData :=
  match row.subjectId with
  | none => data
  | some messageId =>
    if row.subjectType ≠ some "message" then data
    else
      { data with
        messages := data.messages.updateWhere (fun message => message.id = messageId)
          (fun message => message.settle row at' code)
          (fun message => message.id_settle row at' code)
        attempts := data.attempts.updateWhere (fun attempt => attempt.isLast row)
          (fun attempt => attempt.settle row at' code)
          (fun attempt => attempt.id_settle row at' code) }

theorem recordDeliveryReport_id (row : ExternalAction) (report : DeliveryReport)
    (at' : Instant) : (row.recordDeliveryReport report at').id = row.id := by
  unfold ExternalAction.recordDeliveryReport
  split
  · rfl
  · split <;> rfl

/-- **Applies a report** to the actions it is about, and to their messages. -/
def recordDeliveryReport (data : InboxData) (report : DeliveryReport) (at' : Instant) :
    InboxData :=
  let rows := (data.actions.rows.filter (fun row => row.matchesReport report)).map
    (fun row => row.recordDeliveryReport report at')
  rows.foldl (fun data row => syncMessageOutcome data row at' report.code)
    { data with
      actions := data.actions.update (fun row => row.recordDeliveryReport report at')
        (fun row => recordDeliveryReport_id row report at') }

/-! ## Storing and processing -/

/-- The state and the code an event is stored with. -/
def initialState (type : String) : InboxEventState × Option String :=
  if type = inbound then (.received, some "inbound_requires_triage")
  else if supported type then (.received, none)
  else (.ignored, some "unsupported_event")

/-- The row of an event that was not stored before. -/
def newEvent (freshId : Uuid) (eventId : String) (event : ResendEvent) (now : Instant) :
    InboxEvent where
  id := freshId
  provider := "resend"
  eventId := eventId
  eventType := event.type
  signatureVerified := true
  payload := event.payload
  state := (initialState event.type).fst
  receivedAt := now
  processedAt := none
  errorCode := (initialState event.type).snd

/-- **Stores an event**, unless there is one of its id, and answers with the
stored row and whether it is new. The row's own id is `freshId`. -/
def storeEvent (data : InboxData) (freshId : Uuid) (eventId : String) (event : ResendEvent)
    (now : Instant) : Except ErrorCode (InboxEvent × Bool × InboxData) :=
  match data.events.rows.find? (fun row => row.provider = "resend" && row.eventId = eventId) with
  | some existing =>
    if existing.eventType ≠ event.type
        ∨ canonicalJson existing.payload.toJson ≠ canonicalJson event.payload.toJson then
      .error .validationFailed
    else .ok (existing, false, data)
  | none =>
    match data.events.insert? (newEvent freshId eventId event now) with
    | none => .error .unavailable
    | some events =>
      .ok (newEvent freshId eventId event now, true, { data with events := events })

/-- The states of an action whose reference is committed. -/
def settledStates : List ExternalActionState :=
  [.acknowledged, .outcomeUnknown, .verified, .failed]

/-- An event the inbox has still to process. -/
def InboxEvent.isDue (event : InboxEvent) : Bool :=
  event.provider = "resend" && event.signatureVerified && event.state = .received
    && supported event.eventType

/-- Whether an action is the one of a mail. -/
def isTarget (emailId : Option String) (row : ExternalAction) : Bool :=
  row.provider = some "resend" && emailId.isSome && row.providerReference = emailId

/-- Whether an event's action is committed with its reference. -/
def hasTarget (data : InboxData) (event : InboxEvent) : Bool :=
  (data.actions.rows.find? (isTarget event.payload.emailId)).any
    (fun row => row.state ∈ settledStates)

/-- The event a call applies, if it applies one. -/
def appliedEvent (data : InboxData) (id : Uuid) : Option InboxEvent :=
  (data.events.get? id).filter (fun event => event.isDue && hasTarget data event)

/-- The report of an event. -/
def InboxEvent.report (event : InboxEvent) : DeliveryReport where
  provider := "resend"
  providerMessageId := event.payload.emailId.getD ""
  delivered := event.eventType = delivered
  code := some event.eventType

/-- An event that waits for its action. -/
def InboxEvent.await (event : InboxEvent) : InboxEvent :=
  { event with errorCode := some "delivery_awaiting_reference" }

/-- An event that was applied. -/
def InboxEvent.finish (now : Instant) (event : InboxEvent) : InboxEvent :=
  { event with state := .processed, processedAt := some now, errorCode := none }

theorem InboxEvent.id_await (event : InboxEvent) : event.await.id = event.id := rfl

theorem InboxEvent.id_finish (now : Instant) (event : InboxEvent) :
    (event.finish now).id = event.id := rfl

/-- Writes to one event. -/
def setEvent (data : InboxData) (id : Uuid) (f : InboxEvent → InboxEvent)
    (hf : ∀ e, (f e).id = e.id) : InboxData :=
  { data with events := data.events.updateWhere (fun event => event.id = id) f hf }

theorem mem_setEvent {id : Uuid} {f : InboxEvent → InboxEvent} {hf : ∀ e, (f e).id = e.id}
    {event : InboxEvent} : event ∈ (setEvent data id f hf).events.rows
      ↔ ∃ e ∈ data.events.rows, (if e.id = id then f e else e) = event := by
  rw [setEvent, Table.mem_updateWhere]
  refine exists_congr fun e => and_congr_right fun _ => ?_
  simp only [decide_eq_true_eq]

/-- **Processes one event**: it waits for its action, or is applied to it. -/
def processResendEvent (data : InboxData) (id : Uuid) (now : Instant) : InboxData :=
  match data.events.get? id with
  | none => data
  | some event =>
    if !event.isDue then data
    else if !hasTarget data event then
      setEvent data id InboxEvent.await InboxEvent.id_await
    else
      setEvent (recordDeliveryReport data event.report event.payload.instant) id
        (InboxEvent.finish now) (InboxEvent.id_finish now)

/-- **Receives one webhook**: checks, stores and processes its event. The
answer says whether the event had been stored before. -/
def receiveResendWebhook (isUuid : String → Bool) (secret : String) (request : WebhookRequest)
    (data : InboxData) (freshId : Uuid) (now : Instant) : Except ErrorCode (Bool × InboxData) := do
  let (eventId, event) ← readWebhook isUuid secret request
  let (row, inserted, data) ← storeEvent data freshId eventId event now
  return (!inserted, processResendEvent data row.id now)

/-- The events a sweep selects from. -/
def sweepable (data : InboxData) : List InboxEvent :=
  data.events.rows.filter (fun event => event.provider = "resend" && event.state = .received
    && supported event.eventType)

/-- Processes the events of a list, one after the other. -/
def processAll (data : InboxData) (ids : List Uuid) (now : Instant) : InboxData :=
  ids.foldl (fun data id => processResendEvent data id now) data

/-- **A sweep**: it processes the oldest events, at most `limit`. The database
may list events of one instant in any order. -/
def Sweeps (limit : ℕ) (data data' : InboxData) : Prop :=
  ∃ (listed : List InboxEvent) (now : Instant), listed.Perm (sweepable data)
    ∧ listed.Pairwise (fun a b => a.receivedAt ≤ b.receivedAt)
    ∧ data' = processAll data ((listed.take limit).map InboxEvent.id) now

/-! ## The commit of a dispatch -/

/-- The state a provider's answer brings a mail's action to. -/
def resultState (attempts : ℕ) : Option ProviderResult → ExternalActionState
  | none => .outcomeUnknown
  | some (.accepted _) => .acknowledged
  | some (.rejected _ retryable) =>
    if retryable && decide (attempts < maxDeliveryAttempts) then .queued else .failed

/-- The state of the message of an action. -/
def resultMessageState : ExternalActionState → MessageState
  | .acknowledged => .providerAccepted
  | .queued => .queued
  | .failed => .failed
  | _ => .outcomeUnknown

/-- The code of a provider's answer. -/
def resultCode : Option ProviderResult → Option String
  | none => some "provider_unreachable"
  | some (.accepted _) => none
  | some (.rejected code _) => some code

/-- The provider's reference, if it took the mail. -/
def resultReference : Option ProviderResult → Option String
  | some (.accepted reference) => some reference
  | _ => none

/-- Whether the provider refused the mail. -/
def isRejected : Option ProviderResult → Bool
  | some (.rejected _ _) => true
  | _ => false

/-- What an answer writes to the action. -/
def recordAction (result : Option ProviderResult) (now : Instant) (row : ExternalAction) :
    ExternalAction :=
  let state := resultState row.attempts result
  { row with
    state := state
    providerReference := resultReference result
    acknowledgedAt := if state = .acknowledged then some now else none
    failedAt := if state = .failed then some now else none
    lastErrorCode := resultCode result
    version := row.version + 1
    updatedAt := now }

/-- What an answer writes to the attempt. -/
def recordAttempt (state : ExternalActionState) (result : Option ProviderResult) (now : Instant)
    (attempt : MessageAttempt) : MessageAttempt :=
  { attempt with
    state :=
      if resultMessageState state = .queued then .failed else resultMessageState state
    errorCode := resultCode result
    providerReference := resultReference result
    acceptedAt := if state = .acknowledged then some now else none
    failedAt := if isRejected result then some now else none }

/-- What an answer writes to the message. -/
def recordMessage (state : ExternalActionState) (now : Instant) (message : Message) : Message :=
  { message with state := resultMessageState state, updatedAt := now }

theorem id_recordAction (result : Option ProviderResult) (now : Instant) (row : ExternalAction) :
    (recordAction result now row).id = row.id := rfl

theorem id_recordAttempt (state : ExternalActionState) (result : Option ProviderResult)
    (now : Instant) (attempt : MessageAttempt) :
    (recordAttempt state result now attempt).id = attempt.id := rfl

theorem id_recordMessage (state : ExternalActionState) (now : Instant) (message : Message) :
    (recordMessage state now message).id = message.id := rfl

/-- **The end of a mail's dispatch**: what the provider answered is recorded
if the action is still the one that was claimed. -/
def recordResult (data : InboxData) (id messageId : Uuid) (claimedVersion : ℕ)
    (result : Option ProviderResult) (now : Instant) : InboxData :=
  match data.actions.get? id with
  | none => data
  | some row =>
    if row.state ≠ .attempting ∨ row.version ≠ claimedVersion then data
    else
      let state := resultState row.attempts result
      { data with
        actions := data.actions.updateWhere (fun row => row.id = id) (recordAction result now)
          (id_recordAction result now)
        attempts := data.attempts.updateWhere (fun attempt => attempt.isLast row)
          (recordAttempt state result now) (id_recordAttempt state result now)
        messages := data.messages.updateWhere (fun message => message.id = messageId)
          (recordMessage state now) (id_recordMessage state now) }

end ResendInbox
