import MsRealty.ResendInbox

/-!
# The dispatch of a reviewed case email

A case email is three kinds of rows: the external action that sends it, the message it is
about, and one row for each attempt (`src/server/cases/email-dispatch.ts`). A dispatch claims
the action in one transaction and, in a second one that holds the action's row, hands the
email to the provider and records the answer. Delivery reports and reconciliations follow
(`src/server/jobs/outbox.ts`). Every one of these transactions locks the row of the action
first, so that a run is one of them after another, in any order.

What the dispatch reads in other tables (whether the reviewed content is still current, and
whether its files can be loaded) is part of the event, as are the clock and the provider.
-/

namespace CaseEmail

open ExternalAction JsonText ResendInbox

/-- **The declared machine of messages.** -/
def messageMachine : Machine MessageState where
  states := [.draft, .approved, .queued, .attempting, .providerAccepted, .delivered, .bounced,
    .failed, .outcomeUnknown]
  transitions
    | .draft => [.approved]
    -- Editing approved content returns it to draft.
    | .approved => [.draft, .queued]
    | .queued => [.attempting]
    | .attempting => [.providerAccepted, .failed, .outcomeUnknown]
    | .providerAccepted => [.delivered, .bounced, .failed]
    -- A late bounce is never discarded; nothing regresses to delivered.
    | .delivered => [.bounced]
    | .outcomeUnknown => [.providerAccepted, .delivered, .bounced, .failed]
    | .failed => [.queued]
    | .bounced => []

/-! ## The rows -/

/-- **The rows of one case email**: there is one action for each message, as its effect key
names the message. -/
structure Mail where
  action : ExternalAction
  message : Message
  attempts : List MessageAttempt

/-- **`cancel`.** -/
def Mail.cancel (mail : Mail) (code : String) (now : Instant) : Mail :=
  { action :=
      if mail.action.state ∈ [ExternalActionState.queued, .attempting] then
        { mail.action.cancel code now with secretPayload := none }
      else mail.action
    message :=
      if mail.action.subjectId = some mail.message.id then
        { mail.message with state := .failed, updatedAt := now }
      else mail.message
    attempts := mail.attempts.map fun attempt =>
      if attempt.externalActionId = some mail.action.id ∧ attempt.state = .attempting then
        { attempt with state := .failed, errorCode := some code, failedAt := some now }
      else attempt }

/-- The row of a new attempt. -/
def newAttempt (id : Uuid) (row : ExternalAction) : MessageAttempt where
  id := id
  version := 1
  externalActionId := some row.id
  attemptNumber := row.attempts
  state := .attempting
  providerReference := none
  acceptedAt := none
  deliveredAt := none
  failedAt := none
  errorCode := none

/-- **The first transaction of `dispatchCaseEmail`**: a hint of the action was read before the
row is locked, and the reviewed content is current for it or not. -/
def Mail.claim (mail : Mail) (hint : ExternalAction) (current : Bool) (provider : String)
    (attemptId : Uuid) (now : Instant) : Mail :=
  if mail.action.state ≠ .queued then mail
  else if mail.action.version ≠ hint.version then mail
  else if !current || canonicalJson mail.action.payload ≠ canonicalJson hint.payload then
    mail.cancel "case_email_eligibility_changed" now
  else if maxDeliveryAttempts ≤ mail.action.attempts then mail.cancel "attempt_limit_reached" now
  else if mail.action.windowPassed now then mail.cancel "retry_window_expired" now
  else
    let updated := { mail.action.claim provider now with updatedAt := now }
    { action := updated
      message := { mail.message with state := .attempting, updatedAt := now }
      attempts := mail.attempts ++ [newAttempt attemptId updated] }

/-- What comes of the second transaction once it holds its claim. -/
inductive Handoff where
  | eligibilityChanged
  | attachmentUnavailable
  /-- What the provider answered, if it did in time. -/
  | answered (result : Option ProviderResult)

/-- **The second transaction of `dispatchCaseEmail`.** -/
def Mail.handOff (mail : Mail) (claimedVersion : ℕ) (handoff : Handoff) (now : Instant) : Mail :=
  if mail.action.state ≠ .attempting ∨ mail.action.version ≠ claimedVersion then mail
  else
    match handoff with
    | .eligibilityChanged => mail.cancel "case_email_eligibility_changed" now
    | .attachmentUnavailable => mail.cancel "case_email_attachment_unavailable" now
    | .answered result =>
      let state := resultState mail.action.attempts result
      { action := recordAction result now mail.action
        message := recordMessage state now mail.message
        attempts := mail.attempts.map fun attempt =>
          if attempt.isLast mail.action then recordAttempt state result now attempt else attempt }

/-- **`syncMessageOutcome`.** -/
def Mail.syncOutcome (mail : Mail) (at' : Instant) (code : Option String) : Mail :=
  if mail.action.subjectType ≠ some "message" ∨ mail.action.subjectId ≠ some mail.message.id then
    mail
  else
    { mail with
      message := mail.message.settle mail.action at' code
      attempts := mail.attempts.map fun attempt =>
        if attempt.isLast mail.action then attempt.settle mail.action at' code else attempt }

/-- **`recordDeliveryReport`.** -/
def Mail.report (mail : Mail) (report : DeliveryReport) (at' : Instant) : Mail :=
  if mail.action.matchesReport report then
    { mail with action := recordDeliveryReport mail.action report at' }.syncOutcome at' report.code
  else mail

/-- The code of a finding, if it is a failure. -/
def findingCode : Finding → Option String
  | .failed code => some code
  | _ => none

/-- **`reconcileMessage`.** -/
def Mail.reconcile (mail : Mail) (finding : Finding) (now : Instant) : Mail :=
  if mail.action.awaitsReconciliation then
    { mail with action := reconcileMessage mail.action finding now }.syncOutcome now
      (findingCode finding)
  else mail

/-! ## Runs -/

/-- **A transaction on the email.** -/
inductive Event where
  | claim (hint : ExternalAction) (current : Bool) (provider : String) (attemptId : Uuid)
      (now : Instant)
  | handOff (claimedVersion : ℕ) (handoff : Handoff) (now : Instant)
  | report (report : DeliveryReport) (at' : Instant)
  | reconcile (finding : Finding) (now : Instant)

/-- **One committed step**, and the state of the action that it answers with. -/
def step (mail : Mail) (e : Event) : Mail × ExternalActionState :=
  let next := match e with
    | .claim hint current provider attemptId now =>
      mail.claim hint current provider attemptId now
    | .handOff claimedVersion handoff now => mail.handOff claimedVersion handoff now
    | .report report at' => mail.report report at'
    | .reconcile finding now => mail.reconcile finding now
  (next, next.action.state)

/-- **An email that was approved**: it is queued, and nothing was attempted. -/
structure Queued (mail : Mail) : Prop where
  state : mail.action.state = .queued
  message : mail.message.state = .queued
  subjectType : mail.action.subjectType = some "message"
  subjectId : mail.action.subjectId = some mail.message.id
  attempts : mail.action.attempts = 0
  none : mail.attempts = []

end CaseEmail
