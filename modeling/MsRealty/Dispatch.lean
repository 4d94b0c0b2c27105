import MsRealty.Alerts
import MsRealty.Runs

/-!
# One external action and everybody who works on it

Any number of dispatch runs, the provider, its delivery reports, the person
who reconciles, and the commands that cancel a queued row, all on one row of
the ledger. A dispatch run commits its claim before it calls the provider and
records the answer afterwards, so between any two of its pieces every other
party may act, and it may crash.

Which dispatcher a run is follows from the subject of the row, as in
`dispatchMessage`. The dispatchers that send under the row's lock – sign-in
links and digests – hold it from the re-check to the commit: `holder` is that
run, and a transaction of anyone else that needs the lock waits, which is to
say that it happens later. A delivery report never waits, since it does not
match a row that is `attempting`.
-/

/-- A run of a dispatcher. -/
abbrev RunId := ℕ

namespace Dispatch

open Outbox Alerts Runs ExternalAction

/-- **How far a run has come.** A run keeps the copy of the row its claim
gave it and the time of the claim. -/
inductive Phase where
  /-- It has not started. -/
  | idle
  /-- Its claim has committed. -/
  | claimed (copy : ExternalAction) (now : Instant)
  /-- Its message is with the provider. -/
  | sending (copy : ExternalAction) (now : Instant) (bounded : Bool)
  /-- The provider has answered, `none` if the call threw. -/
  | answered (copy : ExternalAction) (now : Instant) (answer : Option ProviderResult)
  /-- It is over, and what became of its message it does not know. -/
  | lost (accepted : Bool)
  /-- It is over. -/
  | ended

/-- The run has claimed the row and may still act on it or be acted on by the
provider. -/
def Phase.active : Phase → Bool
  | .claimed _ _ => true
  | .sending _ _ _ => true
  | .answered _ _ _ => true
  | .lost _ => true
  | .idle => false
  | .ended => false

/-- A call of the provider may be outstanding. -/
def Phase.outstanding : Phase → Bool
  | .sending _ _ _ => true
  | .lost _ => true
  | _ => false

/-- The run has claimed the row and has not called the provider yet. -/
def Phase.isClaimed : Phase → Bool
  | .claimed _ _ => true
  | _ => false

/-- The copy of the row a run works with, and the time of its claim. -/
def Phase.claim? : Phase → Option (ExternalAction × Instant)
  | .claimed copy now => some (copy, now)
  | .sending copy now _ => some (copy, now)
  | .answered copy now _ => some (copy, now)
  | _ => none

/-- **The state of one action**: its row, its runs, and the run that holds the
row's lock. -/
structure State where
  row : ExternalAction
  runs : RunId → Phase
  holder : Option RunId

/-- An event. -/
inductive Event where
  /-- A run makes its first transaction. -/
  | claim (run : RunId) (provider : String) (now : Instant) (rule : Option AlertRule)
      (message : MessageReads) (alert : CurrentReads)
  /-- A run goes on after its claim. -/
  | handoff (run : RunId) (linkCurrent : Bool) (currentTime : Instant)
      (alert : CurrentReads)
  /-- The provider's answer reaches the run, `none` if the call threw. -/
  | answer (run : RunId) (answer : Option ProviderResult)
  /-- A run records the answer. -/
  | finish (run : RunId)
  /-- A run dies. -/
  | crash (run : RunId)
  /-- The provider accepts a message whose run is over. -/
  | acceptedLate (run : RunId) (providerMessageId : String)
  /-- `recordDeliveryReport`. -/
  | report (report : DeliveryReport) (now : Instant)
  /-- `reconcileMessage`. -/
  | reconcile (finding : Finding) (now : Instant)
  /-- Another command cancels the row if it is queued. -/
  | supersede (code : String) (now : Instant)

/-- What an event is answered with. -/
inductive Output where
  /-- The event does not apply now, or waits for the row's lock. -/
  | nothing
  /-- The claim committed, at the given time of the run. -/
  | claimed (now : Instant)
  /-- `provider.send` started, for a claim of the given time. -/
  | sent (now : Instant) (message : OutboundMessage)
  /-- The provider answered. -/
  | answered (answer : Option ProviderResult)
  /-- The run returned the state of the row. -/
  | returned (state : ExternalActionState)
  /-- Whether a report or a reconciliation changed the row. -/
  | updated (changed : Bool)

namespace State

/-- A run moves on to the given phase. -/
def setRun (w : State) (run : RunId) (phase : Phase) : State :=
  { w with runs := Function.update w.runs run phase }

/-- A run is over, and with it its transaction. -/
def retire (w : State) (run : RunId) (phase : Phase) : State :=
  { w.setRun run phase with
    holder := if w.holder = some run then none else w.holder }

@[simp] theorem setRun_runs_self (w : State) (run : RunId) (phase : Phase) :
    (w.setRun run phase).runs run = phase := Function.update_self ..

theorem setRun_runs_of_ne (w : State) {run run' : RunId} (phase : Phase)
    (h : run' ≠ run) : (w.setRun run phase).runs run' = w.runs run' :=
  Function.update_of_ne h ..

end State

/-- Whether the row is a digest. -/
def isAlert (row : ExternalAction) : Bool :=
  decide (row.subjectType = some alertSubjectType)

/-- Whether the row delivers a case message, whose dispatcher is not part of
this system. -/
def isCaseMessage (row : ExternalAction) : Bool :=
  decide (row.subjectType = some caseSubjectType)

variable (env : Platform)

/-- The first transaction of a run. -/
def claimOf (row : ExternalAction) (provider : String) (now : Instant)
    (rule : Option AlertRule) (message : MessageReads) (alert : CurrentReads) :
    ClaimResult :=
  if isAlert row then claimAlert env row rule provider now alert
  else if isCaseMessage row then .declined
  else claimMessage env.hashRequest row provider now message

/-- What a run does after its claim. -/
def handoffOf (row copy : ExternalAction) (linkCurrent : Bool)
    (currentTime : Instant) (alert : CurrentReads) : HandoffResult :=
  if isAlert copy then handoffAlert env row copy currentTime alert
  else handoffMessage row copy linkCurrent currentTime

/-- What a run records of the provider's answer. -/
def settleOf (row copy : ExternalAction) (now : Instant)
    (answer : Option ProviderResult) : ExternalAction :=
  if isAlert copy then settleAlert row copy now answer
  else settleMessage row copy now answer

/-- What is left of a run that recorded an answer: after a call that threw,
the provider may still accept the message. -/
def afterAnswer : Option ProviderResult → Phase
  | none => .lost false
  | some _ => .ended

/-- What is left of a run that dies. -/
def afterCrash : Phase → Phase
  | .claimed _ _ => .ended
  | .sending _ _ _ => .lost false
  | .answered _ _ answer => afterAnswer answer
  | phase => phase

/-- **One event.** -/
def step (w : State) : Event → State × Output
  | .claim run provider now rule message alert =>
    match w.runs run, w.holder with
    | .idle, none =>
      match claimOf env w.row provider now rule message alert with
      | .declined => (w.retire run .ended, .returned w.row.state)
      | .cancelled row =>
        ({ w.retire run .ended with row := row }, .returned row.state)
      | .claimed row copy =>
        ({ w.setRun run (.claimed copy now) with row := row }, .claimed now)
    | _, _ => (w, .nothing)
  | .handoff run linkCurrent currentTime alert =>
    match w.runs run with
    | .claimed copy now =>
      match handoffOf env w.row copy linkCurrent currentTime alert, w.holder with
      -- Mail without a secret is sent without the row's lock.
      | .send message false, _ =>
        (w.setRun run (.sending copy now false), .sent now message)
      | .send message true, none =>
        ({ w.setRun run (.sending copy now true) with holder := some run },
          .sent now message)
      | .ended, none => (w.retire run .ended, .returned w.row.state)
      | .cancelled row, none =>
        ({ w.retire run .ended with row := row }, .returned .cancelled)
      | _, some _ => (w, .nothing)
    | _ => (w, .nothing)
  | .answer run answer =>
    match w.runs run with
    | .sending copy now false => (w.setRun run (.answered copy now answer), .answered answer)
    | .sending copy now true =>
      ({ w.retire run (afterAnswer answer) with
          row := settleOf w.row copy now answer },
        .answered answer)
    | _ => (w, .nothing)
  | .finish run =>
    match w.runs run, w.holder with
    | .answered copy now answer, none =>
      let row := settleOf w.row copy now answer
      ({ w.retire run (afterAnswer answer) with row := row }, .returned row.state)
    | _, _ => (w, .nothing)
  | .crash run => (w.retire run (afterCrash (w.runs run)), .nothing)
  | .acceptedLate run providerMessageId =>
    match w.runs run with
    | .lost false =>
      (w.setRun run (.lost true), .answered (some (.accepted providerMessageId)))
    | _ => (w, .nothing)
  | .report report now =>
    ({ w with row := recordDeliveryReport w.row report now },
      .updated (w.row.matchesReport report))
  | .reconcile finding now =>
    match w.holder with
    | none =>
      ({ w with row := reconcileMessage w.row finding now },
        .updated w.row.awaitsReconciliation)
    | some _ => (w, .nothing)
  | .supersede code now =>
    if w.row.state = .queued then
      ({ w with row := w.row.cancel code now }, .nothing)
    else (w, .nothing)

/-- A moment of the work on one action. -/
abbrev ActionMoment := Moment State Event Output

/-- `provider.send` starts. -/
def Output.starts : Output → Bool
  | .sent _ _ => true
  | _ => false

/-- A claim commits. -/
def Output.claims : Output → Bool
  | .claimed _ => true
  | _ => false

/-- The number of the attempt a run with this copy makes: a digest's copy is
the row after the claim, any other the row before it. -/
def attemptOf (copy : ExternalAction) : ℕ :=
  if isAlert copy then copy.attempts else copy.attempts + 1

end Dispatch
