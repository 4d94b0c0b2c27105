import MsRealty.Dispatch

/-!
# What one event can do to an external action

`Dispatch.step_cases` is the one place where the dispatchers are unfolded:
it sorts what an event can do into a few kinds, each with what it says of the
row and of the run. The invariant of `MsRealty.DispatchRuns` and the laws
about runs are read off these kinds.
-/

namespace Dispatch

open Outbox Alerts Runs ExternalAction

/-! ## What the writers keep of a row -/

/-- Two versions of one row: the same effect with the same payload. -/
structure SameEffect (row row' : ExternalAction) : Prop where
  id : row'.id = row.id
  effectKey : row'.effectKey = row.effectKey
  subjectType : row'.subjectType = row.subjectType
  subjectId : row'.subjectId = row.subjectId
  payload : row'.payload = row.payload

/-- Two versions of one row with no claim between them. -/
structure SameAttempt (row row' : ExternalAction) : Prop
    extends SameEffect row row' where
  attempts : row'.attempts = row.attempts
  firstAttemptAt : row'.firstAttemptAt = row.firstAttemptAt

theorem SameEffect.refl (row : ExternalAction) : SameEffect row row :=
  ⟨rfl, rfl, rfl, rfl, rfl⟩

theorem SameAttempt.refl (row : ExternalAction) : SameAttempt row row :=
  ⟨.refl row, rfl, rfl⟩

theorem SameEffect.credentialMail {row row' : ExternalAction}
    (h : SameEffect row row') : credentialMail row' = credentialMail row := by
  unfold Outbox.credentialMail payloadText
  rw [h.payload, h.subjectType]

theorem SameEffect.isAlert {row row' : ExternalAction} (h : SameEffect row row') :
    isAlert row' = isAlert row := by
  unfold Dispatch.isAlert
  rw [h.subjectType]

theorem sameEffect_claim (row : ExternalAction) (provider : String) (now : Instant) :
    SameEffect row (row.claim provider now) := ⟨rfl, rfl, rfl, rfl, rfl⟩

theorem sameAttempt_cancel (row : ExternalAction) (code : String) (now : Instant) :
    SameAttempt row (row.cancel code now) := ⟨⟨rfl, rfl, rfl, rfl, rfl⟩, rfl, rfl⟩

theorem sameAttempt_report (row : ExternalAction) (report : DeliveryReport)
    (now : Instant) : SameAttempt row (recordDeliveryReport row report now) := by
  unfold recordDeliveryReport
  split_ifs
  · exact .refl row
  · exact ⟨⟨rfl, rfl, rfl, rfl, rfl⟩, rfl, rfl⟩
  · exact ⟨⟨rfl, rfl, rfl, rfl, rfl⟩, rfl, rfl⟩

theorem sameAttempt_reconcile (row : ExternalAction) (finding : Finding)
    (now : Instant) : SameAttempt row (reconcileMessage row finding now) := by
  unfold reconcileMessage
  split_ifs
  · exact .refl row
  · cases finding <;> exact ⟨⟨rfl, rfl, rfl, rfl, rfl⟩, rfl, rfl⟩

/-! ## The end of an attempt -/

/-- **The end of an attempt**: an `attempting` row gets the outcome its run
learned. It is queued again only after a rejection, and only if another
attempt is allowed. -/
structure EndsAttempt (row copy row' : ExternalAction)
    (answer : Option ProviderResult) : Prop extends SameAttempt row row' where
  source : row.state = .attempting
  target : row'.state ∈ [ExternalActionState.acknowledged, .failed, .outcomeUnknown]
    ∨ (row'.state = .queued ∧ attemptOf copy < maxDeliveryAttempts
      ∧ ∃ code, answer = some (.rejected code true))

theorem settleAlert_ends {row copy : ExternalAction} (now : Instant)
    (answer : Option ProviderResult) (halert : isAlert copy = true)
    (hstate : row.state = .attempting) :
    EndsAttempt row copy (settleAlert row copy now answer) answer := by
  unfold settleAlert
  split
  · exact ⟨⟨⟨rfl, rfl, rfl, rfl, rfl⟩, rfl, rfl⟩, hstate, Or.inl (by simp)⟩
  · exact ⟨⟨⟨rfl, rfl, rfl, rfl, rfl⟩, rfl, rfl⟩, hstate, Or.inl (by simp)⟩
  · next code retryable =>
    split_ifs with hretry
    · rw [Bool.and_eq_true, decide_eq_true_eq] at hretry
      refine ⟨⟨⟨rfl, rfl, rfl, rfl, rfl⟩, rfl, rfl⟩, hstate,
        Or.inr ⟨rfl, ?_, code, by rw [hretry.1]⟩⟩
      rw [attemptOf, if_pos halert]
      exact hretry.2
    · exact ⟨⟨⟨rfl, rfl, rfl, rfl, rfl⟩, rfl, rfl⟩, hstate, Or.inl (by simp)⟩

/-- `finish` changes no row but an `attempting` one. -/
theorem finish_of_ne {row : ExternalAction} (state : ExternalActionState)
    (values : ExternalAction → ExternalAction) (h : row.state ≠ .attempting) :
    finish row state values = row := if_neg h

theorem settleMessage_ends {row copy : ExternalAction} (now : Instant)
    (answer : Option ProviderResult) (halert : isAlert copy = false)
    (hstate : row.state = .attempting) :
    EndsAttempt row copy (settleMessage row copy now answer) answer := by
  unfold settleMessage finish
  split
  · rw [if_pos hstate]
    exact ⟨⟨⟨rfl, rfl, rfl, rfl, rfl⟩, rfl, rfl⟩, hstate, Or.inl (by simp)⟩
  · rw [if_pos hstate]
    exact ⟨⟨⟨rfl, rfl, rfl, rfl, rfl⟩, rfl, rfl⟩, hstate, Or.inl (by simp)⟩
  · next code retryable =>
    split_ifs with hretry
    · rw [Bool.and_eq_true, decide_eq_true_eq] at hretry
      refine ⟨⟨⟨rfl, rfl, rfl, rfl, rfl⟩, rfl, rfl⟩, hstate,
        Or.inr ⟨rfl, ?_, code, by rw [hretry.1]⟩⟩
      rw [attemptOf, halert, if_neg (by decide)]
      exact hretry.2
    · exact ⟨⟨⟨rfl, rfl, rfl, rfl, rfl⟩, rfl, rfl⟩, hstate, Or.inl (by simp)⟩

theorem settleMessage_of_ne {row copy : ExternalAction} (now : Instant)
    (answer : Option ProviderResult) (h : row.state ≠ .attempting) :
    settleMessage row copy now answer = row := by
  unfold settleMessage
  split
  · exact finish_of_ne _ _ h
  · exact finish_of_ne _ _ h
  · split_ifs
    · exact finish_of_ne _ _ h
    · exact finish_of_ne _ _ h

/-- **What recording an answer does.** A digest records it under the lock it
has held since it found the row `attempting`; any other run records it in a
row that is still `attempting` and leaves every other row alone. -/
theorem settleOf_cases {row copy : ExternalAction} (now : Instant)
    (answer : Option ProviderResult)
    (halert : isAlert copy = true → row.state = .attempting) :
    EndsAttempt row copy (settleOf row copy now answer) answer
      ∨ (settleOf row copy now answer = row ∧ row.state ≠ .attempting) := by
  unfold settleOf
  cases h : isAlert copy with
  | true =>
    rw [if_pos rfl]
    exact Or.inl (settleAlert_ends now answer h (halert h))
  | false =>
    rw [if_neg (by decide)]
    by_cases hstate : row.state = .attempting
    · exact Or.inl (settleMessage_ends now answer h hstate)
    · exact Or.inr ⟨settleMessage_of_ne now answer hstate, hstate⟩

/-! ## The end of a run -/

theorem afterCrash_claim? (phase : Phase) : (afterCrash phase).claim? = none := by
  cases phase with
  | answered copy now answer => cases answer <;> rfl
  | _ => rfl

/-- Only a message that was out can still be out. -/
theorem afterCrash_active {phase : Phase} (h : (afterCrash phase).active = true) :
    phase.active = true := by
  cases phase with
  | idle => exact h
  | ended => exact h
  | _ => rfl

/-! ## The kinds of step -/

/-- **A claim**: the row is one attempt further, inside the retry window. -/
structure Claims (row row' copy : ExternalAction) (now : Instant) : Prop
    extends SameEffect row row' where
  source : row.state = .queued
  target : row'.state = .attempting
  attempts : row'.attempts = row.attempts + 1
  attempt : attemptOf copy = row'.attempts
  firstAttemptAt : row'.firstAttemptAt = some (row.firstAttemptAt.getD now)
  window : row.windowPassed now = false
  copy : SameEffect row copy

/-- **What one event can do.** -/
inductive StepCase (w : State) : Event → State → Output → Prop
  | unchanged {e : Event} : StepCase w e w .nothing
  /-- A run ends without touching the row. -/
  | retired {e : Event} {out : Output} (run : RunId) (phase : Phase)
      (hout : out = .nothing ∨ ∃ state, out = .returned state)
      (hphase : phase = .ended ∨ phase = afterCrash (w.runs run)) :
      StepCase w e (w.retire run phase) out
  | acceptedLate (run : RunId) (providerMessageId : String)
      (hrun : w.runs run = .lost false) :
      StepCase w (.acceptedLate run providerMessageId) (w.setRun run (.lost true))
        (.answered (some (.accepted providerMessageId)))
  /-- The claiming transaction cancels the row. -/
  | refused {e : Event} {row : ExternalAction} (run : RunId)
      (hstate : w.row.state = .queued) (hrow : SameAttempt w.row row)
      (hcancelled : row.state = .cancelled) :
      StepCase w e { w.retire run .ended with row := row } (.returned row.state)
  | claimed {row copy : ExternalAction} (run : RunId) (provider : String)
      (now : Instant) (rule : Option AlertRule) (message : MessageReads)
      (alert : CurrentReads) (hrun : w.runs run = .idle) (hholder : w.holder = none)
      (h : Claims w.row row copy now) :
      StepCase w (.claim run provider now rule message alert)
        { w.setRun run (.claimed copy now) with row := row } (.claimed now)
  /-- A run sends without the row's lock. -/
  | sent {e : Event} {copy : ExternalAction} {now : Instant} (run : RunId)
      (message : OutboundMessage) (hrun : w.runs run = .claimed copy now)
      (halert : isAlert copy = false) (hmail : credentialMail copy = false) :
      StepCase w e (w.setRun run (.sending copy now false)) (.sent now message)
  /-- A run sends while it holds the row's lock. -/
  | sentLocked {e : Event} {copy : ExternalAction} {now : Instant} (run : RunId)
      (message : OutboundMessage) (hrun : w.runs run = .claimed copy now)
      (hholder : w.holder = none) (hstate : w.row.state = .attempting) :
      StepCase w e { w.setRun run (.sending copy now true) with holder := some run }
        (.sent now message)
  /-- A run that finds its claim void cancels the row it claimed. -/
  | withdrawn {row copy : ExternalAction} {now : Instant} (run : RunId)
      (linkCurrent : Bool) (currentTime : Instant) (alert : CurrentReads)
      (hrun : w.runs run = .claimed copy now)
      (hstate : w.row.state ∈ [ExternalActionState.queued, .attempting])
      (hrow : SameAttempt w.row row) (hcancelled : row.state = .cancelled) :
      StepCase w (.handoff run linkCurrent currentTime alert)
        { w.retire run .ended with row := row } (.returned .cancelled)
  | answered {copy : ExternalAction} {now : Instant} (run : RunId)
      (answer : Option ProviderResult) (hrun : w.runs run = .sending copy now false) :
      StepCase w (.answer run answer) (w.setRun run (.answered copy now answer))
        (.answered answer)
  /-- A run records the provider's answer. -/
  | settled {e : Event} {out : Output} {copy : ExternalAction} {now : Instant}
      (run : RunId) (answer : Option ProviderResult)
      (hrun : (w.runs run = .sending copy now true ∧ out = .answered answer)
        ∨ (w.runs run = .answered copy now answer
          ∧ out = .returned (settleOf w.row copy now answer).state)) :
      StepCase w e
        { w.retire run (afterAnswer answer) with
          row := settleOf w.row copy now answer } out
  | reported (report : DeliveryReport) (now : Instant) (changed : Bool) :
      StepCase w (.report report now)
        { w with row := recordDeliveryReport w.row report now } (.updated changed)
  | reconciled (finding : Finding) (now : Instant) (changed : Bool)
      (hholder : w.holder = none) :
      StepCase w (.reconcile finding now)
        { w with row := reconcileMessage w.row finding now } (.updated changed)
  | superseded (code : String) (now : Instant) (hstate : w.row.state = .queued) :
      StepCase w (.supersede code now) { w with row := w.row.cancel code now }
        .nothing

variable (env : Platform)

theorem claimOf_claimed {row next copy : ExternalAction} {provider : String}
    {now : Instant} {rule : Option AlertRule} {message : MessageReads}
    {alert : CurrentReads}
    (h : claimOf env row provider now rule message alert = .claimed next copy) :
    Claims row next copy now := by
  unfold claimOf at h
  cases halert : isAlert row with
  | true =>
    rw [halert, if_pos rfl] at h
    obtain ⟨hstate, hwindow, rfl, rfl⟩ := claimAlert_claimed h
    have hattempt : attemptOf { row.claim provider now with updatedAt := now }
        = row.attempts + 1 := if_pos halert
    exact
      { toSameEffect := ⟨rfl, rfl, rfl, rfl, rfl⟩
        source := hstate
        target := rfl
        attempts := rfl
        attempt := hattempt
        firstAttemptAt := rfl
        window := hwindow
        copy := ⟨rfl, rfl, rfl, rfl, rfl⟩ }
  | false =>
    rw [halert, if_neg (by decide)] at h
    split_ifs at h
    obtain ⟨hstate, hwindow, rfl, rfl⟩ := claimMessage_claimed h
    have hattempt : attemptOf copy = copy.attempts + 1 := by
      rw [attemptOf, halert, if_neg (by decide)]
    exact
      { toSameEffect := sameEffect_claim copy provider now
        source := hstate
        target := rfl
        attempts := rfl
        attempt := hattempt
        firstAttemptAt := rfl
        window := hwindow
        copy := .refl copy }

theorem claimOf_cancelled {row next : ExternalAction} {provider : String}
    {now : Instant} {rule : Option AlertRule} {message : MessageReads}
    {alert : CurrentReads}
    (h : claimOf env row provider now rule message alert = .cancelled next) :
    row.state = .queued ∧ SameAttempt row next ∧ next.state = .cancelled := by
  unfold claimOf at h
  split_ifs at h
  · obtain ⟨hstate, code, rfl⟩ := claimAlert_cancelled h
    exact ⟨hstate, sameAttempt_cancel row code alert.clock, rfl⟩
  · obtain ⟨hstate, code, rfl⟩ := claimMessage_cancelled h
    exact ⟨hstate, ⟨⟨rfl, rfl, rfl, rfl, rfl⟩, rfl, rfl⟩, rfl⟩

/-- A digest and a sign-in link are sent by the run whose claim the row is
still in, under the row's lock; other mail without it. -/
theorem handoffOf_send {row copy : ExternalAction} {linkCurrent : Bool}
    {currentTime : Instant} {alert : CurrentReads} {message : OutboundMessage}
    {bounded : Bool}
    (h : handoffOf env row copy linkCurrent currentTime alert = .send message bounded) :
    bounded = (isAlert copy || credentialMail copy)
      ∧ (bounded = true → row.state = .attempting) := by
  unfold handoffOf at h
  cases halert : isAlert copy with
  | true =>
    rw [halert, if_pos rfl] at h
    obtain ⟨hbounded, hstate⟩ := handoffAlert_send h
    exact ⟨hbounded, fun _ => hstate⟩
  | false =>
    rw [halert, if_neg (by decide)] at h
    exact handoffMessage_send h

/-- A cancelled handoff leaves the row or cancels a row that is queued or
attempting. -/
theorem handoffOf_cancelled {row copy next : ExternalAction} {linkCurrent : Bool}
    {currentTime : Instant} {alert : CurrentReads}
    (h : handoffOf env row copy linkCurrent currentTime alert = .cancelled next) :
    next = row ∨ (row.state ∈ [ExternalActionState.queued, .attempting]
      ∧ SameAttempt row next ∧ next.state = .cancelled) := by
  unfold handoffOf at h
  split_ifs at h
  · obtain ⟨code, rfl⟩ := handoffAlert_cancelled h
    unfold Alerts.cancel
    split_ifs with hstate
    · exact Or.inr ⟨hstate, sameAttempt_cancel row code _, rfl⟩
    · exact Or.inl rfl
  · obtain ⟨hstate, rfl⟩ := handoffMessage_cancelled h
    unfold finish
    rw [if_pos hstate]
    refine Or.inr ⟨?_, ⟨⟨rfl, rfl, rfl, rfl, rfl⟩, rfl, rfl⟩, rfl⟩
    rw [hstate]
    decide

theorem claim_cases (w : State) (run : RunId) (provider : String) (now : Instant)
    (rule : Option AlertRule) (message : MessageReads) (alert : CurrentReads) :
    StepCase w (.claim run provider now rule message alert)
      (step env w (.claim run provider now rule message alert)).fst
      (step env w (.claim run provider now rule message alert)).snd := by
  dsimp only [step]
  split
  · next hrun hholder =>
    split
    · exact .retired run .ended (Or.inr ⟨_, rfl⟩) (Or.inl rfl)
    · next row h =>
      obtain ⟨hstate, hrow, hcancelled⟩ := claimOf_cancelled env h
      exact .refused run hstate hrow hcancelled
    · next row copy h =>
      exact .claimed run provider now rule message alert hrun hholder
        (claimOf_claimed env h)
  · exact .unchanged

theorem handoff_cases (w : State) (run : RunId) (linkCurrent : Bool)
    (currentTime : Instant) (alert : CurrentReads) :
    StepCase w (.handoff run linkCurrent currentTime alert)
      (step env w (.handoff run linkCurrent currentTime alert)).fst
      (step env w (.handoff run linkCurrent currentTime alert)).snd := by
  dsimp only [step]
  split
  · next copy now hrun =>
    split
    · next _ message hsend =>
      obtain ⟨hbounded, -⟩ := handoffOf_send env hsend
      rw [eq_comm, Bool.or_eq_false_iff] at hbounded
      exact .sent run message hrun hbounded.1 hbounded.2
    · next message hsend hholder =>
      obtain ⟨-, hstate⟩ := handoffOf_send env hsend
      exact .sentLocked run message hrun hholder (hstate rfl)
    · exact .retired run .ended (Or.inr ⟨_, rfl⟩) (Or.inl rfl)
    · next row hcancelled hholder =>
      rcases handoffOf_cancelled env hcancelled with rfl | ⟨hstate, hrow, hstate'⟩
      · exact .retired run .ended (Or.inr ⟨_, rfl⟩) (Or.inl rfl)
      · exact .withdrawn run linkCurrent currentTime alert hrun hstate hrow hstate'
    · exact .unchanged
  · exact .unchanged

/-- **Every event is one of these.** -/
theorem step_cases (w : State) (e : Event) :
    StepCase w e (step env w e).fst (step env w e).snd := by
  cases e with
  | claim run provider now rule message alert =>
    exact claim_cases env w run provider now rule message alert
  | handoff run linkCurrent currentTime alert =>
    exact handoff_cases env w run linkCurrent currentTime alert
  | answer run answer =>
    dsimp only [step]
    split
    · next copy now hrun => exact .answered run answer hrun
    · next copy now hrun =>
      exact .settled run answer (Or.inl ⟨hrun, rfl⟩)
    · exact .unchanged
  | finish run =>
    dsimp only [step]
    split
    · next copy now answer hrun hholder =>
      exact .settled run answer (Or.inr ⟨hrun, rfl⟩)
    · exact .unchanged
  | crash run =>
    exact .retired run (afterCrash (w.runs run)) (Or.inl rfl) (Or.inr rfl)
  | acceptedLate run providerMessageId =>
    dsimp only [step]
    split
    · next hrun => exact .acceptedLate run providerMessageId hrun
    · exact .unchanged
  | report report now => exact .reported report now _
  | reconcile finding now =>
    dsimp only [step]
    split
    · next hholder => exact .reconciled finding now _ hholder
    · exact .unchanged
  | supersede code now =>
    dsimp only [step]
    split_ifs with hstate
    · exact .superseded code now hstate
    · exact .unchanged

end Dispatch
