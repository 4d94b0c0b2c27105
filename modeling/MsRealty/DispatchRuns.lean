import MsRealty.DispatchSteps

/-!
# Every interleaving of the dispatch of one action

What holds at every moment of the work on an external action, whoever acts
when. `Dispatch.Inv` is the invariant: at most one run holds a claim, none
does while the row is queued, and the run that does has made the latest
attempt of the row. From it follow the laws about runs: how many messages are
sent, when, and what can no longer happen once the row has an outcome.
-/

namespace Dispatch

open Outbox Alerts Runs ExternalAction

/-! ## The invariant -/

/-- The states a row can be in while a run still holds a claim it has not
used: its own, or one a reconciliation has set. -/
def claimState (row : ExternalAction) : Prop :=
  row.state = .attempting
    ∨ (row.state ∈ [ExternalActionState.acknowledged, .verified, .failed]
      ∧ row.reconciledAt.isSome = true)

/-- What a run with a claim knows of the row. -/
structure ClaimOn (row copy : ExternalAction) (now : Instant) : Prop
    extends SameEffect row copy where
  attempt : attemptOf copy = row.attempts
  window : ∃ first, row.firstAttemptAt = some first
    ∧ now - first < providerIdempotencyWindowMs

/-- **The invariant of the work on one action.** -/
structure Inv (w : State) : Prop where
  /-- At most one run holds a claim. -/
  single : ∀ r r', (w.runs r).active = true → (w.runs r').active = true → r = r'
  /-- No run holds a claim on a queued row. -/
  queued : w.row.state = .queued → ∀ r, (w.runs r).active = false
  /-- The lock is held by the run that sends under it. -/
  holder : ∀ r, w.holder = some r ↔ ∃ copy now, w.runs r = .sending copy now true
  /-- A locked row is attempting. -/
  locked : w.holder ≠ none → w.row.state = .attempting
  /-- A run's claim is on the latest attempt. -/
  claims : ∀ r copy now, (w.runs r).claim? = some (copy, now) → ClaimOn w.row copy now
  /-- An unused claim is still good, or a person has reconciled the row. -/
  unused : ∀ r, (w.runs r).isClaimed = true → claimState w.row
  /-- No run holds a claim on a cancelled row. -/
  live : ∀ r, (w.runs r).active = true → w.row.state ≠ .cancelled
  /-- Only mail without a secret is sent without the lock. -/
  plain : ∀ r copy now, (w.runs r = .sending copy now false
    ∨ ∃ answer, w.runs r = .answered copy now answer) →
    isAlert copy = false ∧ credentialMail copy = false
  attempts_le : w.row.attempts ≤ maxDeliveryAttempts
  attempts_lt : w.row.state = .queued → w.row.attempts < maxDeliveryAttempts
  unattempted : w.row.attempts = 0 → w.row.firstAttemptAt = none

/-- **A row as it is enqueued**, before any attempt. -/
structure Enqueued (row : ExternalAction) : Prop where
  state : row.state = .queued
  attempts : row.attempts = 0
  firstAttemptAt : row.firstAttemptAt = none
  reconciledAt : row.reconciledAt = none

/-- The state before anybody works on the row. -/
def start (row : ExternalAction) : State := ⟨row, fun _ => .idle, none⟩

theorem inv_start {row : ExternalAction} (h : Enqueued row) : Inv (start row) where
  single := fun _ _ hactive => nomatch hactive
  queued := fun _ _ => rfl
  holder := fun _ => ⟨fun hnone => (nomatch hnone), fun ⟨_, _, hidle⟩ => (nomatch hidle)⟩
  locked := fun hnone => absurd rfl hnone
  claims := fun _ _ _ hidle => nomatch hidle
  unused := fun _ hidle => nomatch hidle
  live := fun _ hidle => nomatch hidle
  plain := fun _ _ _ hidle => by
    rcases hidle with hidle | ⟨_, hidle⟩ <;> exact nomatch hidle
  attempts_le := h.attempts.le.trans (Nat.zero_le _)
  attempts_lt := fun _ => h.attempts.le.trans_lt (by decide)
  unattempted := fun _ => h.firstAttemptAt

/-! ## Moving runs -/

namespace State

/-- A law about every run survives the move of one run that satisfies it. -/
theorem forall_setRun {w : State} {run : RunId} {phase : Phase}
    {p : RunId → Phase → Prop} (h : ∀ r, p r (w.runs r)) (hrun : p run phase) (r : RunId) :
    p r ((w.setRun run phase).runs r) := by
  by_cases hr : r = run
  · subst hr
    rw [setRun_runs_self]
    exact hrun
  · rw [setRun_runs_of_ne w phase hr]
    exact h r

@[simp] theorem retire_runs (w : State) (run : RunId) (phase : Phase) :
    (w.retire run phase).runs = (w.setRun run phase).runs := rfl

@[simp] theorem retire_row (w : State) (run : RunId) (phase : Phase) :
    (w.retire run phase).row = w.row := rfl

end State

namespace Inv

variable {w : State}

theorem not_active_of_ne (h : Inv w) {run r : RunId}
    (hrun : (w.runs run).active = true) (hne : r ≠ run) : (w.runs r).active = false := by
  by_contra hactive
  exact hne (h.single r run (by simpa using hactive) hrun)

/-- **Ending a run keeps the invariant.** -/
theorem retire (h : Inv w) {run : RunId} {phase : Phase} (hphase : phase.claim? = none)
    (hactive : phase.active = true → (w.runs run).active = true) :
    Inv (w.retire run phase) := by
  have hback : ∀ r, ((w.setRun run phase).runs r).active = true → (w.runs r).active = true :=
    State.forall_setRun (p := fun r ph => ph.active = true → (w.runs r).active = true)
      (fun _ hr => hr) hactive
  have hclaim : ∀ r copy now, ((w.setRun run phase).runs r).claim? = some (copy, now) →
      r ≠ run ∧ w.runs r = (w.setRun run phase).runs r := by
    intro r copy now hr
    have hne : r ≠ run := by
      rintro rfl
      rw [State.setRun_runs_self, hphase] at hr
      exact nomatch hr
    exact ⟨hne, (State.setRun_runs_of_ne w phase hne).symm⟩
  refine
    { single := fun r r' hr hr' => h.single r r' (hback r hr) (hback r' hr')
      queued := fun hstate r => ?_
      holder := fun r => ?_
      locked := fun hlock => h.locked (fun hnone => hlock ?_)
      claims := fun r copy now hr => ?_
      unused := fun r hr => ?_
      live := fun r hr => h.live r (hback r hr)
      plain := fun r copy now hr => ?_
      attempts_le := h.attempts_le
      attempts_lt := h.attempts_lt
      unattempted := h.unattempted }
  · by_contra hr
    have := h.queued hstate r
    rw [hback r (by simpa using hr)] at this
    exact nomatch this
  · by_cases hr : r = run
    · subst hr
      refine ⟨fun hheld => ?_, fun ⟨copy, now, hsend⟩ => ?_⟩
      · unfold State.retire at hheld
        dsimp only at hheld
        split_ifs at hheld with hcond
        exact absurd hheld hcond
      · rw [State.retire_runs, State.setRun_runs_self] at hsend
        rw [hsend] at hphase
        exact nomatch hphase
    · rw [State.retire_runs, State.setRun_runs_of_ne w phase hr, ← h.holder r]
      unfold State.retire
      dsimp only
      split_ifs with hcond
      · refine ⟨fun hnone => (nomatch hnone), fun hheld => ?_⟩
        rw [hcond] at hheld
        exact absurd (Option.some.inj hheld).symm hr
      · exact Iff.rfl
  · unfold State.retire
    dsimp only
    rw [hnone]
    exact ite_self none
  · obtain ⟨-, hsame⟩ := hclaim r copy now hr
    exact h.claims r copy now (by rw [hsame]; exact hr)
  · have hr' : ∃ copy now, ((w.setRun run phase).runs r).claim? = some (copy, now) := by
      rw [State.retire_runs] at hr
      cases hph : (w.setRun run phase).runs r with
      | claimed copy now => exact ⟨copy, now, rfl⟩
      | _ => rw [hph] at hr; exact nomatch hr
    obtain ⟨copy, now, hr'⟩ := hr'
    obtain ⟨-, hsame⟩ := hclaim r copy now hr'
    exact h.unused r (by rw [hsame]; exact hr)
  · have hr' : ((w.setRun run phase).runs r).claim? = some (copy, now) := by
      rw [State.retire_runs] at hr
      rcases hr with hr | ⟨answer, hr⟩ <;> rw [hr] <;> rfl
    obtain ⟨-, hsame⟩ := hclaim r copy now hr'
    exact h.plain r copy now (by rw [hsame]; exact hr)

/-- **Going on with a claim keeps the invariant**: the run that is active goes
on, without the lock. -/
theorem advance (h : Inv w) {run : RunId} {phase : Phase}
    (hrun : (w.runs run).active = true) (hlock : w.holder ≠ some run)
    (hclaim : phase.claim? = (w.runs run).claim?) (hunused : phase.isClaimed = false)
    (hfree : ∀ copy now, phase ≠ .sending copy now true)
    (hplain : ∀ copy now, (phase = .sending copy now false
      ∨ ∃ answer, phase = .answered copy now answer) →
      isAlert copy = false ∧ credentialMail copy = false) :
    Inv (w.setRun run phase) := by
  have hback : ∀ r, ((w.setRun run phase).runs r).active = true → (w.runs r).active = true :=
    State.forall_setRun (p := fun r ph => ph.active = true → (w.runs r).active = true)
      (fun _ hr => hr) (fun _ => hrun)
  exact
    { single := fun r r' hr hr' => h.single r r' (hback r hr) (hback r' hr')
      queued := fun hstate r => by
        have hidle := h.queued hstate run
        rw [hrun] at hidle
        exact nomatch hidle
      holder := State.forall_setRun
        (p := fun r ph => w.holder = some r ↔ ∃ copy now, ph = .sending copy now true)
        h.holder
        ⟨fun hheld => absurd hheld hlock,
          fun ⟨copy, now, hsend⟩ => absurd hsend (hfree copy now)⟩
      locked := h.locked
      claims := State.forall_setRun
        (p := fun _ ph => ∀ copy now, ph.claim? = some (copy, now) →
          ClaimOn w.row copy now)
        h.claims (fun copy now hph => h.claims run copy now (by rw [← hclaim]; exact hph))
      unused := State.forall_setRun
        (p := fun _ ph => ph.isClaimed = true → claimState w.row)
        h.unused (fun hph => by rw [hunused] at hph; exact nomatch hph)
      live := fun r hr => h.live r (hback r hr)
      plain := State.forall_setRun
        (p := fun _ ph => ∀ copy now, (ph = .sending copy now false
          ∨ ∃ answer, ph = .answered copy now answer) →
          isAlert copy = false ∧ credentialMail copy = false)
        h.plain hplain
      attempts_le := h.attempts_le
      attempts_lt := h.attempts_lt
      unattempted := h.unattempted }

/-- **Changing the row keeps the invariant**, within one attempt: a row may be
queued or cancelled only when no run holds a claim, a locked row stays
attempting, and an unused claim must be accounted for. -/
theorem setRow (h : Inv w) {row : ExternalAction} (hrow : SameAttempt w.row row)
    (hqueued : row.state = .queued → (∀ r, (w.runs r).active = false)
      ∧ row.attempts < maxDeliveryAttempts)
    (hlive : row.state = .cancelled → ∀ r, (w.runs r).active = false)
    (hlock : w.holder ≠ none → row.state = .attempting)
    (hunused : ∀ r, (w.runs r).isClaimed = true → claimState row) :
    Inv { w with row := row } where
  single := h.single
  queued := fun hstate => (hqueued hstate).1
  holder := h.holder
  locked := hlock
  claims := fun r copy now hr => by
    have hclaim := h.claims r copy now hr
    exact
      { id := hclaim.id.trans hrow.id.symm
        effectKey := hclaim.effectKey.trans hrow.effectKey.symm
        subjectType := hclaim.subjectType.trans hrow.subjectType.symm
        subjectId := hclaim.subjectId.trans hrow.subjectId.symm
        payload := hclaim.payload.trans hrow.payload.symm
        attempt := hclaim.attempt.trans hrow.attempts.symm
        window := by
          rw [hrow.firstAttemptAt]
          exact hclaim.window }
  unused := hunused
  live := fun r hr hcancelled => by
    rw [hlive hcancelled r] at hr
    exact nomatch hr
  plain := h.plain
  attempts_le := hrow.attempts.le.trans h.attempts_le
  attempts_lt := fun hstate => (hqueued hstate).2
  unattempted := fun hzero => by
    rw [hrow.firstAttemptAt]
    exact h.unattempted (hrow.attempts.symm.trans hzero)

/-- A run that does not send under the lock does not hold it. -/
theorem holder_ne (h : Inv w) {run : RunId}
    (hrun : ∀ copy now, w.runs run ≠ .sending copy now true) : w.holder ≠ some run := by
  intro hheld
  obtain ⟨copy, now, hsend⟩ := (h.holder run).mp hheld
  exact hrun copy now hsend

/-- While a run holds a claim and not the lock, nobody holds the lock. -/
theorem holder_eq_none (h : Inv w) {run : RunId} (hrun : (w.runs run).active = true)
    (hfree : ∀ copy now, w.runs run ≠ .sending copy now true) : w.holder = none := by
  cases hheld : w.holder with
  | none => rfl
  | some r =>
    obtain ⟨copy, now, hsend⟩ := (h.holder r).mp hheld
    have hsame : r = run := h.single r run (by rw [hsend]; rfl) hrun
    subst hsame
    exact absurd hsend (hfree copy now)

theorem holder_none_of_state (h : Inv w) (hstate : w.row.state ≠ .attempting) :
    w.holder = none := by
  by_contra hheld
  exact hstate (h.locked hheld)

/-- Once an active run is over, no run has an unused claim. -/
theorem retire_unused (h : Inv w) {run : RunId} (phase : Phase)
    (hrun : (w.runs run).active = true) (hphase : phase.isClaimed = false) (r : RunId) :
    ((w.retire run phase).runs r).isClaimed = false := by
  rw [State.retire_runs]
  by_cases hr : r = run
  · subst hr
    rw [State.setRun_runs_self]
    exact hphase
  · have hidle := h.not_active_of_ne hrun hr
    rw [State.setRun_runs_of_ne w phase hr]
    cases hph : w.runs r with
    | claimed copy now => rw [hph] at hidle; exact nomatch hidle
    | _ => rfl

/-- Once an active run has ended, no run is active. -/
theorem retire_inactive (h : Inv w) {run : RunId}
    (hrun : (w.runs run).active = true) (r : RunId) :
    ((w.retire run .ended).runs r).active = false := by
  rw [State.retire_runs]
  by_cases hr : r = run
  · subst hr
    rw [State.setRun_runs_self]
    rfl
  · rw [State.setRun_runs_of_ne w .ended hr]
    exact h.not_active_of_ne hrun hr

/-- The lock is free once the run that may hold it is over. -/
theorem retire_holder (h : Inv w) {run : RunId} (phase : Phase)
    (hrun : (w.runs run).active = true) : (w.retire run phase).holder = none := by
  unfold State.retire
  dsimp only
  split_ifs with hheld
  · rfl
  · exact h.holder_eq_none hrun (fun copy now hsend =>
      hheld ((h.holder run).mpr ⟨copy, now, hsend⟩))

/-! ## Every event keeps the invariant -/

theorem refused (h : Inv w) {run : RunId} {row : ExternalAction}
    (hstate : w.row.state = .queued) (hrow : SameAttempt w.row row)
    (hcancelled : row.state = .cancelled) :
    Inv { w.retire run .ended with row := row } := by
  have hretire : Inv (w.retire run .ended) := h.retire rfl (fun hr => nomatch hr)
  have hnone : (w.retire run .ended).holder = none :=
    hretire.holder_none_of_state (by rw [State.retire_row, hstate]; decide)
  refine hretire.setRow hrow (fun hq => ?_) (fun _ => hretire.queued hstate)
    (fun hheld => absurd hnone hheld) (fun r hr => ?_)
  · rw [hcancelled] at hq
    exact nomatch hq
  · have hidle := hretire.queued hstate r
    cases hph : (w.retire run .ended).runs r with
    | claimed copy now => rw [hph] at hidle; exact nomatch hidle
    | _ => rw [hph] at hr; exact nomatch hr

theorem claimed (h : Inv w) {run : RunId} {now : Instant} {row copy : ExternalAction}
    (hc : Claims w.row row copy now) :
    Inv { w.setRun run (.claimed copy now) with row := row } := by
  have hidle := h.queued hc.source
  have hnone : w.holder = none :=
    h.holder_none_of_state (by rw [hc.source]; decide)
  have hnew : ClaimOn row copy now :=
    { id := hc.copy.id.trans hc.id.symm
      effectKey := hc.copy.effectKey.trans hc.effectKey.symm
      subjectType := hc.copy.subjectType.trans hc.subjectType.symm
      subjectId := hc.copy.subjectId.trans hc.subjectId.symm
      payload := hc.copy.payload.trans hc.payload.symm
      attempt := hc.attempt
      window := by
        rw [hc.firstAttemptAt]
        refine ⟨_, rfl, ?_⟩
        have hwindow := hc.window
        unfold windowPassed at hwindow
        cases hfirst : w.row.firstAttemptAt with
        | none =>
          rw [Option.getD_none, Int.sub_self]
          decide
        | some first =>
          rw [hfirst] at hwindow
          simpa using hwindow }
  -- Only the claiming run is active, so what is asked of a run is asked of it.
  have honly : ∀ r, ((w.setRun run (.claimed copy now)).runs r).active = true → r = run := by
    intro r hr
    by_contra hne
    rw [State.setRun_runs_of_ne w _ hne, hidle r] at hr
    exact nomatch hr
  have hphase : ∀ r, ((w.setRun run (.claimed copy now)).runs r).active = true →
      (w.setRun run (.claimed copy now)).runs r = .claimed copy now := by
    intro r hr
    rw [honly r hr, State.setRun_runs_self]
  refine
    { single := fun r r' hr hr' => (honly r hr).trans (honly r' hr').symm
      queued := fun hq => ?_
      holder := fun r => ?_
      locked := fun hheld => absurd hnone hheld
      claims := fun r copy' now' hr => ?_
      unused := fun _ _ => Or.inl hc.target
      live := fun _ _ hcancelled => ?_
      plain := fun r copy' now' hr => ?_
      attempts_le := ?_
      attempts_lt := fun hq => ?_
      unattempted := fun hzero => ?_ }
  · rw [hc.target] at hq
    exact nomatch hq
  · refine ⟨fun hheld => ?_, fun ⟨copy', now', hsend⟩ => ?_⟩
    · dsimp only [State.setRun] at hheld
      rw [hnone] at hheld
      exact nomatch hheld
    · have := hphase r (by dsimp only at hsend; rw [hsend]; rfl)
      dsimp only at hsend
      rw [hsend] at this
      exact nomatch this
  · have hactive : ((w.setRun run (.claimed copy now)).runs r).active = true := by
      dsimp only at hr
      cases hph : (w.setRun run (.claimed copy now)).runs r with
      | idle => rw [hph] at hr; exact nomatch hr
      | ended => rw [hph] at hr; exact nomatch hr
      | _ => rfl
    dsimp only at hr
    rw [hphase r hactive] at hr
    cases hr
    exact hnew
  · rw [hc.target] at hcancelled
    exact nomatch hcancelled
  · dsimp only at hr
    have hactive : ((w.setRun run (.claimed copy now)).runs r).active = true := by
      rcases hr with hr | ⟨answer, hr⟩ <;> rw [hr] <;> rfl
    rw [hphase r hactive] at hr
    rcases hr with hr | ⟨answer, hr⟩ <;> exact nomatch hr
  · rw [hc.attempts]
    exact Nat.succ_le_of_lt (h.attempts_lt hc.source)
  · rw [hc.target] at hq
    exact nomatch hq
  · rw [hc.attempts] at hzero
    exact nomatch hzero

theorem sentLocked (h : Inv w) {run : RunId} {copy : ExternalAction} {now : Instant}
    (hrun : w.runs run = .claimed copy now) (hholder : w.holder = none)
    (hstate : w.row.state = .attempting) :
    Inv { w.setRun run (.sending copy now true) with holder := some run } := by
  have hactive : (w.runs run).active = true := by rw [hrun]; rfl
  have hback : ∀ r, ((w.setRun run (.sending copy now true)).runs r).active = true →
      (w.runs r).active = true :=
    State.forall_setRun (p := fun r ph => ph.active = true → (w.runs r).active = true)
      (fun _ hr => hr) (fun _ => hactive)
  refine
    { single := fun r r' hr hr' => h.single r r' (hback r hr) (hback r' hr')
      queued := fun hq => ?_
      holder := fun r => ?_
      locked := fun _ => hstate
      claims := State.forall_setRun
        (p := fun _ ph => ∀ copy now, ph.claim? = some (copy, now) →
          ClaimOn w.row copy now)
        h.claims (fun copy' now' hph => h.claims run copy' now' (by rw [hrun]; exact hph))
      unused := fun _ _ => Or.inl hstate
      live := fun r hr => h.live r (hback r hr)
      plain := State.forall_setRun
        (p := fun _ ph => ∀ copy now, (ph = .sending copy now false
          ∨ ∃ answer, ph = .answered copy now answer) →
          isAlert copy = false ∧ credentialMail copy = false)
        h.plain (fun _ _ hph => ?_)
      attempts_le := h.attempts_le
      attempts_lt := h.attempts_lt
      unattempted := h.unattempted }
  · dsimp only [State.setRun] at hq
    rw [hstate] at hq
    exact nomatch hq
  · by_cases hr : r = run
    · subst hr
      refine ⟨fun _ => ⟨copy, now, ?_⟩, fun _ => rfl⟩
      exact State.setRun_runs_self w r _
    · refine ⟨fun hheld => absurd (Option.some.inj hheld).symm hr, fun hsend => ?_⟩
      dsimp only at hsend
      rw [State.setRun_runs_of_ne w _ hr, ← h.holder r, hholder] at hsend
      exact nomatch hsend
  · rcases hph with hph | ⟨answer, hph⟩ <;> exact nomatch hph

/-- Recording an answer ends the row's attempt, or comes too late and leaves
the row alone. -/
theorem settle_cases (h : Inv w) {run : RunId} {copy : ExternalAction} {now : Instant}
    (answer : Option ProviderResult)
    (hrun : w.runs run = .sending copy now true
      ∨ w.runs run = .answered copy now answer) :
    EndsAttempt w.row copy (settleOf w.row copy now answer) answer
      ∨ (settleOf w.row copy now answer = w.row ∧ w.row.state ≠ .attempting) := by
  refine settleOf_cases now answer (fun halert => ?_)
  rcases hrun with hrun | hrun
  · refine h.locked ?_
    rw [(h.holder run).mpr ⟨copy, now, hrun⟩]
    exact Option.some_ne_none run
  · rw [(h.plain run copy now (Or.inr ⟨answer, hrun⟩)).1] at halert
    exact nomatch halert

theorem settled (h : Inv w) {run : RunId} {copy : ExternalAction} {now : Instant}
    (answer : Option ProviderResult)
    (hrun : w.runs run = .sending copy now true
      ∨ w.runs run = .answered copy now answer) :
    Inv { w.retire run (afterAnswer answer) with
      row := settleOf w.row copy now answer } := by
  have hactive : (w.runs run).active = true := by
    rcases hrun with hrun | hrun <;> rw [hrun] <;> rfl
  have hclaim : ClaimOn w.row copy now := by
    refine h.claims run copy now ?_
    rcases hrun with hrun | hrun <;> rw [hrun] <;> rfl
  have hretire : Inv (w.retire run (afterAnswer answer)) :=
    h.retire (by cases answer <;> rfl) (fun _ => hactive)
  have hnone := h.retire_holder (afterAnswer answer) hactive
  have hunused := h.retire_unused (afterAnswer answer) hactive
    (by cases answer <;> rfl)
  rcases h.settle_cases answer hrun with hends | ⟨hsame, hstate⟩
  · refine hretire.setRow hends.toSameAttempt (fun hq => ?_) (fun hcancelled => ?_)
      (fun hheld => absurd hnone hheld) (fun r hr => ?_)
    · rcases hends.target with htarget | ⟨-, hlt, code, rfl⟩
      · rw [hq] at htarget
        exact absurd htarget (by decide)
      · refine ⟨h.retire_inactive hactive, ?_⟩
        rw [hends.attempts, ← hclaim.attempt]
        exact hlt
    · rcases hends.target with htarget | ⟨htarget, -⟩
      · rw [hcancelled] at htarget
        exact absurd htarget (by decide)
      · rw [hcancelled] at htarget
        exact nomatch htarget
    · rw [hunused r] at hr
      exact nomatch hr
  · rw [hsame]
    refine hretire.setRow (.refl _) (fun hq => ?_)
      (fun hcancelled => absurd hcancelled (h.live run hactive))
      (fun hheld => absurd hnone hheld) (fun r hr => ?_)
    · have := h.queued hq run
      rw [hactive] at this
      exact nomatch this
    · rw [hunused r] at hr
      exact nomatch hr

theorem withdrawn (h : Inv w) {run : RunId} {row copy : ExternalAction} {now : Instant}
    (hrun : w.runs run = .claimed copy now) (hrow : SameAttempt w.row row)
    (hcancelled : row.state = .cancelled) :
    Inv { w.retire run .ended with row := row } := by
  have hactive : (w.runs run).active = true := by rw [hrun]; rfl
  have hretire : Inv (w.retire run .ended) := h.retire rfl (fun hr => nomatch hr)
  have hunused := h.retire_unused .ended hactive rfl
  refine hretire.setRow hrow (fun hq => ?_) (fun _ => h.retire_inactive hactive)
    (fun hheld => absurd (h.retire_holder .ended hactive) hheld) (fun r hr => ?_)
  · rw [hcancelled] at hq
    exact nomatch hq
  · rw [hunused r] at hr
    exact nomatch hr

/-- A row that a report does not match is left alone. -/
theorem report_of_not_matches {row : ExternalAction} {report : DeliveryReport}
    {now : Instant} (h : row.matchesReport report = false) :
    recordDeliveryReport row report now = row := by
  unfold recordDeliveryReport
  rw [h]
  rfl

/-- **What a report does**: it moves on a row the provider has taken, to the
state it reports. -/
theorem report_of_matches {row : ExternalAction} {report : DeliveryReport}
    (now : Instant) (h : row.matchesReport report = true) :
    row.state ∈ report.sources
      ∧ (recordDeliveryReport row report now).state
        = (if report.delivered then .verified else .failed)
      ∧ (recordDeliveryReport row report now).reconciledAt = row.reconciledAt := by
  have hsource : row.state ∈ report.sources := by
    unfold matchesReport at h
    exact (of_decide_eq_true h).2.2
  refine ⟨hsource, ?_⟩
  unfold recordDeliveryReport
  rw [h, if_neg (by decide)]
  cases report.delivered <;> exact ⟨rfl, rfl⟩

theorem mem_sources {report : DeliveryReport} {state : ExternalActionState}
    (h : state ∈ report.sources) :
    state ∈ [ExternalActionState.acknowledged, .outcomeUnknown, .verified] := by
  unfold DeliveryReport.sources at h
  split_ifs at h
  · exact List.mem_append_left [ExternalActionState.verified] h
  · exact h

theorem reported (h : Inv w) (report : DeliveryReport) (now : Instant) :
    Inv { w with row := recordDeliveryReport w.row report now } := by
  cases hmatch : w.row.matchesReport report with
  | false =>
    rw [report_of_not_matches hmatch]
    exact h
  | true =>
    obtain ⟨hsource, htarget, hreconciled⟩ := report_of_matches now hmatch
    have hfree : w.row.state ≠ .attempting := by
      intro hstate
      have := mem_sources hsource
      rw [hstate] at this
      exact absurd this (by decide)
    refine h.setRow (sameAttempt_report w.row report now) (fun hq => ?_)
      (fun hcancelled => ?_) (fun hheld => absurd (h.holder_none_of_state hfree) hheld)
      (fun r hr => ?_)
    · rw [htarget] at hq
      split_ifs at hq
    · rw [htarget] at hcancelled
      split_ifs at hcancelled
    · rcases h.unused r hr with hstate | ⟨-, hsome⟩
      · exact absurd hstate hfree
      · refine Or.inr ⟨?_, by rw [hreconciled]; exact hsome⟩
        rw [htarget]
        split_ifs <;> decide

/-- **What a reconciliation does**: it sets the state it found and the time. -/
theorem reconcile_of_awaits {row : ExternalAction} (finding : Finding) (now : Instant)
    (h : row.awaitsReconciliation = true) :
    (reconcileMessage row finding now).state = finding.state
      ∧ (reconcileMessage row finding now).reconciledAt = some now := by
  unfold reconcileMessage
  rw [h, if_neg (by decide)]
  exact ⟨rfl, rfl⟩

theorem reconcile_of_not_awaits {row : ExternalAction} {finding : Finding}
    {now : Instant} (h : row.awaitsReconciliation = false) :
    reconcileMessage row finding now = row := by
  unfold reconcileMessage
  rw [h]
  rfl

theorem reconciled (h : Inv w) (finding : Finding) (now : Instant)
    (hholder : w.holder = none) :
    Inv { w with row := reconcileMessage w.row finding now } := by
  cases hawaits : w.row.awaitsReconciliation with
  | false =>
    rw [reconcile_of_not_awaits hawaits]
    exact h
  | true =>
    obtain ⟨hstate, hreconciled⟩ :=
      reconcile_of_awaits finding now hawaits
    refine h.setRow (sameAttempt_reconcile w.row finding now) (fun hq => ?_)
      (fun hcancelled => ?_) (fun hheld => absurd hholder hheld)
      (fun _ _ => Or.inr ⟨?_, by rw [hreconciled]; rfl⟩)
    · rw [hstate] at hq
      cases finding <;> exact nomatch hq
    · rw [hstate] at hcancelled
      cases finding <;> exact nomatch hcancelled
    · rw [hstate]
      cases finding <;> simp [Finding.state]

theorem superseded (h : Inv w) (code : String) (now : Instant)
    (hstate : w.row.state = .queued) :
    Inv { w with row := w.row.cancel code now } := by
  refine h.setRow (sameAttempt_cancel w.row code now) (fun hq => nomatch hq)
    (fun _ => h.queued hstate)
    (fun hheld => absurd (h.holder_none_of_state (by rw [hstate]; decide)) hheld)
    (fun r hr => ?_)
  have hidle := h.queued hstate r
  cases hph : w.runs r with
  | claimed copy now => rw [hph] at hidle; exact nomatch hidle
  | _ => rw [hph] at hr; exact nomatch hr

end Inv

/-- **Every event keeps the invariant.** -/
theorem inv_step {w w' : State} {e : Event} {out : Output} (h : Inv w)
    (hcase : StepCase w e w' out) : Inv w' := by
  cases hcase with
  | unchanged => exact h
  | retired run phase _ hphase =>
    rcases hphase with rfl | rfl
    · exact h.retire rfl (fun hactive => nomatch hactive)
    · exact h.retire (afterCrash_claim? _) afterCrash_active
  | acceptedLate run providerMessageId hrun =>
    refine h.advance (by rw [hrun]; rfl) (h.holder_ne (fun _ _ hsend => ?_))
      (by rw [hrun]; rfl) rfl (fun _ _ hph => nomatch hph) (fun _ _ hph => ?_)
    · rw [hrun] at hsend
      exact nomatch hsend
    · rcases hph with hph | ⟨answer, hph⟩ <;> exact nomatch hph
  | refused run hstate hrow hcancelled => exact h.refused hstate hrow hcancelled
  | claimed run provider now rule message alert hrun hholder hc => exact h.claimed hc
  | sent run message hrun halert hmail =>
    refine h.advance (by rw [hrun]; rfl) (h.holder_ne (fun _ _ hsend => ?_))
      (by rw [hrun]; rfl) rfl (fun _ _ hph => nomatch hph) (fun _ _ hph => ?_)
    · rw [hrun] at hsend
      exact nomatch hsend
    · rcases hph with hph | ⟨answer, hph⟩
      · cases hph
        exact ⟨halert, hmail⟩
      · exact nomatch hph
  | sentLocked run message hrun hholder hstate => exact h.sentLocked hrun hholder hstate
  | withdrawn run linkCurrent currentTime alert hrun hstate hrow hcancelled =>
    exact h.withdrawn hrun hrow hcancelled
  | answered run answer hrun =>
    have hplain := h.plain run _ _ (Or.inl hrun)
    refine h.advance (by rw [hrun]; rfl) (h.holder_ne (fun _ _ hsend => ?_))
      (by rw [hrun]; rfl) rfl (fun _ _ hph => nomatch hph) (fun _ _ hph => ?_)
    · rw [hrun] at hsend
      exact nomatch hsend
    · rcases hph with hph | ⟨answer, hph⟩
      · exact nomatch hph
      · cases hph
        exact hplain
  | settled run answer hrun =>
    exact h.settled answer (hrun.imp And.left And.left)
  | reported report now changed => exact h.reported report now
  | reconciled finding now changed hholder => exact h.reconciled finding now hholder
  | superseded code now hstate => exact h.superseded code now hstate

theorem keeps_inv (env : Platform) : Keeps (step env) (fun _ => True) Inv :=
  fun w e _ h => inv_step h (step_cases env w e)

end Dispatch
