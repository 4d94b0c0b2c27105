import MsRealty.DispatchRuns

/-!
# How often, when and in which state a message is sent

The laws about whole runs of the work on one action, read off the invariant
with the rules of `MsRealty.Runs`. The code keeps every send inside the claim
it belongs to, with one exception that is by design: mail without a secret is
handed to the provider without looking at the row again, so a person who
reconciles the row between the claim and the hand-over does not stop it.
-/

namespace Dispatch

open Outbox Alerts Runs ExternalAction

/-- The states an attempt or a cancellation leaves a row in. -/
def outcomeStates : List ExternalActionState :=
  [.outcomeUnknown, .acknowledged, .verified, .failed, .cancelled]

/-! ## Steps -/

section Steps

variable {w w' : State} {e : Event} {out : Output}

/-- What starting a send means. -/
structure Starts (w w' : State) (out : Output) (run : RunId) (copy : ExternalAction)
    (now : Instant) (bounded : Bool) : Prop where
  sends : ∃ message, out = .sent now message
  claimed : w.runs run = .claimed copy now
  runs : w'.runs = (w.setRun run (.sending copy now bounded)).runs
  sameRow : w'.row = w.row
  plain : bounded = false → isAlert copy = false ∧ credentialMail copy = false
  locked : bounded = true → w.row.state = .attempting

/-- **A send starts from a claim that has not been used yet.** -/
theorem starts_of_case (hcase : StepCase w e w' out) (hstarts : out.starts = true) :
    ∃ run copy now bounded, Starts w w' out run copy now bounded := by
  cases hcase with
  | unchanged => exact nomatch hstarts
  | retired _ _ hout _ => rcases hout with rfl | ⟨_, rfl⟩ <;> exact nomatch hstarts
  | settled _ _ hrun =>
    rcases hrun with ⟨-, rfl⟩ | ⟨-, rfl⟩ <;> exact nomatch hstarts
  | @sent _ copy now run message hrun halert hmail =>
    exact ⟨run, copy, now, false, ⟨message, rfl⟩, hrun, rfl, rfl,
      fun _ => ⟨halert, hmail⟩, fun h => (nomatch h)⟩
  | @sentLocked _ copy now run message hrun _ hstate =>
    exact ⟨run, copy, now, true, ⟨message, rfl⟩, hrun, rfl, rfl,
      fun h => (nomatch h), fun _ => hstate⟩
  | acceptedLate => exact nomatch hstarts
  | refused => exact nomatch hstarts
  | claimed => exact nomatch hstarts
  | withdrawn => exact nomatch hstarts
  | answered => exact nomatch hstarts
  | reported => exact nomatch hstarts
  | reconciled => exact nomatch hstarts
  | superseded => exact nomatch hstarts

/-- **A claim is made of a queued row.** -/
theorem claims_of_case (hcase : StepCase w e w' out) (hclaims : out.claims = true) :
    ∃ run copy now, out = .claimed now ∧ Claims w.row w'.row copy now
      ∧ w'.runs = (w.setRun run (.claimed copy now)).runs := by
  cases hcase with
  | unchanged => exact nomatch hclaims
  | retired _ _ hout _ => rcases hout with rfl | ⟨_, rfl⟩ <;> exact nomatch hclaims
  | settled _ _ hrun =>
    rcases hrun with ⟨-, rfl⟩ | ⟨-, rfl⟩ <;> exact nomatch hclaims
  | @claimed row copy run provider now rule message alert hrun hholder hc =>
    exact ⟨run, copy, now, rfl, hc, rfl⟩
  | sent => exact nomatch hclaims
  | sentLocked => exact nomatch hclaims
  | acceptedLate => exact nomatch hclaims
  | refused => exact nomatch hclaims
  | withdrawn => exact nomatch hclaims
  | answered => exact nomatch hclaims
  | reported => exact nomatch hclaims
  | reconciled => exact nomatch hclaims
  | superseded => exact nomatch hclaims

/-- **An outcome is for good**: no event takes a row from an outcome back to
the queue or to an attempt. -/
theorem outcome_step (h : Inv w) (hcase : StepCase w e w' out)
    (hstate : w.row.state ∈ outcomeStates) : w'.row.state ∈ outcomeStates := by
  have hqueued : w.row.state ≠ .queued := by
    intro hq
    rw [hq] at hstate
    exact absurd hstate (by decide)
  have hattempting : w.row.state ≠ .attempting := by
    intro ha
    rw [ha] at hstate
    exact absurd hstate (by decide)
  cases hcase with
  | unchanged => exact hstate
  | retired => exact hstate
  | acceptedLate => exact hstate
  | refused run hq _ _ => exact absurd hq hqueued
  | claimed run provider now rule message alert hrun hholder hc =>
    exact absurd hc.source hqueued
  | sent => exact hstate
  | sentLocked => exact hstate
  | withdrawn run linkCurrent currentTime alert hrun hrow _ hcancelled =>
    dsimp only
    rw [hcancelled]
    decide
  | answered => exact hstate
  | settled run answer hrun =>
    rcases h.settle_cases answer (hrun.imp And.left And.left) with hends | ⟨hsame, -⟩
    · exact absurd hends.source hattempting
    · dsimp only
      rw [hsame]
      exact hstate
  | reported report now changed =>
    dsimp only
    cases hmatch : w.row.matchesReport report with
    | false => rw [Inv.report_of_not_matches hmatch]; exact hstate
    | true =>
      rw [(Inv.report_of_matches now hmatch).2.1]
      split_ifs <;> decide
  | reconciled finding now changed _ =>
    dsimp only
    cases hawaits : w.row.awaitsReconciliation with
    | false => rw [Inv.reconcile_of_not_awaits hawaits]; exact hstate
    | true =>
      rw [(Inv.reconcile_of_awaits finding now hawaits).1]
      cases finding <;> simp [Finding.state, outcomeStates]
  | superseded code now hq => exact absurd hq hqueued

/-- **Only a claim makes an unused claim.** -/
theorem unused_step (hcase : StepCase w e w' out) (hclaims : out.claims = false)
    (hnone : ∀ r, (w.runs r).isClaimed = false) :
    ∀ r, (w'.runs r).isClaimed = false := by
  have hset : ∀ run phase, phase.isClaimed = false →
      ∀ r, ((w.setRun run phase).runs r).isClaimed = false := fun run phase hphase =>
    State.forall_setRun (p := fun _ ph => ph.isClaimed = false) hnone hphase
  cases hcase with
  | unchanged => exact hnone
  | retired run phase _ hphase =>
    refine hset run phase ?_
    rcases hphase with rfl | rfl
    · rfl
    · cases w.runs run with
      | answered copy now answer => cases answer <;> rfl
      | _ => rfl
  | acceptedLate run => exact hset run _ rfl
  | refused run => exact hset run _ rfl
  | claimed => exact nomatch hclaims
  | sent run => exact hset run _ rfl
  | sentLocked run => exact hset run _ rfl
  | withdrawn run => exact hset run _ rfl
  | answered run => exact hset run _ rfl
  | settled run answer => exact hset run _ (by cases answer <;> rfl)
  | reported => exact hnone
  | reconciled => exact hnone
  | superseded => exact hnone

/-- **The first attempt stays the first.** -/
theorem firstAttemptAt_step (h : Inv w) (hcase : StepCase w e w' out) {first : Instant}
    (hfirst : w.row.firstAttemptAt = some first) :
    w'.row.firstAttemptAt = some first := by
  cases hcase with
  | unchanged => exact hfirst
  | retired => exact hfirst
  | acceptedLate => exact hfirst
  | refused run _ hrow _ => exact hrow.firstAttemptAt.trans hfirst
  | claimed run provider now rule message alert hrun hholder hc =>
    have hclaim := hc.firstAttemptAt
    rw [hfirst] at hclaim
    exact hclaim
  | sent => exact hfirst
  | sentLocked => exact hfirst
  | withdrawn run _ _ _ _ _ hrow _ => exact hrow.firstAttemptAt.trans hfirst
  | answered => exact hfirst
  | settled run answer hrun =>
    rcases h.settle_cases answer (hrun.imp And.left And.left) with hends | ⟨hsame, -⟩
    · exact hends.firstAttemptAt.trans hfirst
    · dsimp only
      rw [hsame]
      exact hfirst
  | reported report now _ =>
    exact (sameAttempt_report w.row report now).firstAttemptAt.trans hfirst
  | reconciled finding now _ _ =>
    exact (sameAttempt_reconcile w.row finding now).firstAttemptAt.trans hfirst
  | superseded => exact hfirst

/-- The attempts that may still be made of the row, and one more for a claim
that has not been used. -/
noncomputable def sendsLeft (w : State) : ℕ :=
  open Classical in
  (maxDeliveryAttempts - w.row.attempts)
    + (if ∃ r, (w.runs r).isClaimed = true then 1 else 0)

theorem sendsLeft_eq (hnone : ∀ r, (w.runs r).isClaimed = false) :
    sendsLeft w = maxDeliveryAttempts - w.row.attempts := by
  unfold sendsLeft
  rw [if_neg, Nat.add_zero]
  rintro ⟨r, hr⟩
  rw [hnone r] at hr
  exact nomatch hr

theorem sendsLeft_of_claimed {run : RunId} (hrun : (w.runs run).isClaimed = true) :
    sendsLeft w = maxDeliveryAttempts - w.row.attempts + 1 := by
  unfold sendsLeft
  rw [if_pos ⟨run, hrun⟩]

/-- The number of claims of the row. -/
theorem attempts_step (h : Inv w) (hcase : StepCase w e w' out) :
    w'.row.attempts = w.row.attempts + (if out.claims then 1 else 0) := by
  cases hcase with
  | unchanged => rfl
  | retired _ _ hout _ => rcases hout with rfl | ⟨_, rfl⟩ <;> rfl
  | acceptedLate => rfl
  | refused run _ hrow _ => exact hrow.attempts
  | claimed run provider now rule message alert hrun hholder hc => exact hc.attempts
  | sent => rfl
  | sentLocked => rfl
  | withdrawn run _ _ _ _ _ hrow _ => exact hrow.attempts
  | answered => rfl
  | settled run answer hrun =>
    have hclaims : out.claims = false := by
      rcases hrun with ⟨-, rfl⟩ | ⟨-, rfl⟩ <;> rfl
    rw [hclaims]
    rcases h.settle_cases answer (hrun.imp And.left And.left) with hends | ⟨hsame, -⟩
    · exact hends.attempts
    · dsimp only
      rw [hsame]
      rfl
  | reported report now _ => exact (sameAttempt_report w.row report now).attempts
  | reconciled finding now _ _ => exact (sameAttempt_reconcile w.row finding now).attempts
  | superseded => rfl

/-- A started send uses up the one unused claim. -/
theorem unused_of_starts (h : Inv w) {run : RunId} {copy : ExternalAction}
    {now : Instant} {bounded : Bool} (hs : Starts w w' out run copy now bounded) :
    ∀ r, (w'.runs r).isClaimed = false := by
  intro r
  rw [hs.runs]
  by_cases hr : r = run
  · subst hr
    rw [State.setRun_runs_self]
    rfl
  · have hidle := h.not_active_of_ne (by rw [hs.claimed]; rfl) hr
    rw [State.setRun_runs_of_ne w _ hr]
    cases hph : w.runs r with
    | claimed copy' now' => rw [hph] at hidle; exact nomatch hidle
    | _ => rfl

/-- **Every send is paid for**: by the claim it uses up, which an attempt paid
for. -/
theorem sendsLeft_step (h : Inv w) (hcase : StepCase w e w' out) :
    sendsLeft w' + (if out.starts then 1 else 0) ≤ sendsLeft w := by
  have hattempts := attempts_step h hcase
  by_cases hstarts : out.starts = true
  · obtain ⟨run, copy, now, bounded, hs⟩ := starts_of_case hcase hstarts
    have hbefore : sendsLeft w = maxDeliveryAttempts - w.row.attempts + 1 :=
      sendsLeft_of_claimed (by rw [hs.claimed]; rfl)
    rw [sendsLeft_eq (unused_of_starts h hs), if_pos hstarts, hs.sameRow,
      hbefore]
  · rw [if_neg hstarts, Nat.add_zero]
    by_cases hclaims : out.claims = true
    · obtain ⟨run, copy, now, -, hc, hruns⟩ := claims_of_case hcase hclaims
      have hlt := h.attempts_lt hc.source
      have hidle := h.queued hc.source
      have hnone : ∀ r, (w.runs r).isClaimed = false := by
        intro r
        have hr := hidle r
        cases hph : w.runs r with
        | claimed copy' now' => rw [hph] at hr; exact nomatch hr
        | _ => rfl
      have hafter : sendsLeft w' = maxDeliveryAttempts - w'.row.attempts + 1 :=
        sendsLeft_of_claimed (by rw [hruns, State.setRun_runs_self]; rfl)
      rw [sendsLeft_eq hnone, hafter, hc.attempts]
      omega
    · rw [if_neg hclaims, Nat.add_zero] at hattempts
      by_cases hnone : ∀ r, (w.runs r).isClaimed = false
      · rw [sendsLeft_eq hnone,
          sendsLeft_eq (unused_step hcase (by simpa using hclaims) hnone), hattempts]
      · obtain ⟨run, hrun⟩ := not_forall.mp hnone
        have hbefore : sendsLeft w = maxDeliveryAttempts - w.row.attempts + 1 :=
          sendsLeft_of_claimed (by simpa using hrun)
        rw [hbefore, ← hattempts]
        unfold sendsLeft
        split_ifs <;> omega

end Steps

/-! ## Runs -/

/-- **What every run of the work on one message guarantees.** -/
structure OneSendAtATime (h : List ActionMoment) : Prop where
  /-- At most one call of the provider is outstanding. -/
  oneOutstanding : ∀ m ∈ h, ∀ r r', (m.after.runs r).outstanding = true →
    (m.after.runs r').outstanding = true → r = r'
  /-- The provider is called at most `maxDeliveryAttempts` times. -/
  atMost : h.countP (fun m => m.output.starts) ≤ maxDeliveryAttempts
  /-- No claim commits once the row has had an outcome. -/
  noClaim : h.Pairwise (fun m m' => m.after.row.state ∈ outcomeStates →
    m'.output.claims = false)
  /-- No send starts once the outcome was unknown or the row cancelled. -/
  noSend : h.Pairwise (fun m m' =>
    m.after.row.state ∈ [ExternalActionState.outcomeUnknown, .cancelled] →
    m'.output.starts = false)
  /-- A send that starts once the row has had another outcome is of mail
  without a secret, and the row was reconciled by a person. -/
  lateSend : h.Pairwise (fun m m' => m.after.row.state ∈ outcomeStates →
    m'.output.starts = true →
    m'.before.row.state ∈ [ExternalActionState.acknowledged, .verified, .failed]
      ∧ m'.before.row.reconciledAt.isSome = true
      ∧ credentialMail m'.before.row = false)
  /-- Such a send is the last one. -/
  lateSendIsLast : h.Pairwise (fun m m' => m.output.starts = true →
    m.before.row.state ∈ outcomeStates → m'.output.starts = false)
  /-- A send belongs to a claim less than the provider's window after the
  first attempt. -/
  inWindow : h.Pairwise (fun m m' => ∀ first now message,
    m.output = .claimed first → m.before.row.attempts = 0 →
    m'.output = .sent now message → now - first < providerIdempotencyWindowMs)

section Runs

variable (env : Platform) {w : State}

/-- A start of a send at a moment of a run. -/
theorem starts_moment (e : Event)
    (hstarts : (moment (step env) w e).output.starts = true) :
    ∃ run copy now bounded,
      Starts w (step env w e).fst (step env w e).snd run copy now bounded :=
  starts_of_case (step_cases env w e) hstarts

theorem outstanding_active {phase : Phase} (h : phase.outstanding = true) :
    phase.active = true := by
  cases phase with
  | sending copy now bounded => rfl
  | lost accepted => rfl
  | idle => exact nomatch h
  | ended => exact nomatch h
  | claimed copy now => exact nomatch h
  | answered copy now answer => exact nomatch h

theorem one_outstanding (h : Inv w) : ∀ r r', (w.runs r).outstanding = true →
    (w.runs r').outstanding = true → r = r' :=
  fun r r' hr hr' => h.single r r' (outstanding_active hr) (outstanding_active hr')

theorem claims_moment (h : w.row.state ∈ outcomeStates) (e : Event) :
    (moment (step env) w e).output.claims = false := by
  by_contra hclaims
  rw [Bool.not_eq_false] at hclaims
  obtain ⟨_, _, _, -, hc, -⟩ := claims_of_case (step_cases env w e) hclaims
  rw [hc.source] at h
  exact absurd h (by decide)

/-- With an outcome and no unused claim, nothing is sent any more. -/
def Closed (w : State) : Prop :=
  w.row.state ∈ outcomeStates ∧ ∀ r, (w.runs r).isClaimed = false

theorem closed_step (e : Event) (h : Inv w) (hclosed : Closed w) :
    Closed (step env w e).fst :=
  ⟨outcome_step h (step_cases env w e) hclosed.1,
    unused_step (step_cases env w e) (claims_moment env hclosed.1 e) hclosed.2⟩

theorem closed_starts (e : Event) (hclosed : Closed w) :
    (moment (step env) w e).output.starts = false := by
  by_contra hstarts
  obtain ⟨run, copy, now, bounded, hs⟩ := starts_moment env e (by simpa using hstarts)
  have hnone := hclosed.2 run
  rw [hs.claimed] at hnone
  exact nomatch hnone

/-- A row whose outcome is unknown, or that is cancelled, has no unused
claim. -/
theorem closed_of_unknown (h : Inv w)
    (hstate : w.row.state ∈ [ExternalActionState.outcomeUnknown, .cancelled]) :
    Closed w := by
  refine ⟨?_, fun r => ?_⟩
  · rcases List.mem_pair.mp hstate with hstate | hstate <;> rw [hstate] <;> decide
  · by_contra hr
    rcases h.unused r (by simpa using hr) with ha | ⟨hs, -⟩
    · rw [ha] at hstate
      exact absurd hstate (by decide)
    · rcases List.mem_pair.mp hstate with hstate | hstate <;> rw [hstate] at hs <;>
        exact absurd hs (by decide)

/-- A send that starts from a row with an outcome is of mail without a
secret, after a reconciliation. -/
theorem late_send (h : Inv w) (e : Event) (hstate : w.row.state ∈ outcomeStates)
    (hstarts : (moment (step env) w e).output.starts = true) :
    w.row.state ∈ [ExternalActionState.acknowledged, .verified, .failed]
      ∧ w.row.reconciledAt.isSome = true ∧ credentialMail w.row = false := by
  obtain ⟨run, copy, now, bounded, hs⟩ := starts_moment env e hstarts
  have hattempting : w.row.state ≠ .attempting := by
    intro ha
    rw [ha] at hstate
    exact absurd hstate (by decide)
  have hunused := h.unused run (by rw [hs.claimed]; rfl)
  have hclaim := h.claims run copy now (by rw [hs.claimed]; rfl)
  have hbounded : bounded = false := by
    by_contra hb
    exact hattempting (hs.locked (by simpa using hb))
  have hmail := (hs.plain hbounded).2
  rw [hclaim.toSameEffect.credentialMail] at hmail
  rcases hunused with ha | ⟨hs', hreconciled⟩
  · exact absurd ha hattempting
  · exact ⟨hs', hreconciled, hmail⟩

/-- **One message, one send at a time.** Whoever acts when on an enqueued
message, its sends are those of `OneSendAtATime`. -/
theorem oneSendAtATime_of_run (row : ExternalAction) (hrow : Enqueued row)
    (es : List Event) :
    OneSendAtATime (history (step env) (start row) es) := by
  have hkeep := keeps_inv env
  have hall : ∀ e ∈ es, (fun _ : Event => True) e := fun _ _ => trivial
  have hinv := inv_start hrow
  refine
    { oneOutstanding := ?_
      atMost := ?_
      noClaim := ?_
      noSend := ?_
      lateSend := ?_
      lateSendIsLast := ?_
      inWindow := ?_ }
  · exact fun m hm => one_outstanding ((history_invariant hkeep hall hinv m hm).2)
  · refine le_trans (countP_history_le sendsLeft _ hkeep ?_ hall hinv) ?_
    · exact fun w e _ h => sendsLeft_step h (step_cases env w e)
    · rw [sendsLeft_eq (fun _ => rfl)]
      exact Nat.sub_le _ _
  · refine history_pairwise
      (Q := fun m s => m.after.row.state ∈ outcomeStates → s.row.state ∈ outcomeStates)
      hkeep ?_ ?_ ?_ hall hinv
    · exact fun w e _ _ hstate => hstate
    · exact fun m w e _ h hQ hstate => outcome_step h (step_cases env w e) (hQ hstate)
    · exact fun m w e _ _ hQ hstate => claims_moment env (hQ hstate) e
  · refine history_pairwise
      (Q := fun m s =>
        m.after.row.state ∈ [ExternalActionState.outcomeUnknown, .cancelled] → Closed s)
      hkeep ?_ ?_ ?_ hall hinv
    · exact fun w e _ h hstate =>
        closed_of_unknown (inv_step h (step_cases env w e)) hstate
    · exact fun m w e _ h hQ hstate => closed_step env e h (hQ hstate)
    · exact fun m w e _ _ hQ hstate => closed_starts env e (hQ hstate)
  · refine history_pairwise
      (Q := fun m s => m.after.row.state ∈ outcomeStates → s.row.state ∈ outcomeStates)
      hkeep ?_ ?_ ?_ hall hinv
    · exact fun w e _ _ hstate => hstate
    · exact fun m w e _ h hQ hstate => outcome_step h (step_cases env w e) (hQ hstate)
    · exact fun m w e _ h hQ hstate hstarts => late_send env h e (hQ hstate) hstarts
  · refine history_pairwise
      (Q := fun m s => m.output.starts = true → m.before.row.state ∈ outcomeStates →
        Closed s)
      hkeep ?_ ?_ ?_ hall hinv
    · intro w e _ h hstarts hstate
      obtain ⟨run, copy, now, bounded, hs⟩ := starts_moment env e hstarts
      refine ⟨?_, unused_of_starts h hs⟩
      rw [hs.sameRow]
      exact hstate
    · exact fun m w e _ h hQ hstarts hstate => closed_step env e h (hQ hstarts hstate)
    · exact fun m w e _ _ hQ hstarts hstate => closed_starts env e (hQ hstarts hstate)
  · refine history_pairwise
      (Q := fun m s => ∀ first, m.output = .claimed first → m.before.row.attempts = 0 →
        s.row.firstAttemptAt = some first)
      hkeep ?_ ?_ ?_ hall hinv
    · intro w e _ h first hout hzero
      obtain ⟨run, copy, now, hnow, hc, -⟩ :=
        claims_of_case (step_cases env w e) (by
          rw [show (step env w e).snd = .claimed first from hout]; rfl)
      have hsame : now = first := by
        have := hnow.symm.trans hout
        exact Output.claimed.inj this
      have hfirst := hc.firstAttemptAt
      rw [h.unattempted hzero, Option.getD_none, hsame] at hfirst
      exact hfirst
    · exact fun m w e _ h hQ first hout hzero =>
        firstAttemptAt_step h (step_cases env w e) (hQ first hout hzero)
    · intro m w e _ h hQ first now message hout hzero hsent
      obtain ⟨run, copy, now', bounded, hs⟩ := starts_moment env e (by
        rw [hsent]; rfl)
      have hnow : now' = now := by
        obtain ⟨message', hout'⟩ := hs.sends
        have := hout'.symm.trans hsent
        exact (Output.sent.inj this).1
      obtain ⟨first', hfirst', hlt⟩ :=
        (h.claims run copy now' (by rw [hs.claimed]; rfl)).window
      rw [hQ first hout hzero] at hfirst'
      rw [← hnow, Option.some.inj hfirst']
      exact hlt

end Runs

/-! ## A reconciliation between claim and hand-over -/

/-- A platform for the runs below. -/
def samplePlatform : Platform where
  localDate _ _ := .epoch
  hashRequest _ := "d"
  safeParse _ := none
  alertPreferencesUrl origin _ := origin
  toISOString _ := "2026-01-05T00:00:00.000Z"

/-- An enqueued generic message. -/
def sampleMessage : ExternalAction where
  id := "action"
  version := 1
  updatedAt := 0
  kind := .emailSend
  effectKey := "receipt:1"
  subjectType := none
  subjectId := none
  sourceGeneration := none
  payload := .obj [("channel", .str "email"), ("recipient", .str "a@b.bg"),
    ("template", .str "inquiry.receipt"), ("params", .obj [])]
  payloadDigest := "d"
  secretPayload := none
  state := .queued
  attempts := 0
  provider := none
  providerReference := none
  lastErrorCode := none
  firstAttemptAt := none
  lastAttemptAt := none
  acknowledgedAt := none
  verifiedAt := none
  failedAt := none
  reconciledAt := none

/-- What a run that sends no digest reads for one. -/
def noReads : CurrentReads where
  eligible := none
  approval _ := none
  rendered := false
  current _ := []
  clock := 0

/-- A claim, a reconciliation of the claimed row, and then the hand-over. -/
def reconciledRun : List Event :=
  [.claim 0 "resend" 10 none ⟨true, true, true⟩ noReads,
    .reconcile (.failed "not_sent") 20,
    .handoff 0 true 30 noReads]

/-- The laws hold of the run below, whose message is sent late. -/
theorem oneSendAtATime_of_reconciledRun :
    OneSendAtATime (history (step samplePlatform) (start sampleMessage) reconciledRun) :=
  oneSendAtATime_of_run samplePlatform sampleMessage ⟨rfl, rfl, rfl, rfl⟩ reconciledRun

/-- **A message is sent after its row has failed.** The send that starts at
the hand-over does not see that the row was reconciled in between. -/
theorem sent_after_failed :
    ¬ (history (step samplePlatform) (start sampleMessage) reconciledRun).Pairwise
      (fun m m' => m.after.row.state ∈ outcomeStates → m'.output.starts = false) := by
  intro h
  have hlater := (List.pairwise_cons.mp (List.pairwise_cons.mp h).2).1
  have hsilent := hlater _ (List.mem_cons_self) (by decide)
  exact absurd hsilent (by decide)

end Dispatch
