import MsRealty.DispatchLaws

/-!
# The states of an external action against its machine

The domain declares `externalActionMachine`, and every writer sets the state
with a conditional update of its own. Over every run the writers follow the
machine with three exceptions, each of them a condition one writer spells
out: a failure report overrules a delivery, a reconciliation may verify a row
that is still `attempting`, and a hand-over that finds its claim void cancels
the row it claimed. A cancelled row stays cancelled, and a verified one can
only fail.
-/

namespace Dispatch

open Outbox Alerts Runs ExternalAction

/-- **What an event may do to the state of a row**: keep it, follow an edge of
the declared machine, or one of the three changes beside it. -/
inductive StateChange : ExternalActionState → Event → ExternalActionState → Prop
  | kept (state : ExternalActionState) (e : Event) : StateChange state e state
  | edge {source target : ExternalActionState} (e : Event)
      (h : externalActionMachine.Edge source target) : StateChange source e target
  /-- A late failure report overrules the delivery. -/
  | lateFailure (report : DeliveryReport) (now : Instant)
      (h : report.delivered = false) :
      StateChange .verified (.report report now) .failed
  /-- A person verifies a row whose run never recorded an answer. -/
  | verifiedByHand (id : Option String) (now : Instant) :
      StateChange .attempting (.reconcile (.verified id) now) .verified
  /-- The hand-over finds that the claim no longer holds. -/
  | withdrawn (run : RunId) (linkCurrent : Bool) (currentTime : Instant)
      (alert : CurrentReads) :
      StateChange .attempting (.handoff run linkCurrent currentTime alert) .cancelled

/-- The end of an attempt follows the machine. -/
theorem EndsAttempt.edge {row copy row' : ExternalAction}
    {answer : Option ProviderResult} (h : EndsAttempt row copy row' answer) :
    externalActionMachine.Edge row.state row'.state := by
  rw [h.source]
  rcases h.target with htarget | ⟨htarget, -⟩
  · simp only [List.mem_cons, List.not_mem_nil, or_false] at htarget
    rcases htarget with htarget | htarget | htarget <;> rw [htarget] <;> decide
  · rw [htarget]
    decide

/-- What a report does to the state. -/
theorem report_change (row : ExternalAction) (report : DeliveryReport) (now : Instant) :
    StateChange row.state (.report report now)
      (recordDeliveryReport row report now).state := by
  cases hmatch : row.matchesReport report with
  | false =>
    rw [Inv.report_of_not_matches hmatch]
    exact .kept _ _
  | true =>
    obtain ⟨hsource, htarget, -⟩ := Inv.report_of_matches now hmatch
    rw [htarget]
    unfold DeliveryReport.sources at hsource
    cases hdelivered : report.delivered with
    | true =>
      rw [hdelivered, if_pos rfl] at hsource
      rw [if_pos rfl]
      rcases List.mem_pair.mp hsource with hstate | hstate <;> rw [hstate] <;>
        exact .edge _ (by decide)
    | false =>
      rw [hdelivered, if_neg (by decide)] at hsource
      rw [if_neg (by decide)]
      simp only [List.mem_cons, List.not_mem_nil, or_false] at hsource
      rcases hsource with hstate | hstate | hstate <;> rw [hstate]
      · exact .edge _ (by decide)
      · exact .edge _ (by decide)
      · exact .lateFailure report now hdelivered

/-- What a reconciliation does to the state. -/
theorem reconcile_change (row : ExternalAction) (finding : Finding) (now : Instant) :
    StateChange row.state (.reconcile finding now)
      (reconcileMessage row finding now).state := by
  cases hawaits : row.awaitsReconciliation with
  | false =>
    rw [Inv.reconcile_of_not_awaits hawaits]
    exact .kept _ _
  | true =>
    rw [(Inv.reconcile_of_awaits finding now hawaits).1]
    have hsource : row.state ∈ [ExternalActionState.attempting, .outcomeUnknown] :=
      of_decide_eq_true hawaits
    rcases List.mem_pair.mp hsource with hstate | hstate <;> rw [hstate]
    · cases finding with
      | acknowledged id =>
        exact .edge _ (by decide : externalActionMachine.Edge .attempting .acknowledged)
      | verified id => exact .verifiedByHand id now
      | failed code =>
        exact .edge _ (by decide : externalActionMachine.Edge .attempting .failed)
    · cases finding with
      | acknowledged id =>
        exact .edge _
          (by decide : externalActionMachine.Edge .outcomeUnknown .acknowledged)
      | verified id =>
        exact .edge _ (by decide : externalActionMachine.Edge .outcomeUnknown .verified)
      | failed code =>
        exact .edge _ (by decide : externalActionMachine.Edge .outcomeUnknown .failed)

/-- **Every event changes the state as the machine and its three exceptions
allow.** -/
theorem change_of_case {w w' : State} {e : Event} {out : Output} (h : Inv w)
    (hcase : StepCase w e w' out) : StateChange w.row.state e w'.row.state := by
  cases hcase with
  | unchanged => exact .kept _ _
  | retired => exact .kept _ _
  | acceptedLate => exact .kept _ _
  | refused run hstate _ hcancelled =>
    dsimp only
    rw [hstate, hcancelled]
    exact .edge _ (by decide)
  | claimed run provider now rule message alert hrun hholder hc =>
    dsimp only
    rw [hc.source, hc.target]
    exact .edge _ (by decide)
  | sent => exact .kept _ _
  | sentLocked => exact .kept _ _
  | withdrawn run linkCurrent currentTime alert _ hstate _ hcancelled =>
    dsimp only
    rw [hcancelled]
    rcases List.mem_pair.mp hstate with hstate | hstate <;> rw [hstate]
    · exact .edge _ (by decide)
    · exact .withdrawn run linkCurrent currentTime alert
  | answered => exact .kept _ _
  | settled run answer hrun =>
    rcases h.settle_cases answer (hrun.imp And.left And.left) with hends | ⟨hsame, -⟩
    · exact .edge _ hends.edge
    · dsimp only
      rw [hsame]
      exact .kept _ _
  | reported report now _ => exact report_change w.row report now
  | reconciled finding now _ _ => exact reconcile_change w.row finding now
  | superseded code now hstate =>
    rw [hstate]
    exact .edge _ (by decide : externalActionMachine.Edge .queued .cancelled)

/-- A cancelled row stays cancelled. -/
theorem StateChange.of_cancelled {e : Event} {target : ExternalActionState}
    (h : StateChange .cancelled e target) : target = .cancelled := by
  cases h with
  | kept => rfl
  | edge _ hedge => exact absurd hedge (Machine.not_edge_of_isTerminal rfl)

/-- A verified row stays verified or fails. -/
theorem StateChange.of_verified {e : Event} {target : ExternalActionState}
    (h : StateChange .verified e target) :
    target ∈ [ExternalActionState.verified, .failed] := by
  cases h with
  | kept => decide
  | edge _ hedge => exact absurd hedge (Machine.not_edge_of_isTerminal rfl)
  | lateFailure => decide

/-- A failed row with an outcome stays failed. -/
theorem StateChange.of_failed {e : Event} {target : ExternalActionState}
    (h : StateChange .failed e target) (hout : target ∈ outcomeStates) :
    target = .failed := by
  cases h with
  | kept => rfl
  | edge _ hedge =>
    rw [Machine.edge_iff] at hedge
    rw [List.mem_singleton.mp hedge.2] at hout
    exact absurd hout (by decide)

/-- **The states of an external action over every run**: each change is kept
to the machine and its three exceptions, a cancelled row stays cancelled, and
a verified one can only fail. -/
theorem stateChanges_of_run (env : Platform) (row : ExternalAction)
    (hrow : Enqueued row) (es : List Event) :
    let h := history (step env) (start row) es
    (∀ m ∈ h, StateChange m.before.row.state m.event m.after.row.state)
      ∧ h.Pairwise (fun m m' => m.after.row.state = .cancelled →
        m'.after.row.state = .cancelled)
      ∧ h.Pairwise (fun m m' => m.after.row.state = .verified →
        m'.after.row.state ∈ [ExternalActionState.verified, .failed]) := by
  have hkeep := keeps_inv env
  have hall : ∀ e ∈ es, (fun _ : Event => True) e := fun _ _ => trivial
  have hinv := inv_start hrow
  have hchange : ∀ w e, Inv w →
      StateChange w.row.state e (step env w e).fst.row.state := fun w e h =>
    change_of_case h (step_cases env w e)
  refine ⟨?_, ?_, ?_⟩
  · exact history_forall hkeep (fun w e _ h => hchange w e h) hall hinv
  · have hstep : ∀ w e, Inv w → w.row.state = .cancelled →
        (step env w e).fst.row.state = .cancelled := by
      intro w e h hstate
      have := hchange w e h
      rw [hstate] at this
      exact this.of_cancelled
    refine history_pairwise
      (Q := fun m s => m.after.row.state = .cancelled → s.row.state = .cancelled)
      hkeep ?_ ?_ ?_ hall hinv
    · exact fun _ _ _ _ hstate => hstate
    · exact fun m w e _ h hQ hstate => hstep w e h (hQ hstate)
    · exact fun m w e _ h hQ hstate => hstep w e h (hQ hstate)
  · have hstep : ∀ w e, Inv w → w.row.state ∈ [ExternalActionState.verified, .failed] →
        (step env w e).fst.row.state ∈ [ExternalActionState.verified, .failed] := by
      intro w e h hstate
      have hthis := hchange w e h
      rcases List.mem_pair.mp hstate with hv | hf
      · rw [hv] at hthis
        exact hthis.of_verified
      · have hout := outcome_step h (step_cases env w e) (by rw [hf]; decide)
        rw [hf] at hthis
        rw [hthis.of_failed hout]
        decide
    refine history_pairwise
      (Q := fun m s => m.after.row.state = .verified →
        s.row.state ∈ [ExternalActionState.verified, .failed])
      hkeep ?_ ?_ ?_ hall hinv
    · intro w e _ _ hstate
      change (step env w e).fst.row.state = .verified at hstate
      rw [hstate]
      decide
    · exact fun m w e _ h hQ hstate => hstep w e h (hQ hstate)
    · exact fun m w e _ h hQ hstate => hstep w e h (hQ hstate)

/-- A message that is delivered and then reported as failed. -/
def lateFailureRun : List Event :=
  [.claim 0 "resend" 10 none ⟨true, true, true⟩ noReads,
    .handoff 0 true 20 noReads,
    .answer 0 (some (.accepted "m1")),
    .finish 0,
    .report ⟨"resend", "m1", true, none⟩ 30,
    .report ⟨"resend", "m1", false, some "email.bounced"⟩ 40]

/-- The changes of the run below. -/
theorem stateChanges_of_lateFailureRun :
    let h := history (step samplePlatform) (start sampleMessage) lateFailureRun
    (∀ m ∈ h, StateChange m.before.row.state m.event m.after.row.state)
      ∧ h.Pairwise (fun m m' => m.after.row.state = .cancelled →
        m'.after.row.state = .cancelled)
      ∧ h.Pairwise (fun m m' => m.after.row.state = .verified →
        m'.after.row.state ∈ [ExternalActionState.verified, .failed]) :=
  stateChanges_of_run samplePlatform sampleMessage ⟨rfl, rfl, rfl, rfl⟩ lateFailureRun

/-- **A verified row fails**, which is no edge of the machine. -/
theorem verified_then_failed :
    ¬ ∀ m ∈ history (step samplePlatform) (start sampleMessage) lateFailureRun,
      m.after.row.state = m.before.row.state
        ∨ externalActionMachine.Edge m.before.row.state m.after.row.state := by
  intro h
  have hlast := h _ (List.mem_of_mem_getLast? (a := _) (by rfl))
  exact absurd hlast (by decide)

end Dispatch
