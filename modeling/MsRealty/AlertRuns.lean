import MsRealty.AlertLedger
import MsRealty.DispatchEdges

/-!
# One digest for each subscription and period

Over every interleaving of planning runs, dispatch runs, reports,
reconciliations and rule changes, with every outcome of what they read
elsewhere and every clock: the digests of one subscription and period have at
most one that is not cancelled, and the provider accepts at most one of them.

The first half is the planner's, which queues a digest only when no other
reserves the period, together with the fact that a cancelled action stays
cancelled. The second half is the dispatcher's: once the provider has
accepted a digest its action is *spent* – it is neither queued nor cancelled,
and no run can send it again – so that the period stays reserved.
-/

namespace Alerts

open Outbox ExternalAction JsonValue Dispatch Runs

/-! ## Planning -/

/-- A row after a review: itself, or cancelled while it was queued. -/
def ReviewedRow (r r' : ExternalAction) : Prop :=
  r' = r ∨ (r.state = .queued ∧ ∃ code clock, r' = r.cancel code clock)

theorem ReviewedRow.id {r r' : ExternalAction} (h : ReviewedRow r r') : r'.id = r.id := by
  rcases h with rfl | ⟨-, code, clock, rfl⟩ <;> rfl

theorem ReviewedRow.trans {r r' r'' : ExternalAction} (h : ReviewedRow r r')
    (h' : ReviewedRow r' r'') : ReviewedRow r r'' := by
  rcases h with rfl | ⟨hq, code, clock, rfl⟩
  · exact h'
  · rcases h' with rfl | ⟨hq', -⟩
    · exact Or.inr ⟨hq, code, clock, rfl⟩
    · exact nomatch hq'

/-- **A reviewed ledger** has the same rows, some of the queued ones
cancelled. -/
structure Reviewed (t t' : Ledger) : Prop where
  back : ∀ r' ∈ t'.rows, ∃ r ∈ t.rows, ReviewedRow r r'
  forth : ∀ r ∈ t.rows, ∃ r' ∈ t'.rows, ReviewedRow r r'

theorem Reviewed.refl (t : Ledger) : Reviewed t t :=
  ⟨fun r h => ⟨r, h, Or.inl rfl⟩, fun r h => ⟨r, h, Or.inl rfl⟩⟩

theorem Reviewed.trans {t t' t'' : Ledger} (h : Reviewed t t') (h' : Reviewed t' t'') :
    Reviewed t t'' where
  back := fun r'' hr'' => by
    obtain ⟨r', hr', hrow'⟩ := h'.back r'' hr''
    obtain ⟨r, hr, hrow⟩ := h.back r' hr'
    exact ⟨r, hr, hrow.trans hrow'⟩
  forth := fun r hr => by
    obtain ⟨r', hr', hrow⟩ := h.forth r hr
    obtain ⟨r'', hr'', hrow'⟩ := h'.forth r' hr'
    exact ⟨r'', hr'', hrow.trans hrow'⟩

/-- Cancelling one queued row is a review. -/
theorem Reviewed.cancel {t : Ledger} {row : ExternalAction} (hrow : row ∈ t.rows)
    (hstate : row.state = .queued) (code : String) (clock : Instant) :
    Reviewed t (t.set (row.cancel code clock)) := by
  have hmem : ∀ r, r ∈ (t.set (row.cancel code clock)).rows
      ↔ r = row.cancel code clock ∨ (r ∈ t.rows ∧ r.id ≠ row.id) := fun r =>
    Ledger.mem_set (row.cancel code clock) hrow rfl rfl
  refine ⟨fun r' hr' => ?_, fun r hr => ?_⟩
  · rcases (hmem r').mp hr' with rfl | ⟨hr, -⟩
    · exact ⟨row, hrow, Or.inr ⟨hstate, code, clock, rfl⟩⟩
    · exact ⟨r', hr, Or.inl rfl⟩
  · by_cases hid : r.id = row.id
    · have hsame := Ledger.eq_of_id hr hrow hid
      subst hsame
      exact ⟨_, (hmem _).mpr (Or.inl rfl), Or.inr ⟨hstate, code, clock, rfl⟩⟩
    · exact ⟨r, (hmem r).mpr (Or.inr ⟨hr, hid⟩), Or.inl rfl⟩

/-- **Reviewing the queue** cancels queued rows only. -/
theorem reviewQueued_reviewed (holds : ExternalAction → Bool) (clock : Instant) :
    ∀ (rows : List ExternalAction) (t : Ledger),
      (rows.map ExternalAction.id).Nodup →
      (∀ row ∈ rows, row ∈ t.rows ∧ row.state = .queued) →
      Reviewed t (reviewQueued holds clock t rows).fst := by
  intro rows
  induction rows with
  | nil => exact fun t _ _ => .refl t
  | cons row rows ih =>
    intro t hnodup hrows
    obtain ⟨hrow, hstate⟩ := hrows row List.mem_cons_self
    obtain ⟨hfresh, hrest⟩ := List.nodup_cons.mp hnodup
    unfold reviewQueued
    split_ifs with hholds
    · exact .refl t
    · have hcancel : Alerts.cancel row "alert_snapshot_changed" clock
          = row.cancel "alert_snapshot_changed" clock :=
        if_pos (by rw [hstate]; decide)
      rw [hcancel]
      refine (Reviewed.cancel hrow hstate _ _).trans (ih _ hrest (fun r hr => ?_))
      obtain ⟨hmem, hqueued⟩ := hrows r (List.mem_cons_of_mem _ hr)
      have hne : r.id ≠ row.id := by
        intro hid
        refine hfresh ?_
        rw [← hid]
        exact List.mem_map_of_mem hr
      exact ⟨(Ledger.mem_set (row.cancel "alert_snapshot_changed" clock) hrow
        rfl rfl).mpr (Or.inr ⟨hmem, hne⟩), hqueued⟩

variable (env : Platform)

/-- **What a planning run can do**: review the queue, and queue a new digest
of the period if none reserves it. -/
inductive PlanCase (t : Ledger) (subscriptionId : Uuid) (now : Instant)
    (reads : PlanReads) : Ledger → PlanResult → Prop
  | reviewed {t' : Ledger} {result : PlanResult} (hresult : ∀ id, result ≠ .queued id)
      (h : Reviewed t t') : PlanCase t subscriptionId now reads t' result
  | queued {t' t'' : Ledger} {row : ExternalAction} {eligible : Eligible} {period : String}
      (heligible : reads.eligible = some eligible)
      (hperiod : alertPeriod env.localDate now eligible.subscription.timezone
        (eligible.subscription.frequency.getD .daily) = some period)
      (h : Reviewed t t')
      (hfree : ∀ r ∈ t'.rows, reservesPeriod subscriptionId period r = false)
      (hinsert : t'.insert row = some t'') (hrow : Enqueued row)
      (hsubject : isSubject subscriptionId row = true)
      (hlabel : periodOf row.payload = some period) :
      PlanCase t subscriptionId now reads t'' (.queued row.id)

theorem planPeriod_cases {t t' : Ledger} (subscriptionId : Uuid) {now : Instant}
    {reads : PlanReads} (rule : AlertRule) {eligible : Eligible} {period : String}
    (approval : AlertApproval) (heligible : reads.eligible = some eligible)
    (hperiod : alertPeriod env.localDate now eligible.subscription.timezone
      (eligible.subscription.frequency.getD .daily) = some period)
    (h : Reviewed t t') :
    PlanCase env t subscriptionId now reads
      (planPeriod env subscriptionId rule now
        (eligible.subscription.frequency.getD .daily) period eligible approval reads
        t').fst
      (planPeriod env subscriptionId rule now
        (eligible.subscription.frequency.getD .daily) period eligible approval reads
        t').snd := by
  unfold planPeriod
  by_cases hany : t'.rows.any (reservesPeriod subscriptionId period) = true
  · rw [if_pos hany]
    exact .reviewed (fun _ hq => nomatch hq) h
  · have hfree : ∀ r ∈ t'.rows, reservesPeriod subscriptionId period r = false := by
      intro r hr
      by_contra hne
      exact hany (List.any_eq_true.mpr ⟨r, hr, by simpa using hne⟩)
    rw [if_neg hany]
    split
    · exact .reviewed (fun _ hq => nomatch hq) h
    · exact .reviewed (fun _ hq => nomatch hq) h
    · by_cases hitems : reads.items.isEmpty = true
      · rw [if_pos hitems]
        exact .reviewed (fun _ hq => nomatch hq) h
      · rw [if_neg hitems]
        dsimp only
        split
        · exact .reviewed (fun _ hq => nomatch hq) h
        · unfold queueDigest
          split
          · next t'' hinsert =>
            refine .queued heligible hperiod h hfree hinsert ⟨rfl, rfl, rfl, rfl⟩ ?_ rfl
            unfold isSubject
            exact decide_eq_true ⟨rfl, rfl⟩
          · exact .reviewed (fun _ hq => nomatch hq) h

/-- **Every planning run is one of these.** -/
theorem plan_cases (t : Ledger) (subscriptionId : Uuid) (rule : Option AlertRule)
    (now : Instant) (reads : PlanReads) :
    PlanCase env t subscriptionId now reads
      (planSearchAlerts env t subscriptionId rule now reads).fst
      (planSearchAlerts env t subscriptionId rule now reads).snd := by
  unfold planSearchAlerts
  split
  · exact .reviewed (fun _ hq => nomatch hq) (.refl t)
  · exact .reviewed (fun _ hq => nomatch hq) (.refl t)
  · exact .reviewed (fun _ hq => nomatch hq) (.refl t)
  · next rule eligible approval heligible happroval =>
    dsimp only
    split
    · exact .reviewed (fun _ hq => nomatch hq) (.refl t)
    · next period hperiod =>
      have hreview : ∀ queued : List ExternalAction,
          queued = (t.rows.filter (fun row => isSubject subscriptionId row
            && decide (row.state = .queued))).mergeSort
              (fun a b => decide (a.id ≤ b.id)) →
          Reviewed t (reviewQueued (snapshotHolds env eligible approval period)
            reads.clock t queued).fst := by
        rintro queued rfl
        refine reviewQueued_reviewed _ _ _ t ?_ (fun row hrow => ?_)
        · have hperm := (List.mergeSort_perm (t.rows.filter (fun row =>
            isSubject subscriptionId row && decide (row.state = .queued)))
              (fun a b => decide (a.id ≤ b.id))).map ExternalAction.id
          refine hperm.nodup_iff.mpr ?_
          exact t.primaryKey.sublist (List.filter_sublist.map _)
        · rw [List.mem_mergeSort, List.mem_filter, Bool.and_eq_true,
            decide_eq_true_eq] at hrow
          exact ⟨hrow.1, hrow.2.2⟩
      have h := hreview _ rfl
      split
      · next t' row heq =>
        rw [heq] at h
        exact .reviewed (fun _ hq => nomatch hq) h
      · next t' heq =>
        rw [heq] at h
        have hcase := planPeriod_cases env subscriptionId rule approval heligible
          hperiod h
        split
        · exact .reviewed (fun _ hq => nomatch hq) (.refl t)
        · exact hcase

/-! ## Spent actions -/

/-- The provider accepts a message. -/
def accepts : Dispatch.Output → Bool
  | .answered (some (.accepted _)) => true
  | _ => false

/-- **A spent action**: it is neither queued nor cancelled, and the only
message of its that may still be out is one the provider has accepted. -/
def Spent (w : Dispatch.State) : Prop :=
  w.row.state ≠ .queued ∧ w.row.state ≠ .cancelled
    ∧ ∀ r, (w.runs r).active = true → w.runs r = .lost true

section Steps

variable {w w' : Dispatch.State} {e : Dispatch.Event} {out : Dispatch.Output}

/-- No event changes what an action is. -/
theorem sameEffect_step (h : Inv w) (hcase : StepCase w e w' out) :
    SameEffect w.row w'.row := by
  cases hcase with
  | refused run _ hrow _ => exact hrow.toSameEffect
  | claimed run provider now rule message alert hrun hholder hc => exact hc.toSameEffect
  | withdrawn run _ _ _ _ _ hrow _ => exact hrow.toSameEffect
  | settled run answer hrun =>
    rcases h.settle_cases answer (hrun.imp And.left And.left) with hends | ⟨hsame, -⟩
    · exact hends.toSameEffect
    · dsimp only
      rw [hsame]
      exact .refl _
  | reported report now _ => exact (sameAttempt_report w.row report now).toSameEffect
  | reconciled finding now _ _ =>
    exact (sameAttempt_reconcile w.row finding now).toSameEffect
  | superseded code now _ => exact (sameAttempt_cancel w.row code now).toSameEffect
  | unchanged => exact .refl _
  | retired => exact .refl _
  | acceptedLate => exact .refl _
  | sent => exact .refl _
  | sentLocked => exact .refl _
  | answered => exact .refl _

/-- No event brings a cancelled action back. -/
theorem cancelled_step (h : Inv w) (hcase : StepCase w e w' out)
    (hstate : w.row.state = .cancelled) : w'.row.state = .cancelled := by
  have hchange := change_of_case h hcase
  rw [hstate] at hchange
  exact hchange.of_cancelled

/-- Only a run that is out gets a message accepted. -/
theorem active_of_accepts (hcase : StepCase w e w' out) (haccepts : accepts out = true) :
    ∃ r, (w.runs r).active = true ∧ w.runs r ≠ .lost true := by
  cases hcase with
  | acceptedLate run _ hrun =>
    exact ⟨run, by rw [hrun]; rfl, by rw [hrun]; exact fun h => nomatch h⟩
  | answered run _ hrun =>
    exact ⟨run, by rw [hrun]; rfl, by rw [hrun]; exact fun h => nomatch h⟩
  | settled run _ hrun =>
    rcases hrun with ⟨hrun, -⟩ | ⟨hrun, -⟩
    · exact ⟨run, by rw [hrun]; rfl, by rw [hrun]; exact fun h => nomatch h⟩
    · exact ⟨run, by rw [hrun]; rfl, by rw [hrun]; exact fun h => nomatch h⟩
  | retired _ _ hout _ => rcases hout with rfl | ⟨_, rfl⟩ <;> exact nomatch haccepts
  | unchanged => exact nomatch haccepts
  | refused => exact nomatch haccepts
  | claimed => exact nomatch haccepts
  | sent => exact nomatch haccepts
  | sentLocked => exact nomatch haccepts
  | withdrawn => exact nomatch haccepts
  | reported => exact nomatch haccepts
  | reconciled => exact nomatch haccepts
  | superseded => exact nomatch haccepts

/-- **A spent action stays spent, and nothing of it is accepted again.** -/
theorem spent_step (hcase : StepCase w e w' out) (hspent : Spent w) :
    Spent w' ∧ accepts out = false := by
  obtain ⟨hqueued, hcancelled, hruns⟩ := hspent
  have hphase : ∀ {r phase}, w.runs r = phase → phase.active = true → phase = .lost true :=
    fun hr hactive => hr ▸ hruns _ (by rw [hr]; exact hactive)
  have haccepts : accepts out = false := by
    by_contra hacc
    obtain ⟨r, hactive, hne⟩ := active_of_accepts hcase (by simpa using hacc)
    exact hne (hruns r hactive)
  refine ⟨?_, haccepts⟩
  cases hcase with
  | unchanged => exact ⟨hqueued, hcancelled, hruns⟩
  | retired run phase _ hphase' =>
    refine ⟨hqueued, hcancelled, ?_⟩
    refine State.forall_setRun (p := fun _ ph => ph.active = true → ph = .lost true)
      hruns (fun hactive => ?_)
    rcases hphase' with rfl | rfl
    · exact nomatch hactive
    · rw [hruns run (afterCrash_active hactive)]
      rfl
  | acceptedLate run _ hrun => exact nomatch hphase hrun rfl
  | refused run hstate => exact absurd hstate hqueued
  | claimed run _ _ _ _ _ _ _ hc => exact absurd hc.source hqueued
  | sent run _ hrun => exact nomatch hphase hrun rfl
  | sentLocked run _ hrun => exact nomatch hphase hrun rfl
  | withdrawn run _ _ _ hrun => exact nomatch hphase hrun rfl
  | answered run _ hrun => exact nomatch hphase hrun rfl
  | settled run _ hrun =>
    rcases hrun with ⟨hrun, -⟩ | ⟨hrun, -⟩
    · exact nomatch hphase hrun rfl
    · exact nomatch hphase hrun rfl
  | reported report now _ =>
    cases hmatch : w.row.matchesReport report with
    | false =>
      rw [Inv.report_of_not_matches hmatch]
      exact ⟨hqueued, hcancelled, hruns⟩
    | true =>
      have htarget := (Inv.report_of_matches now hmatch).2.1
      refine ⟨?_, ?_, hruns⟩ <;> dsimp only <;> rw [htarget] <;> split_ifs <;>
        exact fun hstate => nomatch hstate
  | reconciled finding now _ _ =>
    cases hawaits : w.row.awaitsReconciliation with
    | false =>
      rw [Inv.reconcile_of_not_awaits hawaits]
      exact ⟨hqueued, hcancelled, hruns⟩
    | true =>
      have htarget := (Inv.reconcile_of_awaits finding now hawaits).1
      refine ⟨?_, ?_, hruns⟩ <;> dsimp only <;> rw [htarget] <;> cases finding <;>
        exact fun hstate => nomatch hstate
  | superseded code now hstate => exact absurd hstate hqueued

/-- **A digest the provider accepts is spent.** -/
theorem spent_of_accepts (h : Inv w) (hcase : StepCase w e w' out)
    (halert : isAlert w.row = true) (haccepts : accepts out = true) : Spent w' := by
  have h' := inv_step h hcase
  cases hcase with
  | acceptedLate run _ hrun =>
    have hactive : (w.runs run).active = true := by rw [hrun]; rfl
    refine ⟨fun hstate => ?_, h.live run hactive, fun r hr => ?_⟩
    · have := h.queued hstate run
      rw [hactive] at this
      exact nomatch this
    · have hsame := h'.single r run hr (by rw [State.setRun_runs_self]; rfl)
      rw [hsame, State.setRun_runs_self]
  | answered run _ hrun =>
    -- A digest is never sent without the lock.
    have hclaim := h.claims run _ _ (by rw [hrun]; rfl)
    have hplain := (h.plain run _ _ (Or.inl hrun)).1
    rw [hclaim.toSameEffect.isAlert, halert] at hplain
    exact nomatch hplain
  | @settled _ _ copy now run answer hrun =>
    rcases hrun with ⟨hrun, rfl⟩ | ⟨-, rfl⟩
    · have hactive : (w.runs run).active = true := by rw [hrun]; rfl
      have hclaim := h.claims run copy now (by rw [hrun]; rfl)
      have hcopy : isAlert copy = true := by
        rw [hclaim.toSameEffect.isAlert]
        exact halert
      match answer, haccepts with
      | some (.accepted messageId), _ =>
        have hrow : (settleOf w.row copy now (some (.accepted messageId))).state
            = .acknowledged := by
          unfold settleOf
          rw [if_pos hcopy]
          rfl
        refine ⟨?_, ?_, fun r hr => ?_⟩
        · dsimp only
          rw [hrow]
          exact fun hstate => nomatch hstate
        · dsimp only
          rw [hrow]
          exact fun hstate => nomatch hstate
        · exact absurd (hr.symm.trans (h.retire_inactive hactive r)) (by decide)
    · exact nomatch haccepts
  | retired _ _ hout _ => rcases hout with rfl | ⟨_, rfl⟩ <;> exact nomatch haccepts
  | unchanged => exact nomatch haccepts
  | refused => exact nomatch haccepts
  | claimed => exact nomatch haccepts
  | sent => exact nomatch haccepts
  | sentLocked => exact nomatch haccepts
  | withdrawn => exact nomatch haccepts
  | reported => exact nomatch haccepts
  | reconciled => exact nomatch haccepts
  | superseded => exact nomatch haccepts

end Steps

/-! ## The invariant of the ledger -/

/-- The row is a digest of the subscription and period. -/
def IsDigestOf (subscriptionId : Uuid) (period : String) (row : ExternalAction) : Prop :=
  isSubject subscriptionId row = true ∧ periodOf row.payload = some period

/-- **The invariant of the alert system.** -/
structure LedgerInv (s : AlertState) : Prop where
  /-- The work on each action satisfies its invariant. -/
  rows : ∀ row ∈ s.ledger.rows, Inv (s.action row)
  /-- Nobody works on an action that does not exist. -/
  fresh : ∀ id, (∀ row ∈ s.ledger.rows, row.id ≠ id) →
    s.runs id = (fun _ => .idle) ∧ s.holders id = none
  /-- One row at most reserves a period of a subscription. -/
  unique : ∀ subscriptionId period, ∀ row ∈ s.ledger.rows, ∀ row' ∈ s.ledger.rows,
    reservesPeriod subscriptionId period row = true →
    reservesPeriod subscriptionId period row' = true → row = row'

theorem reservesPeriod_iff {subscriptionId : Uuid} {period : String}
    {row : ExternalAction} :
    reservesPeriod subscriptionId period row = true
      ↔ IsDigestOf subscriptionId period row ∧ row.state ≠ .cancelled := by
  unfold reservesPeriod IsDigestOf
  rw [Bool.and_eq_true, Bool.and_eq_true, decide_eq_true_eq, decide_eq_true_eq]
  exact and_right_comm

theorem isDigestOf_congr {subscriptionId : Uuid} {period : String}
    {row row' : ExternalAction} (h : SameEffect row row') :
    IsDigestOf subscriptionId period row' ↔ IsDigestOf subscriptionId period row := by
  unfold IsDigestOf isSubject
  rw [h.subjectType, h.subjectId, h.payload]

theorem IsDigestOf.isAlert {subscriptionId : Uuid} {period : String}
    {row : ExternalAction} (h : IsDigestOf subscriptionId period row) :
    isAlert row = true :=
  decide_eq_true (of_decide_eq_true h.1).1

theorem ReviewedRow.sameEffect {r r' : ExternalAction} (h : ReviewedRow r r') :
    SameEffect r r' := by
  rcases h with rfl | ⟨-, code, clock, rfl⟩
  · exact .refl r'
  · exact (sameAttempt_cancel r code clock).toSameEffect

/-- A row that reserves a period after a review is as it was before. -/
theorem ReviewedRow.eq_of_reserves {r r' : ExternalAction} (h : ReviewedRow r r')
    {subscriptionId : Uuid} {period : String}
    (hres : reservesPeriod subscriptionId period r' = true) : r' = r := by
  rcases h with hsame | ⟨-, code, clock, rfl⟩
  · exact hsame
  · exact absurd rfl (reservesPeriod_iff.mp hres).2

section Ledger

variable {env} {s : AlertState}

/-- The state an enqueued row starts in. -/
theorem action_of_fresh (h : LedgerInv s) {row : ExternalAction}
    (hfresh : ∀ r ∈ s.ledger.rows, r.id ≠ row.id) : s.action row = start row := by
  obtain ⟨hruns, hholder⟩ := h.fresh row.id hfresh
  unfold AlertState.action start
  rw [hruns, hholder]

/-- A review keeps the work on every action. -/
theorem inv_of_reviewed (h : LedgerInv s) {r r' : ExternalAction}
    (hr : r ∈ s.ledger.rows) (hrow : ReviewedRow r r') : Inv (s.action r') := by
  have hinv := h.rows r hr
  rcases hrow with rfl | ⟨hstate, code, clock, rfl⟩
  · exact hinv
  · exact hinv.superseded code clock hstate

/-- **A review keeps the invariant.** -/
theorem LedgerInv.review (h : LedgerInv s) {t : Ledger} (ht : Reviewed s.ledger t) :
    LedgerInv { s with ledger := t } where
  rows := fun r' hr' => by
    obtain ⟨r, hr, hrow⟩ := ht.back r' hr'
    exact inv_of_reviewed h hr hrow
  fresh := fun id hid => by
    refine h.fresh id (fun r hr => ?_)
    obtain ⟨r', hr', hrow⟩ := ht.forth r hr
    rw [← hrow.id]
    exact hid r' hr'
  unique := fun subscriptionId period r₁' hr₁' r₂' hr₂' hres₁ hres₂ => by
    obtain ⟨r₁, hr₁, hrow₁⟩ := ht.back r₁' hr₁'
    obtain ⟨r₂, hr₂, hrow₂⟩ := ht.back r₂' hr₂'
    have h₁ := hrow₁.eq_of_reserves hres₁
    have h₂ := hrow₂.eq_of_reserves hres₂
    subst h₁ h₂
    exact h.unique subscriptionId period r₁' hr₁ r₂' hr₂ hres₁ hres₂

/-- **Queueing a digest of a free period keeps the invariant.** -/
theorem LedgerInv.insert (h : LedgerInv s) {t : Ledger} {row : ExternalAction}
    {subscriptionId : Uuid} {period : String}
    (hfree : ∀ r ∈ s.ledger.rows, reservesPeriod subscriptionId period r = false)
    (hinsert : s.ledger.insert row = some t) (hrow : Enqueued row)
    (hdigest : IsDigestOf subscriptionId period row) :
    LedgerInv { s with ledger := t } := by
  obtain ⟨hrows, hfresh⟩ := Ledger.insert_cases hinsert
  -- A row that reserves the period of the new one is not an old one.
  have hnew : ∀ sub p r, r ∈ s.ledger.rows → reservesPeriod sub p row = true →
      reservesPeriod sub p r = true → False := by
    intro sub p r hr hres hres'
    have hsub : sub = subscriptionId := by
      have h₁ := (of_decide_eq_true (reservesPeriod_iff.mp hres).1.1).2
      have h₂ := (of_decide_eq_true hdigest.1).2
      exact Option.some.inj (h₁.symm.trans h₂)
    have hp : p = period :=
      Option.some.inj ((reservesPeriod_iff.mp hres).1.2.symm.trans hdigest.2)
    rw [hsub, hp, hfree r hr] at hres'
    exact nomatch hres'
  refine
    { rows := fun r hr => ?_
      fresh := fun id hid => ?_
      unique := fun sub p r₁ hr₁ r₂ hr₂ hres₁ hres₂ => ?_ }
  · dsimp only at hr
    rw [hrows] at hr
    rcases List.mem_cons.mp hr with rfl | hr
    · show Inv (s.action r)
      rw [action_of_fresh h hfresh]
      exact inv_start hrow
    · exact h.rows r hr
  · dsimp only at hid
    rw [hrows] at hid
    exact h.fresh id (fun r hr => hid r (List.mem_cons_of_mem _ hr))
  · dsimp only at hr₁ hr₂
    rw [hrows] at hr₁ hr₂
    rcases List.mem_cons.mp hr₁ with heq₁ | hold₁
    · rcases List.mem_cons.mp hr₂ with heq₂ | hold₂
      · rw [heq₁, heq₂]
      · rw [heq₁] at hres₁
        exact (hnew sub p r₂ hold₂ hres₁ hres₂).elim
    · rcases List.mem_cons.mp hr₂ with heq₂ | hold₂
      · rw [heq₂] at hres₂
        exact (hnew sub p r₁ hold₁ hres₂ hres₁).elim
      · exact h.unique sub p r₁ hold₁ r₂ hold₂ hres₁ hres₂

/-- The work on the action an event is about. -/
theorem action_put_self {id : Uuid} {w : Dispatch.State} (hid : w.row.id = id) :
    (s.put id w).action w.row = w := by
  unfold AlertState.action AlertState.put
  dsimp only
  rw [hid, Function.update_self, Function.update_self]

/-- The work on every other action. -/
theorem action_put_of_ne {id : Uuid} {w : Dispatch.State} {r : ExternalAction}
    (hne : r.id ≠ id) : (s.put id w).action r = s.action r := by
  unfold AlertState.action AlertState.put
  dsimp only
  rw [Function.update_of_ne hne, Function.update_of_ne hne]

/-- **An event of one action keeps the invariant.** -/
theorem LedgerInv.act (h : LedgerInv s) {row : ExternalAction} (hrow : row ∈ s.ledger.rows)
    {w' : Dispatch.State} {e : Dispatch.Event} {out : Dispatch.Output}
    (hcase : StepCase (s.action row) e w' out) : LedgerInv (s.put row.id w') := by
  have hinv := h.rows row hrow
  have hsame : SameEffect row w'.row := sameEffect_step hinv hcase
  have hmem : ∀ r, r ∈ (s.put row.id w').ledger.rows
      ↔ r = w'.row ∨ (r ∈ s.ledger.rows ∧ r.id ≠ w'.row.id) := fun r =>
    Ledger.mem_set w'.row hrow hsame.id hsame.effectKey
  -- What reserves a period after the event reserved it before.
  have hback : ∀ sub p, reservesPeriod sub p w'.row = true →
      reservesPeriod sub p row = true := by
    intro sub p hres
    obtain ⟨hdigest, hlive⟩ := reservesPeriod_iff.mp hres
    refine reservesPeriod_iff.mpr ⟨(isDigestOf_congr hsame).mp hdigest, fun hc => ?_⟩
    exact hlive (cancelled_step hinv hcase hc)
  refine
    { rows := fun r hr => ?_
      fresh := fun id hid => ?_
      unique := fun sub p r₁ hr₁ r₂ hr₂ hres₁ hres₂ => ?_ }
  · rcases (hmem r).mp hr with rfl | ⟨hr, hne⟩
    · rw [action_put_self hsame.id]
      exact inv_step hinv hcase
    · rw [action_put_of_ne (by rw [← hsame.id]; exact hne)]
      exact h.rows r hr
  · have hne : id ≠ row.id := by
      intro heq
      exact hid w'.row ((hmem _).mpr (Or.inl rfl)) (hsame.id.trans heq.symm)
    have hold : ∀ r ∈ s.ledger.rows, r.id ≠ id := by
      intro r hr hrid
      refine hid r ((hmem r).mpr (Or.inr ⟨hr, ?_⟩)) hrid
      rw [hrid, hsame.id]
      exact hne
    unfold AlertState.put
    dsimp only
    rw [Function.update_of_ne hne, Function.update_of_ne hne]
    exact h.fresh id hold
  · rcases (hmem r₁).mp hr₁ with heq₁ | ⟨hold₁, hne₁⟩
    · rcases (hmem r₂).mp hr₂ with heq₂ | ⟨hold₂, hne₂⟩
      · rw [heq₁, heq₂]
      · rw [heq₁] at hres₁
        have heq := h.unique sub p row hrow r₂ hold₂ (hback sub p hres₁) hres₂
        rw [← heq] at hne₂
        exact absurd hsame.id.symm hne₂
    · rcases (hmem r₂).mp hr₂ with heq₂ | ⟨hold₂, hne₂⟩
      · rw [heq₂] at hres₂
        have heq := h.unique sub p r₁ hold₁ row hrow hres₁ (hback sub p hres₂)
        rw [heq] at hne₁
        exact absurd hsame.id.symm hne₁
      · exact h.unique sub p r₁ hold₁ r₂ hold₂ hres₁ hres₂

end Ledger

/-- **Every event keeps the invariant.** -/
theorem keeps_ledgerInv : Keeps (alertStep env) (fun _ => True) LedgerInv := by
  intro s e _ h
  cases e with
  | plan subscriptionId rule now reads =>
    have hcase := plan_cases env s.ledger subscriptionId rule now reads
    show LedgerInv
      { s with ledger := (planSearchAlerts env s.ledger subscriptionId rule now reads).fst }
    generalize planSearchAlerts env s.ledger subscriptionId rule now reads = planned at hcase
    obtain ⟨t, result⟩ := planned
    cases hcase with
    | reviewed _ ht => exact h.review ht
    | queued _ _ ht hfree hinsert hrow hsubject hlabel =>
      exact (h.review ht).insert hfree hinsert hrow ⟨hsubject, hlabel⟩
  | act actionId event =>
    cases hfind : s.ledger.find? actionId with
    | none =>
      rw [alertStep_missing env event hfind]
      exact h
    | some row =>
      rw [alertStep_act env event hfind]
      obtain ⟨hmem, rfl⟩ := Ledger.find?_mem hfind
      exact h.act hmem (step_cases env (s.action row) event)

/-! ## Runs -/

/-- A moment of the alert system. -/
abbrev AlertMoment := Moment AlertState AlertEvent AlertOutput

/-- The provider accepts a digest of the subscription and period. -/
def AcceptsDigest (subscriptionId : Uuid) (period : String) (m : AlertMoment) : Prop :=
  ∃ actionId event row out, m.event = .act actionId event
    ∧ m.before.ledger.find? actionId = some row
    ∧ IsDigestOf subscriptionId period row
    ∧ m.output = .acted out ∧ accepts out = true

/-- A planning run queues a new digest of the subscription and period: the
period of its instant, for the subscription as the run reads it. -/
def PlansDigest (subscriptionId : Uuid) (period : String) (actionId : Uuid)
    (m : AlertMoment) : Prop :=
  ∃ rule now reads eligible, m.event = .plan subscriptionId rule now reads
    ∧ reads.eligible = some eligible
    ∧ alertPeriod env.localDate now eligible.subscription.timezone
      (eligible.subscription.frequency.getD .daily) = some period
    ∧ m.output = .planned (.queued actionId)

/-- **At most one notification for each subscription and period.** -/
structure OnePerPeriod (h : List AlertMoment) : Prop where
  /-- At every moment, one action of a subscription and period at most is not
  cancelled. -/
  oneLive : ∀ m ∈ h, ∀ subscriptionId period, ∀ row ∈ m.after.ledger.rows,
    ∀ row' ∈ m.after.ledger.rows,
    IsDigestOf subscriptionId period row → row.state ≠ .cancelled →
    IsDigestOf subscriptionId period row' → row'.state ≠ .cancelled → row = row'
  /-- The provider accepts one digest of a subscription and period at most. -/
  oneAccepted : h.Pairwise (fun m m' => ∀ subscriptionId period,
    AcceptsDigest subscriptionId period m → ¬ AcceptsDigest subscriptionId period m')
  /-- Two planning runs in one period never have two effects: by the time a
  second digest is queued, the first is cancelled. -/
  onePlanned : h.Pairwise (fun m m' => ∀ subscriptionId period actionId actionId',
    PlansDigest env subscriptionId period actionId m →
    PlansDigest env subscriptionId period actionId' m' →
    ∃ row ∈ m'.after.ledger.rows, row.id = actionId ∧ row.state = .cancelled)

section Runs

variable {env} {s : AlertState}

/-- A state with a spent digest of the period. -/
def PeriodSpent (subscriptionId : Uuid) (period : String) (s : AlertState) : Prop :=
  ∃ row ∈ s.ledger.rows, IsDigestOf subscriptionId period row ∧ Spent (s.action row)

/-- A state with an action of the given id that is a digest of the period. -/
def HasDigest (subscriptionId : Uuid) (period : String) (actionId : Uuid)
    (s : AlertState) : Prop :=
  ∃ row ∈ s.ledger.rows, row.id = actionId ∧ IsDigestOf subscriptionId period row

/-- **What becomes of a row**: a planning run may cancel it while it is
queued, and an event of its own action is a step of that action. -/
theorem row_step (env : Platform) (h : LedgerInv s) (e : AlertEvent) {row : ExternalAction}
    (hrow : row ∈ s.ledger.rows) :
    ∃ row' ∈ (alertStep env s e).fst.ledger.rows,
      SameEffect row row'
      ∧ (ReviewedRow row row' ∧ (alertStep env s e).fst.action row' = s.action row'
        ∨ ∃ event out, StepCase (s.action row) event
          ((alertStep env s e).fst.action row') out) := by
  cases e with
  | plan subscriptionId rule now reads =>
    have hcase := plan_cases env s.ledger subscriptionId rule now reads
    show ∃ row' ∈ (planSearchAlerts env s.ledger subscriptionId rule now reads).fst.rows, _
    generalize hplanned : planSearchAlerts env s.ledger subscriptionId rule now reads
      = planned at hcase
    have hkept : ∃ row' ∈ planned.fst.rows, ReviewedRow row row' := by
      obtain ⟨t, result⟩ := planned
      cases hcase with
      | reviewed _ ht => exact ht.forth row hrow
      | queued _ _ ht hfree hinsert _ _ _ =>
        obtain ⟨row', hrow', hreview⟩ := ht.forth row hrow
        refine ⟨row', ?_, hreview⟩
        dsimp only
        rw [(Ledger.insert_cases hinsert).1]
        exact List.mem_cons_of_mem _ hrow'
    obtain ⟨row', hrow', hreview⟩ := hkept
    exact ⟨row', hrow', hreview.sameEffect, Or.inl ⟨hreview, rfl⟩⟩
  | act actionId event =>
    cases hfind : s.ledger.find? actionId with
    | none =>
      rw [alertStep_missing env event hfind]
      exact ⟨row, hrow, .refl row, Or.inl ⟨Or.inl rfl, rfl⟩⟩
    | some target =>
      rw [alertStep_act env event hfind]
      obtain ⟨hmem, rfl⟩ := Ledger.find?_mem hfind
      have hcase := step_cases env (s.action target) event
      have hsame : SameEffect target (step env (s.action target) event).fst.row :=
        sameEffect_step (h.rows target hmem) hcase
      have hset := fun r => Ledger.mem_set (r := r) _ hmem hsame.id hsame.effectKey
      by_cases hid : row.id = target.id
      · have heq := Ledger.eq_of_id hrow hmem hid
        subst heq
        refine ⟨_, (hset _).mpr (Or.inl rfl), hsame,
          Or.inr ⟨event, (step env (s.action row) event).snd, ?_⟩⟩
        rw [action_put_self hsame.id]
        exact hcase
      · have hne : row.id ≠ (step env (s.action target) event).fst.row.id := by
          rw [hsame.id]
          exact hid
        exact ⟨row, (hset row).mpr (Or.inr ⟨hrow, hne⟩), .refl row,
          Or.inl ⟨Or.inl rfl, action_put_of_ne hid⟩⟩

/-- A spent digest stays. -/
theorem periodSpent_step (h : LedgerInv s) (e : AlertEvent) {subscriptionId : Uuid}
    {period : String} (hspent : PeriodSpent subscriptionId period s) :
    PeriodSpent subscriptionId period (alertStep env s e).fst := by
  obtain ⟨row, hrow, hdigest, hspent⟩ := hspent
  obtain ⟨row', hrow', hsame, hcase⟩ := row_step env h e hrow
  refine ⟨row', hrow', (isDigestOf_congr hsame).mpr hdigest, ?_⟩
  rcases hcase with ⟨hreview, haction⟩ | ⟨event, out, hcase⟩
  · rw [haction]
    rcases hreview with rfl | ⟨hqueued, -⟩
    · exact hspent
    · exact absurd hqueued hspent.1
  · exact (spent_step hcase hspent).1

/-- A digest that was queued stays in the ledger. -/
theorem hasDigest_step (h : LedgerInv s) (e : AlertEvent) {subscriptionId : Uuid}
    {period : String} {actionId : Uuid} (hhas : HasDigest subscriptionId period actionId s) :
    HasDigest subscriptionId period actionId (alertStep env s e).fst := by
  obtain ⟨row, hrow, hid, hdigest⟩ := hhas
  obtain ⟨row', hrow', hsame, -⟩ := row_step env h e hrow
  exact ⟨row', hrow', hsame.id.trans hid, (isDigestOf_congr hsame).mpr hdigest⟩

/-- **An accepted digest spends its period.** -/
theorem periodSpent_of_accepts (h : LedgerInv s) (e : AlertEvent) {subscriptionId : Uuid}
    {period : String}
    (haccepts : AcceptsDigest subscriptionId period (moment (alertStep env) s e)) :
    PeriodSpent subscriptionId period (alertStep env s e).fst := by
  obtain ⟨actionId, event, row, out, rfl, hfind, hdigest, hout, haccepts⟩ := haccepts
  change (alertStep env s _).snd = _ at hout
  change s.ledger.find? actionId = _ at hfind
  rw [alertStep_act env event hfind] at hout ⊢
  obtain ⟨hmem, rfl⟩ := Ledger.find?_mem hfind
  have hcase := step_cases env (s.action row) event
  have hsame : SameEffect row (step env (s.action row) event).fst.row :=
    sameEffect_step (h.rows row hmem) hcase
  have hspent := spent_of_accepts (h.rows row hmem) hcase hdigest.isAlert (by
    rw [AlertOutput.acted.inj hout]
    exact haccepts)
  refine ⟨_, (Ledger.mem_set _ hmem hsame.id hsame.effectKey).mpr (Or.inl rfl),
    (isDigestOf_congr hsame).mpr hdigest, ?_⟩
  rw [action_put_self hsame.id]
  exact hspent

/-- **In a spent period nothing is accepted.** -/
theorem not_accepts_of_spent (h : LedgerInv s) (e : AlertEvent) {subscriptionId : Uuid}
    {period : String} (hspent : PeriodSpent subscriptionId period s) :
    ¬ AcceptsDigest subscriptionId period (moment (alertStep env) s e) := by
  rintro ⟨actionId, event, row', out, rfl, hfind, hdigest', hout, haccepts⟩
  obtain ⟨row, hrow, hdigest, hspent⟩ := hspent
  change (alertStep env s _).snd = _ at hout
  change s.ledger.find? actionId = _ at hfind
  rw [alertStep_act env event hfind] at hout
  obtain ⟨hmem, rfl⟩ := Ledger.find?_mem hfind
  have hcase := step_cases env (s.action row') event
  rw [AlertOutput.acted.inj hout] at hcase
  -- The run that gets the acceptance is out, so its action is not cancelled.
  obtain ⟨run, hactive, -⟩ := active_of_accepts hcase haccepts
  have hlive : row'.state ≠ .cancelled := (h.rows row' hmem).live run hactive
  have heq : row = row' := h.unique subscriptionId period row hrow row' hmem
    (reservesPeriod_iff.mpr ⟨hdigest, hspent.2.1⟩)
    (reservesPeriod_iff.mpr ⟨hdigest', hlive⟩)
  subst heq
  rw [(spent_step hcase hspent).2] at haccepts
  exact nomatch haccepts

/-- What a planning run that queues a digest leaves. -/
theorem plansDigest_cases (e : AlertEvent) {subscriptionId : Uuid} {period : String}
    {actionId : Uuid}
    (hplans : PlansDigest env subscriptionId period actionId (moment (alertStep env) s e)) :
    ∃ t t' row, Reviewed s.ledger t
      ∧ (∀ r ∈ t.rows, reservesPeriod subscriptionId period r = false)
      ∧ t.insert row = some t' ∧ row.id = actionId ∧ IsDigestOf subscriptionId period row
      ∧ (alertStep env s e).fst.ledger = t' := by
  obtain ⟨rule, now, reads, eligible, rfl, heligible, hperiod, hout⟩ := hplans
  have hcase := plan_cases env s.ledger subscriptionId rule now reads
  change AlertOutput.planned _ = _ at hout
  show ∃ t t' row, _ ∧ _ ∧ _ ∧ _ ∧ _
    ∧ (planSearchAlerts env s.ledger subscriptionId rule now reads).fst = t'
  have hresult := AlertOutput.planned.inj hout
  generalize planSearchAlerts env s.ledger subscriptionId rule now reads = planned
    at hcase hresult
  obtain ⟨t', result⟩ := planned
  cases hcase with
  | reviewed hnot _ => exact absurd hresult (hnot actionId)
  | @queued t _ row eligible' period' heligible' hperiod' ht hfree hinsert _ hsubject hlabel =>
    have heq : eligible' = eligible := Option.some.inj (heligible'.symm.trans heligible)
    subst heq
    have hlabel' : period' = period := Option.some.inj (hperiod'.symm.trans hperiod)
    subst hlabel'
    exact ⟨t, t', row, ht, hfree, hinsert, PlanResult.queued.inj hresult,
      ⟨hsubject, hlabel⟩, rfl⟩

/-- The digest a planning run queues is in the ledger. -/
theorem hasDigest_of_plans (e : AlertEvent) {subscriptionId : Uuid} {period : String}
    {actionId : Uuid}
    (hplans : PlansDigest env subscriptionId period actionId (moment (alertStep env) s e)) :
    HasDigest subscriptionId period actionId (alertStep env s e).fst := by
  obtain ⟨t, t', row, -, -, hinsert, hid, hdigest, hledger⟩ := plansDigest_cases e hplans
  unfold HasDigest
  rw [hledger, (Ledger.insert_cases hinsert).1]
  exact ⟨row, List.mem_cons_self, hid, hdigest⟩

/-- **A second digest is queued only once the first is cancelled.** -/
theorem cancelled_of_plans (e : AlertEvent) {subscriptionId : Uuid} {period : String}
    {actionId actionId' : Uuid} (hhas : HasDigest subscriptionId period actionId s)
    (hplans : PlansDigest env subscriptionId period actionId' (moment (alertStep env) s e)) :
    ∃ row ∈ (alertStep env s e).fst.ledger.rows,
      row.id = actionId ∧ row.state = .cancelled := by
  obtain ⟨t, t', new, ht, hfree, hinsert, -, -, hledger⟩ := plansDigest_cases e hplans
  obtain ⟨row, hrow, hid, hdigest⟩ := hhas
  obtain ⟨row', hrow', hreview⟩ := ht.forth row hrow
  refine ⟨row', ?_, hreview.id.trans hid, ?_⟩
  · rw [hledger, (Ledger.insert_cases hinsert).1]
    exact List.mem_cons_of_mem _ hrow'
  · by_contra hlive
    have hres : reservesPeriod subscriptionId period row' = true :=
      reservesPeriod_iff.mpr
        ⟨(isDigestOf_congr hreview.sameEffect).mpr hdigest, hlive⟩
    rw [hfree row' hrow'] at hres
    exact nomatch hres

/-- The state before any alert: a ledger whose actions are queued and none of
them a digest, and no run. -/
def quiet (ledger : Ledger) : AlertState := ⟨ledger, fun _ _ => .idle, fun _ => none⟩

theorem ledgerInv_quiet {ledger : Ledger} (hqueued : ∀ row ∈ ledger.rows, Enqueued row)
    (hnone : ∀ row ∈ ledger.rows, isAlert row = false) : LedgerInv (quiet ledger) where
  rows := fun row hrow => inv_start (hqueued row hrow)
  fresh := fun _ _ => ⟨rfl, rfl⟩
  unique := fun _ _ row hrow _ _ hres _ => by
    have halert := (reservesPeriod_iff.mp hres).1.isAlert
    rw [hnone row hrow] at halert
    exact nomatch halert

/-- **At most one notification for each subscription and period**, over every
interleaving; and the periods of one cadence partition time, so that two
instants have one period exactly when they lie on one local date or in one
week. -/
theorem onePerPeriod_of_run (env : Platform) (ledger : Ledger)
    (hqueued : ∀ row ∈ ledger.rows, Enqueued row)
    (hnone : ∀ row ∈ ledger.rows, isAlert row = false) (es : List AlertEvent) :
    OnePerPeriod env (history (alertStep env) (quiet ledger) es)
      ∧ ∀ timezone frequency now now' period period',
        alertPeriod env.localDate now timezone frequency = some period →
        alertPeriod env.localDate now' timezone frequency = some period' →
        (period = period' ↔ sameBucket env.localDate timezone frequency now now') := by
  have hkeep := keeps_ledgerInv env
  have hall : ∀ e ∈ es, (fun _ : AlertEvent => True) e := fun _ _ => trivial
  have hinv := ledgerInv_quiet hqueued hnone
  refine ⟨⟨?_, ?_, ?_⟩, fun _ _ _ _ _ _ => alertPeriod_eq_iff⟩
  · intro m hm subscriptionId period row hrow row' hrow' hdigest hlive hdigest' hlive'
    have h := (history_invariant hkeep hall hinv m hm).2
    exact h.unique subscriptionId period row hrow row' hrow'
      (reservesPeriod_iff.mpr ⟨hdigest, hlive⟩)
      (reservesPeriod_iff.mpr ⟨hdigest', hlive'⟩)
  · refine history_pairwise
      (Q := fun m s => ∀ subscriptionId period, AcceptsDigest subscriptionId period m →
        PeriodSpent subscriptionId period s)
      hkeep ?_ ?_ ?_ hall hinv
    · exact fun s e _ h _ _ haccepts => periodSpent_of_accepts h e haccepts
    · exact fun m s e _ h hQ _ _ haccepts => periodSpent_step h e (hQ _ _ haccepts)
    · exact fun m s e _ h hQ _ _ haccepts => not_accepts_of_spent h e (hQ _ _ haccepts)
  · refine history_pairwise
      (Q := fun m s => ∀ subscriptionId period actionId,
        PlansDigest env subscriptionId period actionId m →
        HasDigest subscriptionId period actionId s)
      hkeep ?_ ?_ ?_ hall hinv
    · exact fun s e _ _ _ _ _ hplans => hasDigest_of_plans e hplans
    · exact fun m s e _ h hQ _ _ _ hplans => hasDigest_step h e (hQ _ _ _ hplans)
    · exact fun m s e _ _ hQ _ _ _ _ hplans hplans' =>
        cancelled_of_plans e (hQ _ _ _ hplans) hplans'

end Runs

/-! ## A digest that is planned and sent -/

/-- A subscriber of the run below. -/
def sampleEligible : Eligible where
  subscription := ⟨1, "Europe/Sofia", some .weekly, "p1", .obj [], none⟩
  contactId := "contact"
  contactVersion := 1
  recipient := "a@b.bg"
  locale := "bg"

/-- The payload of its digest. -/
def samplePayload : AlertPayload :=
  newPayload samplePlatform ⟨"search-alerts.v1", "https://p", "https://c"⟩ 0 .weekly
    "week:1969-12-29" sampleEligible ⟨"approval", "h"⟩ [] false

/-- A platform that accepts it. -/
def alertPlatform : Platform := { samplePlatform with safeParse := fun _ => some samplePayload }

/-- Two planning runs of one week, and the first dispatch between them. -/
def sampleRun : List AlertEvent :=
  let plan := AlertEvent.plan "subscription"
    (some ⟨"search-alerts.v1", "https://p", "https://c"⟩) 0
    ⟨some sampleEligible, some ⟨"approval", "h"⟩,
      [⟨"l", "r", "m", "REF", none, "https://p/l", true, []⟩], false, "digest", 0⟩
  [plan, .act "digest" (.claim 0 "resend" 10 none ⟨true, true, true⟩ noReads), plan]

/-- A ledger with a message of another kind. -/
def sampleLedger : Ledger := ⟨[sampleMessage], by decide, by decide⟩

theorem mem_sampleLedger {row : ExternalAction} (h : row ∈ sampleLedger.rows) :
    row = sampleMessage := List.mem_singleton.mp h

/-- The laws hold of the run above, beside a message of another kind. -/
theorem onePerPeriod_of_sampleRun :
    OnePerPeriod alertPlatform (history (alertStep alertPlatform)
        (quiet sampleLedger) sampleRun)
      ∧ ∀ timezone frequency now now' period period',
        alertPeriod alertPlatform.localDate now timezone frequency = some period →
        alertPeriod alertPlatform.localDate now' timezone frequency = some period' →
        (period = period'
          ↔ sameBucket alertPlatform.localDate timezone frequency now now') :=
  onePerPeriod_of_run alertPlatform sampleLedger
    (fun _ hrow => mem_sampleLedger hrow ▸ ⟨rfl, rfl, rfl, rfl⟩)
    (fun _ hrow => mem_sampleLedger hrow ▸ rfl) sampleRun

end Alerts
