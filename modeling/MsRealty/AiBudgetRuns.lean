import Mathlib.Algebra.Order.BigOperators.Group.List
import MsRealty.AiBudget

/-!
# The day's costs stay below the ceiling

However transactions interleave, an actor has at most one run that is queued or
running, and what a day's runs cost, or may cost, is not above the ceiling
(`withinBudget_of_reachable`).

While a transaction holds the budget's lock the others only settle runs, which
neither starts one nor makes one dearer: so what it read of the sum and of the
actor's runs is a bound when it commits.
-/

namespace AiBudget

open RowLocks

/-! ## Settlement -/

/-- **A settlement of a run**: it stays the run it is, does not begin to run, and
a cost that is recorded is not above what was reserved. -/
structure Settles (run run' : AiRun) : Prop where
  id : run'.id = run.id
  requestedById : run'.requestedById = run.requestedById
  createdAt : run'.createdAt = run.createdAt
  billingMode : run'.billingMode = run.billingMode
  reservedCostMicros : run'.reservedCostMicros = run.reservedCostMicros
  active : run'.isActive = true → run.isActive = true
  cost : run'.actualCostMicros = run.actualCostMicros ∨ run.actualCostMicros = none ∧
    ∃ actual reserved, run'.actualCostMicros = some actual ∧
      run.reservedCostMicros = some reserved ∧ actual ≤ reserved

theorem Settles.refl (run : AiRun) : Settles run run :=
  ⟨rfl, rfl, rfl, rfl, rfl, fun h => h, .inl rfl⟩

theorem Settles.trans {a b c : AiRun} (h : Settles a b) (h' : Settles b c) : Settles a c := by
  refine ⟨h'.id.trans h.id, h'.requestedById.trans h.requestedById, h'.createdAt.trans h.createdAt,
    h'.billingMode.trans h.billingMode, h'.reservedCostMicros.trans h.reservedCostMicros,
    fun hc => h.active (h'.active hc), ?_⟩
  obtain hsame | ⟨hnone, actual, reserved, hactual, hreserved, hle⟩ := h'.cost
  · rw [hsame]
    exact h.cost
  · obtain hfirst | ⟨-, first, -, hfirst, -, -⟩ := h.cost
    · exact .inr ⟨hfirst.symm.trans hnone, actual, reserved, hactual,
        h.reservedCostMicros.symm.trans hreserved, hle⟩
    · rw [hfirst] at hnone
      cases hnone

/-- **A settlement makes no run dearer.** -/
theorem Settles.cost_le {run run' : AiRun} (h : Settles run run') : run'.cost ≤ run.cost := by
  unfold AiRun.cost
  rw [h.reservedCostMicros]
  obtain hsame | ⟨hnone, actual, reserved, hactual, hreserved, hle⟩ := h.cost
  · rw [hsame]
  · rw [hnone, hactual, hreserved]
    exact hle

theorem Settles.isCharged {run run' : AiRun} (h : Settles run run') (day : Instant) :
    run'.isCharged day = run.isCharged day := by
  unfold AiRun.isCharged
  rw [h.billingMode, h.createdAt]

/-- **Only settlements happened.** -/
structure Settled (data data' : BudgetData) : Prop where
  assistanceRuns : List.Forall₂ Settles data.assistanceRuns.rows data'.assistanceRuns.rows
  generativeRuns : List.Forall₂ Settles data.generativeRuns.rows data'.generativeRuns.rows

variable {data data' : BudgetData} {day : Instant} {actorId : Uuid} {run run' : AiRun}

theorem Settled.refl (data : BudgetData) : Settled data data :=
  ⟨List.forall₂_same.mpr fun run _ => .refl run, List.forall₂_same.mpr fun run _ => .refl run⟩

theorem forall₂_settles_trans {xs ys zs : List AiRun} (h : List.Forall₂ Settles xs ys)
    (h' : List.Forall₂ Settles ys zs) : List.Forall₂ Settles xs zs := by
  induction h generalizing zs with
  | nil =>
    cases h'
    exact .nil
  | cons hrun _ ih =>
    cases h' with
    | cons hrun' hrest' => exact .cons (hrun.trans hrun') (ih hrest')

theorem Settled.trans {a b c : BudgetData} (h : Settled a b) (h' : Settled b c) : Settled a c :=
  ⟨forall₂_settles_trans h.assistanceRuns h'.assistanceRuns,
    forall₂_settles_trans h.generativeRuns h'.generativeRuns⟩

theorem Settled.all (h : Settled data data') : List.Forall₂ Settles data.all data'.all :=
  List.rel_append h.assistanceRuns h.generativeRuns

theorem Settled.runs (h : Settled data data') (family : RunFamily) :
    List.Forall₂ Settles (data.runs family).rows (data'.runs family).rows := by
  cases family with
  | assistance => exact h.assistanceRuns
  | generative => exact h.generativeRuns

/-- **Settlements make no day dearer.** -/
theorem used_le_of_settled (h : Settled data data') (day : Instant) :
    data'.used day ≤ data.used day := by
  have hall := h.all
  unfold BudgetData.used
  generalize data.all = xs at hall
  generalize data'.all = ys at hall
  induction hall with
  | nil => exact le_rfl
  | cons hrun _ ih =>
    rw [List.filter_cons, List.filter_cons, hrun.isCharged]
    split_ifs
    · exact add_le_add hrun.cost_le ih
    · exact ih

/-- **Settlements start no run.** -/
theorem active_le_of_settled (h : Settled data data') (actorId : Uuid) :
    data'.active actorId ≤ data.active actorId := by
  have hall := h.all
  unfold BudgetData.active
  generalize data.all = xs at hall
  generalize data'.all = ys at hall
  induction hall with
  | nil => exact le_rfl
  | @cons run run' _ _ hrun _ ih =>
    rw [List.countP_cons, List.countP_cons, hrun.requestedById]
    refine Nat.add_le_add ih ?_
    by_cases hactive : run'.isActive = true
    · rw [hactive, hrun.active hactive]
    · rw [Bool.not_eq_true] at hactive
      rw [hactive, Bool.and_false]
      exact Nat.zero_le _

/-! ## Tables -/

@[simp] theorem runs_setRuns (family : RunFamily) (runs : Table Uuid AiRun AiRun.id) :
    (data.setRuns family runs).runs family = runs := by
  cases family <;> rfl

theorem runs_setRuns_of_ne {family other : RunFamily} (h : other ≠ family)
    (runs : Table Uuid AiRun AiRun.id) : (data.setRuns family runs).runs other = data.runs other := by
  cases family <;> cases other <;> first | rfl | exact absurd rfl h

theorem settled_of_runs (h : ∀ family, List.Forall₂ Settles (data.runs family).rows
    (data'.runs family).rows) : Settled data data' :=
  ⟨h .assistance, h .generative⟩

/-- The rows after a run is replaced. -/
theorem rows_replaceRun (family : RunFamily) (run : AiRun) :
    ((replaceRun family run data).runs family).rows =
      (data.runs family).rows.map (fun r => if r.id = run.id then run else r) := by
  unfold replaceRun
  rw [runs_setRuns]
  rfl

theorem runs_replaceRun_of_ne {family other : RunFamily} (h : other ≠ family) (run : AiRun) :
    (replaceRun family run data).runs other = data.runs other :=
  runs_setRuns_of_ne h _

/-- **Replacing a run by what it is settled to** is a settlement. -/
theorem settled_replaceRun {family : RunFamily} (hrun : (data.runs family).get? run.id = some run)
    (h : Settles run run') : Settled data (replaceRun family run' data) := by
  refine settled_of_runs fun other => ?_
  by_cases hother : other = family
  · subst hother
    rw [rows_replaceRun, List.forall₂_map_right_iff, List.forall₂_same]
    intro r hr
    split_ifs with hid
    · obtain ⟨hmem, -⟩ := Table.get?_eq_some.mp hrun
      rw [Table.eq_of_key hr hmem (hid.trans h.id)]
      exact h
    · exact .refl r
  · rw [runs_replaceRun_of_ne hother]
    exact List.forall₂_same.mpr fun r _ => .refl r

/-- Replacing a run after settlements. -/
theorem settled_replaceRun_of_settled (family : RunFamily) (run : AiRun)
    (h : Settled data data') : Settled (replaceRun family run data) (replaceRun family run data') := by
  refine settled_of_runs fun other => ?_
  by_cases hother : other = family
  · subst hother
    rw [rows_replaceRun, rows_replaceRun]
    refine List.rel_map (fun r r' hr => ?_) (h.runs other)
    rw [hr.id]
    split_ifs
    · exact .refl run
    · exact hr
  · rw [runs_replaceRun_of_ne hother, runs_replaceRun_of_ne hother]
    exact h.runs other

/-- Another run stays as it is. -/
theorem get?_replaceRun {family other : RunFamily} {id : Uuid} {r : AiRun}
    (hother : (other, id) ≠ (family, run.id)) (h : (data.runs other).get? id = some r) :
    ((replaceRun family run data).runs other).get? id = some r := by
  by_cases hfamily : other = family
  · subst hfamily
    obtain ⟨hr, rfl⟩ := Table.get?_eq_some.mp h
    refine Table.get?_eq_some.mpr ⟨?_, rfl⟩
    rw [rows_replaceRun]
    refine List.mem_map.mpr ⟨r, hr, if_neg fun hid => hother (by rw [hid])⟩
  · rw [runs_replaceRun_of_ne hfamily]
    exact h

/-- **A run is inserted**, or its id was taken. -/
theorem insertRun_cases (data : BudgetData) (family : RunFamily) (run : AiRun) :
    insertRun family run data = data ∨
      ((insertRun family run data).runs family).rows = run :: (data.runs family).rows ∧
        ∀ other, other ≠ family → (insertRun family run data).runs other = data.runs other := by
  unfold insertRun
  cases hinsert : (data.runs family).insert? run with
  | none =>
    refine .inl ?_
    cases family <;> rfl
  | some runs =>
    refine .inr ⟨?_, fun other hother => runs_setRuns_of_ne hother _⟩
    rw [runs_setRuns, Option.getD_some]
    exact Table.rows_of_insert? hinsert

/-- The runs of both families, with one more. -/
theorem perm_all_insertRun {family : RunFamily} {run : AiRun}
    (hrows : (data'.runs family).rows = run :: (data.runs family).rows)
    (hothers : ∀ other, other ≠ family → data'.runs other = data.runs other) :
    data'.all.Perm (run :: data.all) := by
  cases family with
  | assistance =>
    have hother : data'.generativeRuns = data.generativeRuns := hothers .generative (nofun)
    show (data'.assistanceRuns.rows ++ data'.generativeRuns.rows).Perm _
    rw [show data'.assistanceRuns.rows = run :: data.assistanceRuns.rows from hrows, hother]
    exact .refl _
  | generative =>
    have hother : data'.assistanceRuns = data.assistanceRuns := hothers .assistance (nofun)
    show (data'.assistanceRuns.rows ++ data'.generativeRuns.rows).Perm _
    rw [show data'.generativeRuns.rows = run :: data.generativeRuns.rows from hrows, hother]
    exact List.perm_middle

/-! ## The discipline -/

/-- What a lock keeps: under that of the budget runs are only settled, and a run
that is locked stays as it is. -/
def Keeps : Row → Mode → BudgetData → BudgetData → Prop
  | .budget, .update, data, data' => Settled data data'
  | .run family id, .update, data, data' =>
    ∀ run, (data.runs family).get? id = some run → (data'.runs family).get? id = some run
  | _, .share, _, _ => True

/-- **The discipline of the locks.** -/
def discipline : Discipline BudgetData Row where
  Every _ _ := True
  Keeps := Keeps
  every_refl _ := trivial
  every_trans _ _ := trivial
  keeps_refl := by
    rintro (_ | ⟨family, id⟩) (_ | _) data
    case budget.update => exact .refl data
    case run.update => exact fun run h => h
    all_goals trivial
  keeps_trans := by
    rintro (_ | ⟨family, id⟩) (_ | _) a b c h h'
    case budget.update => exact Settled.trans h h'
    case run.update => exact fun run hrun => h' run (h run hrun)
    all_goals trivial

/-- **What holds of the runs** at any moment: one active run for each actor, and the
day's costs below the ceiling. -/
structure WithinBudget (day : Instant) (ceiling : ℤ) (data : BudgetData) : Prop where
  one : ∀ actorId, data.active actorId ≤ 1
  used : data.used day ≤ ceiling

variable {ceiling : ℤ} {locks : Locks Row} {writes : BudgetData → BudgetData}

theorem WithinBudget.of_settled (h : WithinBudget day ceiling data) (hsettled : Settled data data') :
    WithinBudget day ceiling data' :=
  ⟨fun actorId => (active_le_of_settled hsettled actorId).trans (h.one actorId),
    (used_le_of_settled hsettled day).trans h.used⟩

/-! ## Settling -/

/-- **What a transaction has settled**, of the runs it locked. -/
structure Settling (locks : Locks Row) (data : BudgetData) (writes : BudgetData → BudgetData) :
    Prop where
  mono : ∀ {a b}, Settled a b → Settled (writes a) (writes b)
  settled : Settled data (writes data)
  others : ∀ family id, (∀ l ∈ locks, l.fst = .run family id → l.snd.Compatible .update) →
    ∀ a run, (a.runs family).get? id = some run → ((writes a).runs family).get? id = some run
  kept : ∀ data', discipline.Rely locks data data' → Settled data' (writes data')

theorem settling_id (locks : Locks Row) (data : BudgetData) : Settling locks data id :=
  ⟨fun h => h, .refl data, fun _ _ _ _ _ h => h, fun data' _ => .refl data'⟩

theorem Settling.of_rely (h : Settling locks data writes)
    (hrely : discipline.Rely locks data data') : Settling locks data' writes :=
  ⟨h.mono, h.kept data' hrely, h.others, fun _ hrely' => h.kept _ (rely_trans hrely hrely')⟩

theorem Settling.lock (h : Settling locks data writes) (l : Row × Mode) :
    Settling (l :: locks) data writes :=
  ⟨h.mono, h.settled, fun family id hfree => h.others family id
    fun l' hl' => hfree l' (List.mem_cons_of_mem l hl'),
    fun data' hrely => h.kept data' ⟨hrely.1, fun l' hl' => hrely.2 l' (List.mem_cons_of_mem l hl')⟩⟩

/-- **A settlement may be committed.** -/
theorem Settling.mayCommit (h : Settling locks data writes) :
    MayCommit discipline (WithinBudget day ceiling) writes locks data := by
  intro data' hrely hinv
  have hsettled := h.kept data' hrely
  refine ⟨hinv.of_settled hsettled, trivial, fun row mode hfree => ?_⟩
  cases mode with
  | share => cases row <;> trivial
  | update =>
    cases row with
    | budget => exact hsettled
    | run family id => exact fun run hrun => h.others family id hfree data' run hrun

/-- **Settling a run is safe**: it is locked. -/
theorem settleRun_safe {family : RunFamily} {runId : Uuid} {change : AiRun → Option AiRun}
    (hchange : ∀ run, ∀ changed ∈ change run, Settles run changed) :
    Safe discipline (WithinBudget day ceiling) (fun _ writes locks data => Settling locks data writes)
      (settleRun family runId change) id [] data := by
  refine Safe.locking fun first _ _ => Safe.required fun run hrun =>
    Safe.required fun changed hchanged => Safe.writing_last ?_
  have hsettles := hchange run changed hchanged
  obtain ⟨-, hid⟩ := Table.get?_eq_some.mp hrun
  have hkept : ∀ data', discipline.Rely [(.run family runId, .update)] first data' →
      (data'.runs family).get? run.id = some run := by
    intro data' hrely
    rw [hid]
    exact hrely.2 _ List.mem_cons_self run hrun
  refine ⟨settled_replaceRun_of_settled family _, settled_replaceRun (hkept first (rely_refl _ _))
    hsettles, fun other id' hfree a r hr => get?_replaceRun ?_ hr,
    fun data' hrely => settled_replaceRun (hkept data' hrely) hsettles⟩
  -- the run that is settled is locked for an update
  intro heq
  obtain ⟨rfl, hsame⟩ := Prod.mk.inj heq
  have hlocked : Row.run other runId = Row.run other id' := by rw [hsame, hsettles.id, hid]
  exact absurd (hfree _ List.mem_cons_self hlocked).1 (nofun)

/-! ## Reserving -/

/-- **A reservation**, while the budget is locked: the actor has no run, and the
amount fits. -/
structure Reserved (day : Instant) (ceiling : ℤ) (request : Request) (locks : Locks Row)
    (data : BudgetData) (writes : BudgetData → BudgetData) : Prop where
  settling : Settling locks data writes
  locked : (Row.budget, Mode.update) ∈ locks
  free : (writes data).active request.actorId = 0
  fits : request.mode = .meteredUsd → (writes data).used day + request.amount.getD 0 ≤ ceiling

theorem Reserved.of_rely {request : Request} (h : Reserved day ceiling request locks data writes)
    (hrely : discipline.Rely locks data data') : Reserved day ceiling request locks data' writes := by
  have hsettled : Settled (writes data) (writes data') := h.settling.mono (hrely.2 _ h.locked)
  refine ⟨h.settling.of_rely hrely, h.locked, ?_, fun hmode => ?_⟩
  · have hle := active_le_of_settled hsettled request.actorId
    rw [h.free] at hle
    exact Nat.le_zero.mp hle
  · have hle := used_le_of_settled hsettled day
    have hfits := h.fits hmode
    omega

/-- An actor who is not busy has no active run. -/
theorem active_of_not_busy (h : data.busy actorId = false) : data.active actorId = 0 := by
  unfold BudgetData.busy at h
  rw [Bool.or_eq_false_iff, List.any_eq_false, List.any_eq_false] at h
  unfold BudgetData.active BudgetData.all
  rw [List.countP_append, Nat.add_eq_zero_iff, List.countP_eq_zero, List.countP_eq_zero]
  refine ⟨h.1, fun run hrun hactive => h.2 run hrun ?_⟩
  rw [Bool.and_eq_true] at hactive ⊢
  refine ⟨hactive.1, ?_⟩
  rw [AiRun.isBusy, hactive.2, Bool.true_or]

/-- **What a reservation establishes.** -/
theorem reserveAiBudget_safe {request : Request} (hday : utcDay request.now = day)
    (hceiling : ∀ c ∈ request.ceiling, c = ceiling) (h : Settling locks data writes) :
    Safe discipline (WithinBudget day ceiling)
      (fun _ writes locks data => Reserved day ceiling request locks data writes)
      (reserveAiBudget request.actorId request.amount request.ceiling request.mode request.now)
      writes locks data := by
  refine Safe.locking fun first hfirst _ => Safe.reading fun second hsecond _ =>
    Safe.demand fun hbusy => ?_
  have hsettling := ((h.of_rely hfirst).lock (.budget, .update)).of_rely hsecond
  cases hmode : request.mode with
  | chatgptSubscription =>
    exact Safe.demand_last fun _ => ⟨hsettling, List.mem_cons_self, active_of_not_busy hbusy,
      fun hmetered => by rw [hmode] at hmetered; cases hmetered⟩
  | meteredUsd =>
    refine Safe.reading fun third hthird _ => Safe.required fun amount hamount =>
      Safe.required fun c hc => Safe.demand_last fun hfits => ?_
    have hread : Reserved day ceiling { request with mode := .chatgptSubscription } _ second writes :=
      ⟨hsettling, List.mem_cons_self, active_of_not_busy hbusy, fun hmetered => (nomatch hmetered)⟩
    have hthere := hread.of_rely hthird
    refine ⟨hthere.settling, hthere.locked, hthere.free, fun _ => ?_⟩
    rw [hamount, Option.getD_some, ← hceiling c hc, ← hday]
    exact hfits.2.2

/-- **Inserting the reserved run may be committed.** -/
theorem Reserved.mayCommit {request : Request} {family : RunFamily}
    (h : Reserved day ceiling request locks data writes) :
    MayCommit discipline (WithinBudget day ceiling) (insertRun family request.run ∘ writes) locks
      data := by
  intro data' hrely hinv
  have hready := h.of_rely hrely
  have hinv' := hinv.of_settled hready.settling.settled
  obtain hsame | ⟨hrows, hothers⟩ := insertRun_cases (writes data') family request.run
  · rw [Function.comp_apply, hsame]
    exact hready.settling.mayCommit data' (rely_refl _ _) hinv
  · refine ⟨⟨fun actorId => ?_, ?_⟩, trivial, fun row mode hfree => ?_⟩
    · have hperm := perm_all_insertRun hrows hothers
      rw [Function.comp_apply, BudgetData.active, hperm.countP_eq, List.countP_cons]
      by_cases hactor : request.actorId = actorId
      · rw [← hactor]
        have hfree : List.countP _ (writes data').all = 0 := hready.free
        rw [hfree]
        split_ifs <;> decide
      · have hother : ¬ ((request.run.requestedById = actorId && request.run.isActive) = true) := by
          rw [Bool.and_eq_true, decide_eq_true_eq]
          exact fun hand => hactor hand.1
        rw [if_neg hother]
        exact hinv'.one actorId
    · have hperm := perm_all_insertRun hrows hothers
      have hused : (insertRun family request.run (writes data')).used day =
          ((List.filter (AiRun.isCharged day) (request.run :: (writes data').all)).map
            AiRun.cost).sum :=
        ((hperm.filter _).map _).sum_eq
      rw [Function.comp_apply, hused, List.filter_cons]
      split_ifs with hcharged
      · have hmode : request.mode = .meteredUsd := by
          unfold AiRun.isCharged at hcharged
          rw [Bool.and_eq_true, decide_eq_true_eq] at hcharged
          exact hcharged.1
        have hfits := hready.fits hmode
        have hcost : request.run.cost = request.amount.getD 0 := rfl
        rw [List.map_cons, List.sum_cons, hcost, add_comm]
        exact hfits
      · exact hinv'.used
    · cases mode with
      | share => cases row <;> trivial
      | update =>
        cases row with
        | budget => exact absurd (hfree _ hready.locked rfl).1 (nofun)
        | run other id =>
          intro run hrun
          have hwritten := hready.settling.others other id hfree data' run hrun
          obtain ⟨hmem, hid⟩ := Table.get?_eq_some.mp hwritten
          refine Table.get?_eq_some.mpr ⟨?_, hid⟩
          by_cases hother : other = family
          · subst hother
            rw [Function.comp_apply, hrows]
            exact List.mem_cons_of_mem _ hmem
          · rw [Function.comp_apply, hothers other hother]
            exact hmem

/-! ## Every transaction -/

/-- **The transactions** of a day, for one ceiling: those that reserve and insert a
run, and settlements. -/
inductive IsTransaction (day : Instant) (ceiling : ℤ) : Statements Unit → Prop
  | assistance {request : Request} (hday : utcDay request.now = day)
    (hceiling : ∀ c ∈ request.ceiling, c = ceiling) :
    IsTransaction day ceiling (requestAssistance request)
  | workspace {request : Request} {previous : Option (Uuid × (AiRun → Option AiRun))}
    (hday : utcDay request.now = day) (hceiling : ∀ c ∈ request.ceiling, c = ceiling)
    (hprevious : ∀ p ∈ previous, ∀ run, ∀ changed ∈ p.snd run, Settles run changed) :
    IsTransaction day ceiling (requestWorkspaceRun request previous)
  | settlement {family : RunFamily} {id : Uuid} {change : AiRun → Option AiRun}
    (hchange : ∀ run, ∀ changed ∈ change run, Settles run changed) :
    IsTransaction day ceiling (settleRun family id change)

/-- **Every transaction is safe.** -/
theorem IsTransaction.safe {p : Statements Unit} (h : IsTransaction day ceiling p) :
    Safe discipline (WithinBudget day ceiling)
      (fun _ => MayCommit discipline (WithinBudget day ceiling)) p id [] data := by
  cases h with
  | assistance hday hceiling =>
    exact (reserveAiBudget_safe hday hceiling (settling_id _ _)).bind
      fun _ _ _ _ hreserved => Safe.writing_last hreserved.mayCommit
  | @workspace request previous hday hceiling hprevious =>
    refine Safe.bind (Q := fun _ writes locks data => Settling locks data writes) ?_
      fun _ _ _ _ hsettling => (reserveAiBudget_safe hday hceiling hsettling).bind
        fun _ _ _ _ hreserved => Safe.writing_last hreserved.mayCommit
    cases previous with
    | none => exact settling_id _ _
    | some p => exact settleRun_safe (hprevious p rfl)
  | settlement hchange =>
    exact (settleRun_safe hchange).mono fun _ _ _ _ hsettling => hsettling.mayCommit

/-- **The budget of a day**: from runs that are within it, in every state that is
committed, however transactions interleave, an actor has at most one run that is
queued or running, and the day's costs are not above the ceiling. -/
theorem withinBudget_of_reachable {start : BudgetData} (hstart : WithinBudget day ceiling start)
    {w : World BudgetData Row Unit} (h : Reachable (IsTransaction day ceiling) start w) :
    WithinBudget day ceiling w.data :=
  inv_of_reachable (R := discipline) (fun _ hp _ _ => hp.safe) hstart h

/-! ## A run -/

/-- A request of the sample run: so many micros of a hundred. -/
def sampleRequest (runId actorId : Uuid) (amount : ℤ) : Request :=
  ⟨runId, actorId, some amount, some 100, .meteredUsd, 5⟩

/-- The cost a settlement of the sample run records. -/
def recordCost (actual : ℤ) (run : AiRun) : Option AiRun :=
  if run.actualCostMicros = none ∧ run.reservedCostMicros.any (fun reserved => actual ≤ reserved) then
    some { run with
      state := .completed, inferenceOutcome := .settled, actualCostMicros := some actual }
  else none

theorem settles_recordCost (actual : ℤ) (run : AiRun) :
    ∀ changed ∈ recordCost actual run, Settles run changed := by
  intro changed h
  rw [Option.mem_def, recordCost] at h
  split_ifs at h with hrecorded
  obtain rfl := Option.some.inj h
  cases hreserved : run.reservedCostMicros with
  | none =>
    rw [hreserved] at hrecorded
    exact absurd hrecorded.2 Bool.false_ne_true
  | some reserved =>
    rw [hreserved] at hrecorded
    exact ⟨rfl, rfl, rfl, rfl, hreserved.symm, fun hactive => (nomatch hactive),
      .inr ⟨hrecorded.1, actual, reserved, rfl, hreserved, of_decide_eq_true hrecorded.2⟩⟩

/-- No run yet. -/
def sampleStart : BudgetData := ⟨Table.empty, Table.empty⟩

/-- Two actors reserve in turns, then a third one while the first run is settled,
whose amount fits only after that. -/
def sampleWorld : World BudgetData Row Unit :=
  let reserved := (List.replicate 10 [0, 1]).flatten.foldl World.advance
    (((⟨sampleStart, []⟩ : World BudgetData Row Unit).started
      (requestWorkspaceRun (sampleRequest "run-2" "boris" 30) none)).started
      (requestAssistance (sampleRequest "run-1" "anna" 60)))
  (List.replicate 10 [0, 1]).flatten.foldl World.advance
    ((reserved.started (requestWorkspaceRun (sampleRequest "run-3" "clara" 30) none)).started
      (settleRun .assistance "run-1" (recordCost 40)))

theorem reachable_sampleWorld : Reachable (IsTransaction 0 100) sampleStart sampleWorld := by
  have hceiling : ∀ runId actorId amount, ∀ c ∈ (sampleRequest runId actorId amount).ceiling,
      c = 100 := fun _ _ _ _ hc => (Option.some.inj hc).symm
  have hworkspace : ∀ runId actorId amount, IsTransaction 0 100
      (requestWorkspaceRun (sampleRequest runId actorId amount) none) :=
    fun _ _ _ => .workspace rfl (hceiling _ _ _) (fun _ h => (nomatch h))
  have hreserved := (((Reachable.init sampleStart).started (hworkspace "run-2" "boris" 30)).started
    (.assistance rfl (hceiling "run-1" "anna" 60))).schedule (List.replicate 10 [0, 1]).flatten
  exact ((hreserved.started (hworkspace "run-3" "clara" 30)).started
    (.settlement (settles_recordCost 40))).schedule _

/-- **The sample run** ends with three runs, a hundred micros in all. -/
theorem withinBudget_of_sampleRun :
    sampleWorld.data.all.map AiRun.cost = [40, 30, 30] ∧ WithinBudget 0 100 sampleWorld.data :=
  ⟨by decide +kernel, withinBudget_of_reachable
    (⟨fun _ => Nat.zero_le 1, by decide⟩ : WithinBudget 0 100 sampleStart) reachable_sampleWorld⟩

end AiBudget
