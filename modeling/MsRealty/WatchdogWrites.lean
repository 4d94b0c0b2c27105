import MsRealty.WatchdogReopening

/-!
# What the log of the watchdog shows

In every run, whatever is asked, fails or crashes, `mutate` writes a route of a
lease at most once (`mutate_once`), and every write follows what justifies it
(`writes_justified`).
-/

namespace Watchdog

variable {w w' : World} {s s' : LeaseState}

/-! ## One write for each route -/

/-- A route of the lease of an operation. -/
structure LeaseRoute where
  operationId : Uuid
  zone : String
  pattern : String

variable {route : LeaseRoute}

/-- Whether an entry is a write of `mutate` for a route. -/
def Entry.isMutateWrite (route : LeaseRoute) (e : Entry) : Bool :=
  match e.during, e.act with
  | .request (.named operationId _ (.mutate zone pattern)), .wrote _ _ _ =>
    operationId = route.operationId && zone = route.zone && pattern = route.pattern
  | _, _ => false

/-- How often `mutate` wrote a route. -/
def mutateWrites (route : LeaseRoute) (log : List Entry) : ℕ :=
  log.countP (Entry.isMutateWrite route)

theorem mutateWrites_cons {e : Entry} (he : e.isMutateWrite route = false) (log : List Entry) :
    mutateWrites route (e :: log) = mutateWrites route log :=
  List.countP_cons_of_neg (by simp [he])

/-- **A route of an operation cannot be written again** in a state: its intent is
stored, or the time to change routes is over. -/
def LeaseState.Wrote (route : LeaseRoute) (s : LeaseState) : Prop :=
  s.scope.operationId = route.operationId → s.status ≠ .reserved ∧
    (s.status = .armed → ∃ intent ∈ s.intents, intent.isFor route.zone route.pattern)

theorem Next.wrote (h : Next w s s') (hs : s.Wrote route) : s'.Wrote route := by
  intro hid
  rw [h.scope] at hid
  obtain ⟨hreserved, hintent⟩ := hs hid
  refine ⟨fun hs' => hreserved (h.reserved hs'), fun hs' => ?_⟩
  have harmed := (h.armed hs').resolve_right hreserved
  obtain ⟨intent₀, hmem, hfor⟩ := hintent harmed
  have hnot : ∀ {status : Status}, s.status = status → status = .armed := fun h => h ▸ harmed
  cases h with
  | intend => exact ⟨intent₀, List.mem_append_left _ hmem, hfor⟩
  | acknowledge _ hintents =>
    rw [hintents] at hmem
    obtain hmem | hmem := List.mem_append.mp hmem
    · exact ⟨intent₀, List.mem_append_left _ hmem, hfor⟩
    · obtain rfl := List.mem_singleton.mp hmem
      exact ⟨_, List.mem_append_right _ (List.mem_singleton_self _), hfor⟩
  | found h => cases hnot h
  | restored _ h => cases hnot h
  | endRound _ h => cases hnot h
  | lateWrite _ h => cases hnot h
  | lateWritten _ _ h => cases hnot h
  | _ => exact ⟨intent₀, hmem, hfor⟩

/-- **The operation is known, and its route cannot be written again.** -/
def Kept (route : LeaseRoute) (w : World) : Prop :=
  ((∃ s, w.active = some s ∧ s.scope.operationId = route.operationId) ∨
    ∃ lease ∈ w.history, lease.fst = route.operationId) ∧
  ∀ s, w.active = some s → s.Wrote route

theorem Kept.move (h : Kept route w) (hmove : Move w w') : Kept route w' := by
  obtain ⟨hknown, hwrote⟩ := h
  obtain ⟨hactive, hhistory⟩ | ⟨t, -, -, hactive, hhistory⟩ |
    ⟨scope, now, hactive, hhistory, hprior, hunused⟩ | ⟨t, t', ht, hnext, hactive, hhistory⟩ :=
    hmove.leases
  · rw [Kept, hactive, hhistory]
    exact ⟨hknown, hwrote⟩
  · rw [Kept, hactive, hhistory]
    exact ⟨hknown.imp_right fun ⟨lease, h, hid⟩ => ⟨lease, List.mem_cons_of_mem _ h, hid⟩, hwrote⟩
  · -- the operation is in the history by now, so it is not the one that reserves
    have hheld : ∃ lease ∈ w.history, lease.fst = route.operationId := by
      obtain ⟨s, hs, hid⟩ | hheld := hknown
      · exact hid ▸ (hprior s hs).2
      · exact hheld
    rw [Kept, hactive, hhistory]
    refine ⟨.inr hheld, fun s hs hid => ?_⟩
    obtain rfl := Option.some.inj hs
    obtain ⟨lease, hlease, hfst⟩ := hheld
    exact absurd (hfst.trans hid.symm) (hunused lease hlease)
  · rw [Kept, hactive, hhistory]
    refine ⟨hknown.imp_left ?_, fun s hs => ?_⟩
    · rintro ⟨s, hs, hid⟩
      obtain rfl := Option.some.inj (hs.symm.trans ht)
      exact ⟨t', rfl, hid ▸ congrArg Scope.operationId hnext.scope⟩
    · obtain rfl := Option.some.inj hs
      exact hnext.wrote (hwrote t ht)

/-- **Before `mutate` writes a route**, its intent is stored, and was not there before. -/
theorem MayWrite.mutate {zone : String} {write : RouteWrite} {answer : Option Route}
    (h : MayWrite w zone write)
    (he : Entry.isMutateWrite route ⟨w.serving, .wrote zone write answer⟩ = true) :
    Kept route w ∧ ∃ s, lastStored w.log.tail = some s ∧ ¬ s.Wrote route := by
  cases h with
  | @change s plan intent rest hserving hactive hlog hrest hstatus hplan hnew hid =>
    simp only [Entry.isMutateWrite, hserving, Bool.and_eq_true, decide_eq_true_eq] at he
    obtain ⟨⟨hoperation, hzone⟩, hpattern⟩ := he
    refine ⟨⟨.inl ⟨_, hactive, hoperation⟩, fun t ht => ?_⟩, s, ?_, fun hwrote => ?_⟩
    · obtain rfl := Option.some.inj (hactive.symm.trans ht)
      refine fun _ => ⟨fun h => (nomatch hstatus.symm.trans h), fun _ => ?_⟩
      exact ⟨intent, List.mem_append_right _ (List.mem_singleton_self _), hzone, hpattern⟩
    · rw [hlog]
      exact hrest
    · obtain ⟨i, hi, hfor⟩ := (hwrote hoperation).2 hstatus
      rw [← hzone, ← hpattern] at hfor
      exact hnew i hi hfor
  | putBack hserving => simp [Entry.isMutateWrite, hserving] at he
  | remove hserving => simp [Entry.isMutateWrite, hserving] at he
  | late hserving => simp [Entry.isMutateWrite, hserving] at he

/-- **The route was written at most once**, and if it was, it cannot be again, nor
could it when the newest entry was added. -/
structure WrittenOnce (route : LeaseRoute) (w : World) : Prop where
  once : mutateWrites route w.log ≤ 1
  kept : 0 < mutateWrites route w.log → Kept route w ∧
    ∀ s, lastStored w.log.tail = some s → s.Wrote route

theorem WrittenOnce.begin (h : WrittenOnce route w) (hsound : Sound w) (event : Event) :
    WrittenOnce route (w.begin event) := by
  have hcount : mutateWrites route (w.begin event).log
      = mutateWrites route w.log :=
    mutateWrites_cons (by simp [Entry.isMutateWrite]) _
  refine ⟨hcount ▸ h.once, fun hpos => ?_⟩
  have hkept := (h.kept (hcount ▸ hpos)).1
  exact ⟨hkept, fun s hs => hkept.2 s (hsound.stored.symm.trans hs)⟩

theorem WrittenOnce.move (h : WrittenOnce route w) (hsound : Sound w) (hmove : Move w w') :
    WrittenOnce route w' := by
  obtain hsame | ⟨act, hcons, hmay⟩ := hmove.log
  · refine ⟨hsame ▸ h.once, fun hpos => ?_⟩
    rw [hsame] at hpos ⊢
    exact ⟨(h.kept hpos).1.move hmove, (h.kept hpos).2⟩
  · have hstep : mutateWrites route w'.log ≤ 1 ∧
        (0 < mutateWrites route w'.log → Kept route w) := by
      rw [hcons]
      cases he : Entry.isMutateWrite route ⟨w.serving, act⟩ with
      | false =>
        rw [mutateWrites_cons he]
        exact ⟨h.once, fun hpos => (h.kept hpos).1⟩
      | true =>
        rw [mutateWrites, List.countP_cons_of_pos he]
        cases act with
        | wrote zone write answer =>
          obtain ⟨hkept, s, hs, hnew⟩ := (hmay zone write answer rfl).mutate he
          have hnone := Nat.eq_zero_of_not_pos (fun hpos => hnew ((h.kept hpos).2 s hs))
          exact ⟨Nat.le_of_eq (congrArg (· + 1) hnone), fun _ => hkept⟩
        | _ => simp [Entry.isMutateWrite] at he
    refine ⟨hstep.1, fun hpos => ⟨(hstep.2 hpos).move hmove, fun s hs => ?_⟩⟩
    rw [hcons, List.tail_cons, hsound.stored] at hs
    exact (hstep.2 hpos).2 s hs

/-- **`mutate` writes a route of a lease at most once**, in every run. -/
theorem mutate_once {host : Host} (h : Reachable host w) (route : LeaseRoute) :
    mutateWrites route w.log ≤ 1 := by
  obtain ⟨w₀, hinitial, hrun⟩ := h
  have hnone : mutateWrites route w₀.log = 0 := by
    rw [hinitial.log]
    rfl
  exact (run_induction (P := WrittenOnce route)
    (fun w event hsound _ h => h.begin hsound event)
    (fun w w' hsound h hmove => h.move hsound hmove) hrun hinitial.sound
    ⟨hnone ▸ Nat.zero_le 1, fun hpos => absurd hnone hpos.ne'⟩).2.once

theorem reachable_sample : Reachable sampleHost (sampleAfter sampleEvents sampleWorld) :=
  ⟨sampleWorld, initial_sampleWorld, run_sampleAfter _ _ (fun _ _ _ => trivial)⟩

theorem mutate_once_sample :
    mutateWrites ⟨sampleOperation, comZone, rehearsalPattern sampleOperation⟩
      (sampleAfter sampleEvents sampleWorld).log ≤ 1 :=
  mutate_once reachable_sample _

/-! ## Why a write is issued -/

/-- **A write in the log is justified** by what was stored and read before it. -/
def WriteJustified (e : Entry) (log : List Entry) : Prop :=
  ∀ zone write answer, e.act = .wrote zone write answer →
    ∃ w, w.log = log ∧ w.serving = e.during ∧ w.active = lastStored log ∧ MayWrite w zone write

/-- **Every write is justified**, in every run: that of `mutate` by an intent that was
stored just before, a restoring one by the row that was read last. -/
theorem writes_justified {host : Host} (h : Reachable host w) :
    Throughout WriteJustified [] w.log := by
  obtain ⟨w₀, hinitial, hrun⟩ := h
  refine (run_induction (P := fun w => Throughout WriteJustified [] w.log)
    (fun _ _ _ _ h => .cons (fun _ _ _ h => nomatch h) h) (fun w w' hsound h hmove => ?_)
    hrun hinitial.sound (hinitial.log ▸ .refl)).2
  obtain hsame | ⟨act, hcons, hmay⟩ := hmove.log
  · exact hsame ▸ h
  · rw [hcons]
    exact .cons (fun zone write answer hact =>
      ⟨w, rfl, rfl, hsound.stored.symm, hmay zone write answer hact⟩) h

theorem writes_justified_sample :
    Throughout WriteJustified [] (sampleAfter sampleEvents sampleWorld).log :=
  writes_justified reachable_sample

end Watchdog
