import Mathlib.Data.Int.Interval
import Mathlib.Order.ConditionallyCompleteLattice.Finset
import Mathlib.Data.Int.ConditionallyCompleteOrder
import Mathlib.Tactic.Ring

/-!
# The length of a set of instants

Instants are whole numbers – of milliseconds, say – and each stands for the unit of time
that begins with it. The *length* of a property on a half-open interval is the number of
its instants there. It is additive over any split of the interval, hence over blocks of
equal size, and what a list of disjoint windows covers has the sum of the lengths of what
is left of each window.
-/

namespace Instants

/-- **The length** of a property between two instants. -/
noncomputable def length (p : ℤ → Bool) (a b : ℤ) : ℕ := ((Finset.Ico a b).filter (fun t => p t = true)).card

variable {p q : ℤ → Bool} {a b c : ℤ}

theorem length_of_le (h : b ≤ a) : length p a b = 0 := by
  unfold length
  rw [Finset.Ico_eq_empty (not_lt.mpr h), Finset.filter_empty, Finset.card_empty]

/-- **Any instant splits an interval.** -/
theorem length_split (hab : a ≤ b) (hbc : b ≤ c) :
    length p a c = length p a b + length p b c := by
  unfold length
  rw [← Finset.Ico_union_Ico_eq_Ico hab hbc, Finset.filter_union]
  refine Finset.card_union_of_disjoint ?_
  exact Finset.disjoint_filter_filter (Finset.Ico_disjoint_Ico_consecutive a b c)

theorem length_le (hab : a ≤ b) : (length p a b : ℤ) ≤ b - a := by
  have hcard := Finset.card_filter_le (Finset.Ico a b) (fun t => p t = true)
  rw [Int.card_Ico] at hcard
  have : (length p a b : ℤ) ≤ ((b - a).toNat : ℤ) := Int.ofNat_le.mpr hcard
  omega

theorem length_congr (h : ∀ t, a ≤ t → t < b → p t = q t) : length p a b = length q a b := by
  unfold length
  refine congrArg Finset.card (Finset.filter_congr (fun t ht => ?_))
  have hbounds := Finset.mem_Ico.mp ht
  rw [h t hbounds.1 hbounds.2]

/-! ## Windows -/

/-- A half-open window. -/
def inWindow (w : ℤ × ℤ) (t : ℤ) : Bool := decide (w.1 ≤ t ∧ t < w.2)

theorem length_inWindow (w : ℤ × ℤ) :
    length (inWindow w) a b = (min b w.2 - max a w.1).toNat := by
  have hset : (Finset.Ico a b).filter (fun t => inWindow w t = true)
      = Finset.Ico (max a w.1) (min b w.2) := by
    ext t
    rw [Finset.mem_filter, Finset.mem_Ico, Finset.mem_Ico, inWindow, decide_eq_true_iff]
    omega
  unfold length
  rw [hset, Int.card_Ico]

theorem length_or (h : ∀ t, a ≤ t → t < b → p t = true → q t = false) :
    length (fun t => p t || q t) a b = length p a b + length q a b := by
  have hset : (Finset.Ico a b).filter (fun t => (p t || q t) = true)
      = (Finset.Ico a b).filter (fun t => p t = true)
        ∪ (Finset.Ico a b).filter (fun t => q t = true) := by
    rw [← Finset.filter_or]
    exact Finset.filter_congr (fun t _ => Bool.or_eq_true _ _ ▸ Iff.rfl)
  unfold length
  rw [hset]
  refine Finset.card_union_of_disjoint ?_
  rw [Finset.disjoint_filter]
  intro t ht hp hq
  have hbounds := Finset.mem_Ico.mp ht
  exact absurd (hq.symm.trans (h t hbounds.1 hbounds.2 hp)) (by decide)

/-- **Disjoint windows** cover the sum of what each covers. -/
theorem length_windows {windows : List (ℤ × ℤ)}
    (hdisjoint : windows.Pairwise (fun v w => v.2 ≤ w.1)) :
    length (fun t => windows.any (inWindow · t)) a b
      = (windows.map (fun w => (min b w.2 - max a w.1).toNat)).sum := by
  induction windows with
  | nil =>
    unfold length
    rw [Finset.filter_false_of_mem (fun t _ => by simp), Finset.card_empty]
    rfl
  | cons v windows ih =>
    obtain ⟨hv, hrest⟩ := List.pairwise_cons.mp hdisjoint
    rw [List.map_cons, List.sum_cons, ← ih hrest, ← length_inWindow]
    simp only [List.any_cons]
    refine length_or (fun t _ _ hin => List.any_eq_false.mpr (fun w hw hw' => ?_))
    have hvw := hv w hw
    rw [inWindow, decide_eq_true_iff] at hin hw'
    omega

/-! ## Blocks -/

/-- What is left of a block of an interval. -/
noncomputable def blockLength (p : ℤ → Bool) (a b size start : ℤ) : ℕ :=
  length p (max a start) (min b (start + size))

/-- **Blocks of equal size** that begin before an interval have its length up to where
they end. -/
theorem sum_blockLength (p : ℤ → Bool) {size start : ℤ} (hsize : 0 ≤ size) (hstart : start ≤ a)
    (n : ℕ) :
    ((List.range n).map (fun i : ℕ => blockLength p a b size (start + i * size))).sum
      = length p a (min b (start + n * size)) := by
  induction n with
  | zero => exact (length_of_le (by simp only [Int.natCast_zero]; omega)).symm
  | succ n ih =>
    rw [List.range_succ, List.map_append, List.sum_append, ih, List.map_singleton,
      List.sum_singleton, blockLength]
    have hnext : start + ((n + 1 : ℕ) : ℤ) * size = start + n * size + size := by
      push_cast
      ring
    rw [hnext]
    generalize start + (n : ℤ) * size = x
    by_cases hxa : x ≤ a
    · rw [length_of_le (by omega), zero_add, max_eq_left hxa]
    · by_cases hbx : b ≤ x
      · rw [min_eq_left hbx, length_of_le (a := max a x) (by omega), add_zero,
          min_eq_left (by omega)]
      · rw [min_eq_right (by omega), max_eq_right (by omega)]
        exact (length_split (by omega) (by omega)).symm

end Instants
