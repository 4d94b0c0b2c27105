import Mathlib.Data.Rat.Floor
import Mathlib.Data.Int.Log
import Mathlib.Tactic.Positivity

/-!
# Numbers of 53 binary digits

The numbers of a program are fractions with 53 binary digits. Reading a
decimal takes the *nearest* of them, ties to even (`nearest`), and writing one
takes a decimal with the fewest digits that reads as it (`shortest`).

Only non-negative numbers are rounded here, and the exponent has no bounds:
what is beyond the largest number of the format stays finite.

## Why a short decimal is found

Rounding is monotone (`nearest_mono`), so the decimals that read as a number
are those between two bounds. If one with so many decimals is among them, then
so is one of the two next to the number (`shortest_grid`).
-/

namespace Binary64

/-! ## The nearest whole number -/

/-- **The nearest whole number**, ties to even. -/
def roundEven (q : ℚ) : ℤ :=
  if Int.fract q < 1 / 2 then ⌊q⌋
  else if 1 / 2 < Int.fract q then ⌊q⌋ + 1
  else if Even ⌊q⌋ then ⌊q⌋ else ⌊q⌋ + 1

theorem floor_le_roundEven (q : ℚ) : ⌊q⌋ ≤ roundEven q := by
  unfold roundEven
  split_ifs <;> omega

theorem roundEven_le_floor_add_one (q : ℚ) : roundEven q ≤ ⌊q⌋ + 1 := by
  unfold roundEven
  split_ifs <;> omega

@[simp] theorem roundEven_intCast (n : ℤ) : roundEven n = n := by
  unfold roundEven
  rw [Int.fract_intCast, if_pos (by norm_num), Int.floor_intCast]

theorem roundEven_mono {p q : ℚ} (h : p ≤ q) : roundEven p ≤ roundEven q := by
  obtain hfloor | hfloor := (Int.floor_le_floor h).lt_or_eq
  · have hup := roundEven_le_floor_add_one p
    have hdown := floor_le_roundEven q
    omega
  · have hfract : Int.fract p ≤ Int.fract q := by
      rw [Int.fract, Int.fract, hfloor]
      linarith
    unfold roundEven
    rw [hfloor]
    split_ifs <;> first | omega | exfalso; linarith

theorem roundEven_sub_le (q : ℚ) : (roundEven q : ℚ) - q ≤ 1 / 2 := by
  have hfract := Int.self_sub_floor q
  have hnonneg := Int.fract_nonneg q
  unfold roundEven
  split_ifs <;> push_cast <;> linarith

/-! ## The nearest number -/

/-- The last place of a number. -/
def ulp (q : ℚ) : ℚ := 2 ^ (Int.log 2 q - 52)

/-- **The nearest number of 53 binary digits.** -/
def nearest (q : ℚ) : ℚ := roundEven (q / ulp q) * ulp q

theorem ulp_pos (q : ℚ) : 0 < ulp q := zpow_pos (by norm_num) _

@[simp] theorem nearest_zero : nearest 0 = 0 := by
  rw [nearest, zero_div, show (0 : ℚ) = ((0 : ℤ) : ℚ) from rfl, roundEven_intCast, Int.cast_zero,
    zero_mul]

theorem two_pow_log (q : ℚ) : (2 : ℚ) ^ Int.log 2 q = 2 ^ 52 * ulp q := by
  rw [ulp, ← zpow_natCast, ← zpow_add₀ (by norm_num)]
  congr 1
  push_cast
  omega

theorem le_div_ulp {q : ℚ} (hq : 0 < q) : (2 ^ 52 : ℤ) ≤ q / ulp q := by
  have h := Int.zpow_log_le_self (b := 2) (by norm_num) hq
  rw [Int.cast_pow, Int.cast_ofNat, le_div_iff₀ (ulp_pos q), ← two_pow_log]
  exact h

theorem div_ulp_le (q : ℚ) : q / ulp q ≤ (2 ^ 53 : ℤ) := by
  have h := (Int.lt_zpow_succ_log_self (b := 2) (by norm_num) q).le
  rw [zpow_add₀ (by norm_num), zpow_one, Nat.cast_ofNat, two_pow_log] at h
  rw [Int.cast_pow, Int.cast_ofNat, div_le_iff₀ (ulp_pos q)]
  linarith

/-- **Rounding stays between the powers of two.** -/
theorem nearest_bounds {q : ℚ} (hq : 0 < q) :
    (2 : ℚ) ^ Int.log 2 q ≤ nearest q ∧ nearest q ≤ 2 ^ (Int.log 2 q + 1) := by
  have hlow : ((2 ^ 52 : ℤ) : ℚ) ≤ roundEven (q / ulp q) := by
    have h := roundEven_mono (le_div_ulp hq)
    rw [roundEven_intCast] at h
    exact_mod_cast h
  have hhigh : (roundEven (q / ulp q) : ℚ) ≤ (2 ^ 53 : ℤ) := by
    have h := roundEven_mono (div_ulp_le q)
    rw [roundEven_intCast] at h
    exact_mod_cast h
  have hpos := ulp_pos q
  rw [zpow_add₀ (by norm_num), zpow_one, two_pow_log, nearest]
  push_cast at hlow hhigh
  refine ⟨mul_le_mul_of_nonneg_right hlow hpos.le, ?_⟩
  calc (roundEven (q / ulp q) : ℚ) * ulp q ≤ 2 ^ 53 * ulp q :=
        mul_le_mul_of_nonneg_right hhigh hpos.le
    _ = 2 ^ 52 * ulp q * 2 := by ring

theorem nearest_pos {q : ℚ} (hq : 0 < q) : 0 < nearest q :=
  lt_of_lt_of_le (zpow_pos (by norm_num) _) (nearest_bounds hq).1

/-- **Rounding is monotone.** -/
theorem nearest_mono {p q : ℚ} (hp : 0 ≤ p) (h : p ≤ q) : nearest p ≤ nearest q := by
  obtain hp | rfl := hp.lt_or_eq
  · have hq := lt_of_lt_of_le hp h
    obtain hlog | hlog := (Int.log_mono_right (b := 2) hp h).lt_or_eq
    · calc nearest p ≤ 2 ^ (Int.log 2 p + 1) := (nearest_bounds hp).2
        _ ≤ 2 ^ Int.log 2 q := zpow_le_zpow_right₀ (by norm_num) hlog
        _ ≤ nearest q := (nearest_bounds hq).1
    · have hulp : ulp p = ulp q := by rw [ulp, ulp, hlog]
      have hround := roundEven_mono (div_le_div_of_nonneg_right h (ulp_pos q).le)
      rw [nearest, nearest, hulp]
      exact mul_le_mul_of_nonneg_right (by exact_mod_cast hround) (ulp_pos q).le
  · rw [nearest_zero]
    obtain hq | rfl := h.lt_or_eq
    · exact (nearest_pos hq).le
    · exact nearest_zero.ge

theorem nearest_eq_of_multiple {q : ℚ} (n : ℤ) (h : q = n * ulp q) : nearest q = q := by
  have hdiv : q / ulp q = n := by rw [div_eq_iff (ulp_pos q).ne', ← h]
  rw [nearest, hdiv, roundEven_intCast, ← h]

/-- **What 53 binary digits write is a number.** -/
theorem nearest_eq_self {n : ℕ} {e : ℤ} (hn : n ≤ 2 ^ 53) :
    nearest ((n : ℚ) * 2 ^ e) = n * 2 ^ e := by
  obtain rfl | hpos := Nat.eq_zero_or_pos n
  · rw [Nat.cast_zero, zero_mul, nearest_zero]
  · generalize hq : (n : ℚ) * 2 ^ e = q
    have hqpos : 0 < q := by
      rw [← hq]
      exact mul_pos (by exact_mod_cast hpos) (zpow_pos (by norm_num) _)
    have hlow := Int.zpow_log_le_self (b := 2) (by norm_num) hqpos
    push_cast at hlow
    obtain hlog | hlog := le_or_gt (Int.log 2 q) (e + 52)
    · obtain ⟨j, hj⟩ := Int.eq_ofNat_of_zero_le (sub_nonneg.mpr hlog)
      refine nearest_eq_of_multiple ((n * 2 ^ j : ℕ) : ℤ) ?_
      push_cast
      rw [mul_assoc, ulp, ← zpow_natCast, ← zpow_add₀ (by norm_num), ← hq]
      congr 2
      rw [hq]
      omega
    · have hfull : (2 : ℚ) ^ (e + 53) ≤ n * 2 ^ e :=
        le_trans (zpow_le_zpow_right₀ (by norm_num) (by omega)) (hlow.trans hq.ge)
      rw [zpow_add₀ (by norm_num), mul_comm] at hfull
      have hge : (2 : ℚ) ^ (53 : ℤ) ≤ n := le_of_mul_le_mul_right hfull (zpow_pos (by norm_num) _)
      have heq : n = 2 ^ 53 := le_antisymm hn (by exact_mod_cast hge)
      have hpow : q = 2 ^ (e + 53) := by
        rw [← hq, heq, zpow_add₀ (by norm_num), mul_comm]
        norm_num
      have hlog : Int.log 2 q = e + 53 := by
        rw [hpow]
        exact_mod_cast Int.log_zpow (R := ℚ) (b := 2) (by norm_num) (e + 53)
      refine nearest_eq_of_multiple (2 ^ 52) ?_
      rw [Int.cast_pow, Int.cast_ofNat, ← two_pow_log, hlog]
      exact hpow

/-- **Rounding a number leaves it.** -/
@[simp] theorem nearest_nearest {q : ℚ} (hq : 0 ≤ q) : nearest (nearest q) = nearest q := by
  obtain hq | rfl := hq.lt_or_eq
  · have hround := roundEven_mono (div_ulp_le q)
    rw [roundEven_intCast] at hround
    have hnonneg : 0 ≤ roundEven (q / ulp q) := by
      have h := roundEven_mono (le_div_ulp hq)
      rw [roundEven_intCast] at h
      exact le_trans (by norm_num) h
    obtain ⟨n, hn⟩ := Int.eq_ofNat_of_zero_le hnonneg
    rw [hn] at hround
    have h := nearest_eq_self (e := Int.log 2 q - 52) (n := n) (by exact_mod_cast hround)
    have hnearest : nearest q = n * 2 ^ (Int.log 2 q - 52) := by
      rw [nearest, hn]
      rfl
    rw [hnearest, h]
  · rw [nearest_zero, nearest_zero]

/-- The whole numbers up to `2 ^ 53` are numbers. -/
theorem nearest_natCast {n : ℕ} (hn : n ≤ 2 ^ 53) : nearest n = n := by
  have h := nearest_eq_self (e := 0) hn
  rwa [zpow_zero, mul_one] at h

/-- Rounding up moves a number by half of its last place at most. -/
theorem nearest_sub_le (q : ℚ) : nearest q - q ≤ ulp q / 2 := by
  have hpos := ulp_pos q
  have h := mul_le_mul_of_nonneg_right (roundEven_sub_le (q / ulp q)) hpos.le
  rw [sub_mul, div_mul_cancel₀ _ hpos.ne'] at h
  rw [nearest]
  linarith

/-! ## The shortest decimal -/

/-- The last place of a decimal of `k` digits. -/
def grid (x : ℚ) (k : ℕ) : ℚ := 10 ^ (Int.log 10 x + 1 - k)

/-- The decimal of `k` digits below a number. -/
def below (x : ℚ) (k : ℕ) : ℚ := ⌊x / grid x k⌋ * grid x k

/-- The decimals of `k` digits next to a number that read as it, the nearest
first. -/
def decimalsAt (x : ℚ) (k : ℕ) : List ℚ :=
  let low := below x k
  let high := low + grid x k
  (if x - low < high - x ∨ x - low = high - x ∧ Even ⌊x / grid x k⌋ then [low, high]
    else [high, low]).filter (fun d => nearest d = x)

/-- **A decimal of the fewest digits that reads as a number.** Seventeen digits
are always enough. -/
def shortest (x : ℚ) : ℚ :=
  ((List.range' 1 17).findSome? (fun k => (decimalsAt x k).head?)).getD x

theorem grid_pos (x : ℚ) (k : ℕ) : 0 < grid x k := zpow_pos (by norm_num) _

/-- Two numbers in either order, of which some are kept. -/
theorem mem_filter_ite {a b d : ℚ} {c : Prop} [Decidable c] {p : ℚ → Prop} [DecidablePred p] :
    d ∈ (if c then [a, b] else [b, a]).filter (fun d => p d) ↔ (d = a ∨ d = b) ∧ p d := by
  rw [List.mem_filter, decide_eq_true_iff]
  refine and_congr_left (fun _ => ?_)
  split_ifs
  · simp
  · simp [or_comm]

theorem mem_decimalsAt {x d : ℚ} {k : ℕ} : d ∈ decimalsAt x k ↔
    (d = below x k ∨ d = below x k + grid x k) ∧ nearest d = x :=
  mem_filter_ite

theorem below_le (x : ℚ) (k : ℕ) : below x k ≤ x := by
  have h := mul_le_mul_of_nonneg_right (Int.floor_le (x / grid x k)) (grid_pos x k).le
  rwa [div_mul_cancel₀ _ (grid_pos x k).ne'] at h

theorem lt_below_add_grid (x : ℚ) (k : ℕ) : x < below x k + grid x k := by
  have h := mul_lt_mul_of_pos_right (Int.lt_floor_add_one (x / grid x k)) (grid_pos x k)
  rwa [div_mul_cancel₀ _ (grid_pos x k).ne', add_one_mul] at h

/-- **The shortest decimal reads as the number.** -/
theorem nearest_shortest {x : ℚ} (h : nearest x = x) : nearest (shortest x) = x := by
  unfold shortest
  cases hfind : (List.range' 1 17).findSome? (fun k => (decimalsAt x k).head?) with
  | none => exact h
  | some d =>
    obtain ⟨k, -, hk⟩ := List.exists_of_findSome?_eq_some hfind
    exact (mem_decimalsAt.mp (List.mem_of_mem_head? hk)).2

/-- If a decimal of a last place reads as a number, so does one next to it. -/
theorem exists_decimalsAt {x : ℚ} {k : ℕ} {m : ℤ} (hx : nearest x = x) (hm : 0 ≤ m)
    (h : nearest (m * grid x k) = x) : ∃ d, d ∈ decimalsAt x k := by
  have hgrid := grid_pos x k
  have hnonneg : (0 : ℚ) ≤ m * grid x k := mul_nonneg (by exact_mod_cast hm) hgrid.le
  obtain hle | hlt := le_or_gt (m * grid x k) x
  · refine ⟨below x k, mem_decimalsAt.mpr ⟨.inl rfl, ?_⟩⟩
    have hfloor : m ≤ ⌊x / grid x k⌋ := Int.le_floor.mpr ((le_div_iff₀ hgrid).mpr hle)
    have hbetween : (m : ℚ) * grid x k ≤ below x k :=
      mul_le_mul_of_nonneg_right (by exact_mod_cast hfloor) hgrid.le
    refine le_antisymm ?_ ?_
    · exact (nearest_mono (hnonneg.trans hbetween) (below_le x k)).trans hx.le
    · exact h.ge.trans (nearest_mono hnonneg hbetween)
  · refine ⟨below x k + grid x k, mem_decimalsAt.mpr ⟨.inr rfl, ?_⟩⟩
    have hfloor : ⌊x / grid x k⌋ < m := Int.floor_lt.mpr ((div_lt_iff₀ hgrid).mpr hlt)
    have hbetween : below x k + grid x k ≤ m * grid x k := by
      rw [below, ← add_one_mul]
      exact mul_le_mul_of_nonneg_right (by exact_mod_cast hfloor) hgrid.le
    have hxpos : 0 ≤ x := by
      rw [← h]
      exact nearest_zero.ge.trans (nearest_mono le_rfl hnonneg)
    have habove := (lt_below_add_grid x k).le
    refine le_antisymm ?_ ?_
    · exact (nearest_mono (hxpos.trans habove) hbetween).trans h.le
    · exact hx.ge.trans (nearest_mono hxpos habove)

/-- The decimals of `k` digits next to a number are multiples of their last place. -/
theorem exists_mul_grid {x d : ℚ} {k : ℕ} (hx : 0 ≤ x)
    (h : d = below x k ∨ d = below x k + grid x k) : ∃ n : ℕ, d = n * grid x k := by
  obtain ⟨n, hn⟩ := Int.eq_ofNat_of_zero_le
    (Int.floor_nonneg.mpr (div_nonneg hx (grid_pos x k).le))
  have hbelow : below x k = n * grid x k := by
    rw [below, hn]
    rfl
  obtain rfl | rfl := h
  · exact ⟨n, hbelow⟩
  · refine ⟨n + 1, ?_⟩
    rw [hbelow, Nat.cast_succ, add_one_mul]

/-- If a decimal of `k` digits reads as a number, the shortest has no more. -/
theorem shortest_mem {x : ℚ} {k : ℕ} (hk : 1 ≤ k ∧ k ≤ 17) (h : ∃ d, d ∈ decimalsAt x k) :
    ∃ i ≤ k, shortest x ∈ decimalsAt x i := by
  have hrange : k ∈ List.range' 1 17 := by
    rw [List.mem_range'_1]
    omega
  have hsome : (decimalsAt x k).head? ≠ none := by
    obtain ⟨d, hd⟩ := h
    rw [Ne, List.head?_eq_none_iff]
    exact List.ne_nil_of_mem hd
  unfold shortest
  cases hfind : (List.range' 1 17).findSome? (fun k => (decimalsAt x k).head?) with
  | none => exact absurd (List.findSome?_eq_none_iff.mp hfind k hrange) hsome
  | some d =>
    obtain ⟨before, i, after, hlist, hi, hbefore⟩ := List.findSome?_eq_some_iff.mp hfind
    refine ⟨i, ?_, List.mem_of_mem_head? hi⟩
    have hsorted : (List.range' 1 17).Pairwise (· < ·) := List.pairwise_lt_range'
    rw [hlist, List.pairwise_append] at hsorted
    rw [hlist] at hrange
    obtain hmem | hmem := List.mem_append.mp hrange
    · exact absurd (hbefore k hmem) hsome
    · obtain rfl | hmem := List.mem_cons.mp hmem
      · exact le_rfl
      · exact (List.rel_of_pairwise_cons hsorted.2.1 hmem).le

/-- **A number that a decimal with few places reads as** has a shortest decimal
with no more places. -/
theorem shortest_grid {x : ℚ} {m j : ℕ} (hx : nearest x = x) (h : nearest (m / 10 ^ j) = x)
    (hlow : 0 ≤ Int.log 10 x + j) (hhigh : Int.log 10 x + j ≤ 16) :
    ∃ n : ℕ, shortest x = n / 10 ^ j := by
  obtain ⟨k, hk⟩ := Int.eq_ofNat_of_zero_le hlow
  have hgrid : ∀ i ≤ k + 1, grid x i = 10 ^ (k + 1 - i) / 10 ^ j := by
    intro i hi
    rw [grid, ← zpow_natCast, ← zpow_natCast, ← zpow_sub₀ (by norm_num)]
    congr 1
    push_cast [hi]
    omega
  have hread : nearest ((m : ℤ) * grid x (k + 1)) = x := by
    rw [hgrid (k + 1) le_rfl, Nat.sub_self, pow_zero, mul_one_div]
    exact h
  have hexists := exists_decimalsAt hx (Int.natCast_nonneg m) hread
  obtain ⟨i, hi, hmem⟩ := shortest_mem ⟨by omega, by omega⟩ hexists
  have hnonneg : 0 ≤ x := by
    rw [← h]
    exact nearest_zero.ge.trans (nearest_mono le_rfl (by positivity))
  obtain ⟨n, hn⟩ := exists_mul_grid hnonneg (mem_decimalsAt.mp hmem).1
  refine ⟨n * 10 ^ (k + 1 - i), ?_⟩
  rw [hn, hgrid i hi, mul_div_assoc']
  push_cast
  rfl

end Binary64
