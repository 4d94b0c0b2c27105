import MsRealty.Binary64
import MsRealty.Decimals

/-!
# The numbers of the source and their texts

The finite numbers of the source: fractions with 53 binary digits whose last
place is not below 2⁻¹⁰⁷⁴, less than 2¹⁰²⁴. Zero has one sign here.

A number is written as the decimal of the fewest digits that is rounded to it
(`Double.text`, `Number::toString`), so its text tells it
(`Double.text_injective`).
-/

namespace Doubles

open Binary64 JsonText

/-! ## Numbers -/

/-- The last place of a number, subnormal numbers included. -/
def lastPlace (q : ℚ) : ℚ := 2 ^ max (Int.log 2 q - 52) (-1074)

/-- **The number a decimal is rounded to**, ties to even. -/
def rounded (q : ℚ) : ℚ := roundEven (q / lastPlace q) * lastPlace q

/-- **A finite number.** -/
structure Double where
  value : ℚ
  representable : rounded |value| = |value|
  finite : |value| < 2 ^ 1024

theorem Double.ext {x y : Double} (h : x.value = y.value) : x = y := by
  cases x
  cases y
  congr

@[simp] theorem rounded_zero : rounded 0 = 0 := by
  rw [rounded, zero_div, show (0 : ℚ) = ((0 : ℤ) : ℚ) from rfl, roundEven_intCast, Int.cast_zero,
    zero_mul]

theorem rounded_eq_of_multiple {q : ℚ} (n : ℤ) (h : q = n * lastPlace q) : rounded q = q := by
  have hpos : (0 : ℚ) < lastPlace q := zpow_pos (by norm_num) _
  have hdiv : q / lastPlace q = n := by rw [div_eq_iff hpos.ne', ← h]
  rw [rounded, hdiv, roundEven_intCast, ← h]

theorem decimal_rounded (q : ℚ) : Decimal (rounded q) := decimal_mul_two_zpow _ _

/-! ## Texts -/

/-- The decimals of `k` digits next to a number that are rounded to it, the
nearest first. -/
def decimalsAt (x : ℚ) (k : ℕ) : List ℚ :=
  let low := below x k
  let high := low + grid x k
  (if x - low < high - x ∨ x - low = high - x ∧ Even ⌊x / grid x k⌋ then [low, high]
    else [high, low]).filter (fun d => rounded d = x)

/-- **A decimal of the fewest digits that is rounded to a number.** Seventeen
digits are always enough. -/
def shortest (x : ℚ) : ℚ :=
  ((List.range' 1 17).findSome? (fun k => (decimalsAt x k).head?)).getD x

/-- The decimal a number is written as. -/
def Double.decimal (x : Double) : ℚ :=
  if x.value < 0 then -shortest (-x.value) else shortest x.value

/-- **`Number::toString`.** -/
def Double.text (x : Double) : List Char := numberText x.decimal

theorem mem_decimalsAt {x d : ℚ} {k : ℕ} : d ∈ decimalsAt x k ↔
    (d = below x k ∨ d = below x k + grid x k) ∧ rounded d = x :=
  mem_filter_ite

/-- **What the shortest decimal is**: not negative, rounded to the number, and a
finite decimal. -/
theorem shortest_spec {x : ℚ} (hx : 0 ≤ x) (hrep : rounded x = x) :
    0 ≤ shortest x ∧ rounded (shortest x) = x ∧ Decimal (shortest x) := by
  unfold shortest
  cases hfind : (List.range' 1 17).findSome? (fun k => (decimalsAt x k).head?) with
  | none =>
    rw [Option.getD_none]
    exact ⟨hx, hrep, hrep ▸ decimal_rounded x⟩
  | some d =>
    obtain ⟨k, -, hk⟩ := List.exists_of_findSome?_eq_some hfind
    have hmem := List.mem_of_mem_head? hk
    obtain ⟨n, hn⟩ := exists_mul_grid hx (mem_decimalsAt.mp hmem).1
    rw [Option.getD_some]
    refine ⟨?_, (mem_decimalsAt.mp hmem).2, ?_⟩
    · rw [hn]
      exact mul_nonneg (Nat.cast_nonneg n) (grid_pos x k).le
    · rw [hn]
      exact decimal_mul_ten_zpow n _

/-- The decimal of a number is finite. -/
theorem Double.decimal_finite (x : Double) : Decimal x.decimal := by
  unfold Double.decimal
  split_ifs with hneg
  · have hrep := x.representable
    rw [abs_of_neg hneg] at hrep
    exact (shortest_spec (neg_nonneg.mpr hneg.le) hrep).2.2.neg
  · have hrep := x.representable
    rw [abs_of_nonneg (not_lt.mp hneg)] at hrep
    exact (shortest_spec (not_lt.mp hneg) hrep).2.2

/-- **The decimal is rounded to the number.** -/
theorem Double.value_eq (x : Double) :
    x.value = if x.decimal < 0 then -rounded (-x.decimal) else rounded x.decimal := by
  unfold Double.decimal
  by_cases hneg : x.value < 0
  · have hrep := x.representable
    rw [abs_of_neg hneg] at hrep
    obtain ⟨hnonneg, hround, -⟩ := shortest_spec (neg_nonneg.mpr hneg.le) hrep
    have hpos : 0 < shortest (-x.value) := by
      refine lt_of_le_of_ne hnonneg (fun hzero => ?_)
      rw [← hzero, rounded_zero] at hround
      linarith
    rw [if_pos hneg, if_pos (by linarith), neg_neg, hround, neg_neg]
  · have hrep := x.representable
    rw [abs_of_nonneg (not_lt.mp hneg)] at hrep
    obtain ⟨hnonneg, hround, -⟩ := shortest_spec (not_lt.mp hneg) hrep
    rw [if_neg hneg, if_neg (not_lt.mpr hnonneg), hround]

/-- **Numbers of one text are one number.** -/
theorem Double.text_injective : Function.Injective Double.text := by
  intro x y h
  have hx := parseNumber_numberText x.decimal_finite (show NumberEnd [] by simp [NumberEnd])
  have hy := parseNumber_numberText y.decimal_finite (show NumberEnd [] by simp [NumberEnd])
  rw [show numberText x.decimal = numberText y.decimal from h, hy] at hx
  have hdecimal : y.decimal = x.decimal := (Prod.mk.inj (Option.some.inj hx)).1
  refine Double.ext ?_
  rw [x.value_eq, y.value_eq, hdecimal]

/-! ## The characters of a number -/

/-- The characters a number is written with. -/
def isNumberChar (c : Char) : Bool := c.isDigit || "+-.e".toList.contains c

theorem isNumberChar_of_isDigit {c : Char} (h : c.isDigit = true) : isNumberChar c = true := by
  rw [isNumberChar, h, Bool.true_or]

theorem isNumberChar_positiveText (q : ℚ) : ∀ c ∈ positiveText q, isNumberChar c = true := by
  have hshown : ∀ c ∈ shownDigits q, isNumberChar c = true :=
    fun c hc => isNumberChar_of_isDigit (isDigit_shownDigits c hc)
  have hzeros : ∀ n, ∀ c ∈ List.replicate n '0', isNumberChar c = true := by
    intro n c hc
    rw [List.eq_of_mem_replicate hc]
    decide
  have hexponent : ∀ mark, isNumberChar mark = true →
      ∀ c ∈ 'e' :: mark :: Nat.toDigits 10 (point q - 1).natAbs, isNumberChar c = true := by
    intro mark hmark
    refine List.forall_mem_cons.mpr ⟨by decide, List.forall_mem_cons.mpr ⟨hmark, fun c hc => ?_⟩⟩
    exact isNumberChar_of_isDigit (Nat.isDigit_of_mem_toDigits (by decide) (by decide) hc)
  have hmark : isNumberChar (if point q ≤ 0 then '-' else '+') = true := by
    split_ifs <;> decide
  intro c hc
  rw [positiveText_eq] at hc
  generalize (if point q ≤ 0 then '-' else '+') = mark at hc hmark
  split_ifs at hc
  · obtain hc | hc := List.mem_append.mp hc
    · exact hshown c hc
    · exact hzeros _ c hc
  · obtain hc | hc := List.mem_append.mp hc
    · exact hshown c (List.mem_of_mem_take hc)
    · obtain rfl | hc := List.mem_cons.mp hc
      · decide
      · exact hshown c (List.mem_of_mem_drop hc)
  · obtain rfl | hc := List.mem_cons.mp hc
    · decide
    · obtain hc | hc := List.mem_append.mp hc
      · obtain rfl | hc := List.mem_cons.mp hc
        · decide
        · exact hzeros _ c hc
      · exact hshown c hc
  · cases hdigits : shownDigits q with
    | nil =>
      rw [hdigits] at hc
      exact absurd hc List.not_mem_nil
    | cons digit rest =>
      rw [hdigits, List.forall_mem_cons] at hshown
      rw [hdigits] at hc
      cases rest with
      | nil =>
        obtain rfl | hc := List.mem_cons.mp hc
        · exact hshown.1
        · exact hexponent mark hmark c hc
      | cons next rest =>
        obtain rfl | hc := List.mem_cons.mp hc
        · exact hshown.1
        · obtain rfl | hc := List.mem_cons.mp hc
          · decide
          · obtain hc | hc := List.mem_append.mp hc
            · exact hshown.2 c hc
            · exact hexponent mark hmark c hc

theorem isNumberChar_text (x : Double) : ∀ c ∈ x.text, isNumberChar c = true := by
  intro c hc
  unfold Double.text numberText at hc
  split_ifs at hc
  · obtain rfl := List.mem_singleton.mp hc
    decide
  · obtain rfl | hc := List.mem_cons.mp hc
    · decide
    · exact isNumberChar_positiveText _ c hc
  · exact isNumberChar_positiveText _ c hc

end Doubles
