import MsRealty.JsonNumber

/-!
# Which numbers are finite decimals

Whole numbers are, and so are their multiples by powers of ten and of two: in
particular every number of a binary format.
-/

namespace JsonText

/-- A fraction over a power of ten is a decimal. -/
theorem decimal_of_mul {q : ℚ} {k : ℕ} {n : ℤ} (h : q * 10 ^ k = n) : Decimal q := by
  have hden : (((n : ℚ) / ((10 ^ k : ℤ) : ℚ)).den : ℤ) ∣ 10 ^ k := by
    rw [← Rat.divInt_eq_div]
    exact Rat.den_dvd n (10 ^ k)
  have hq : q = (n : ℚ) / ((10 ^ k : ℤ) : ℚ) := by
    rw [← h]
    push_cast
    rw [mul_div_cancel_right₀ _ (by positivity)]
  rw [← hq] at hden
  exact (decimal_iff q).mpr ⟨k, by exact_mod_cast hden⟩

/-- A decimal times a power of ten is whole. -/
theorem exists_mul_of_decimal {q : ℚ} (h : Decimal q) : ∃ (k : ℕ) (n : ℤ), q * 10 ^ k = n := by
  obtain ⟨k, c, hc⟩ := (decimal_iff q).mp h
  refine ⟨k, q.num * c, ?_⟩
  have hpow : (10 : ℚ) ^ k = q.den * c := by exact_mod_cast hc
  rw [hpow, ← mul_assoc, Rat.mul_den_eq_num]
  push_cast
  rfl

theorem decimal_intCast (n : ℤ) : Decimal (n : ℚ) :=
  decimal_of_mul (k := 0) (n := n) (by rw [pow_zero, mul_one])

theorem decimal_natCast (n : ℕ) : Decimal (n : ℚ) := decimal_intCast n

/-- **A whole number times a power of two** is a decimal. -/
theorem decimal_mul_two_zpow (n e : ℤ) : Decimal ((n : ℚ) * 2 ^ e) := by
  obtain ⟨j, rfl | rfl⟩ := Int.eq_nat_or_neg e
  · refine decimal_of_mul (k := 0) (n := n * 2 ^ j) ?_
    rw [zpow_natCast]
    push_cast
    rw [pow_zero, mul_one]
  · refine decimal_of_mul (k := j) (n := n * 5 ^ j) ?_
    have hten : (10 : ℚ) ^ j = 2 ^ j * 5 ^ j := by
      rw [← mul_pow]
      norm_num
    rw [zpow_neg, zpow_natCast, hten, mul_assoc, ← mul_assoc _ _ ((5 : ℚ) ^ j),
      inv_mul_cancel₀ (by positivity), one_mul]
    push_cast
    rfl

/-- **A whole number times a power of ten** is a decimal. -/
theorem decimal_mul_ten_zpow (n e : ℤ) : Decimal ((n : ℚ) * 10 ^ e) := by
  obtain ⟨j, rfl | rfl⟩ := Int.eq_nat_or_neg e
  · refine decimal_of_mul (k := 0) (n := n * 10 ^ j) ?_
    rw [zpow_natCast]
    push_cast
    rw [pow_zero, mul_one]
  · refine decimal_of_mul (k := j) (n := n) ?_
    rw [zpow_neg, zpow_natCast, mul_assoc, inv_mul_cancel₀ (by positivity), mul_one]

end JsonText
