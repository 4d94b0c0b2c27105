import MsRealty.Facts
import MsRealty.PlainDecimal

/-!
# Amounts between currencies, and as text

An amount is a whole number of minor units of its currency. It crosses two
borders: a recorded lev amount is shown in euro (`presentInEuro`), and an
amount is exchanged as a decimal text (`minorToDecimal`, `decimalToMinor`).

The euro amount is the nearest one, a tie going up, although it is computed
by two divisions that both round down (`halfUp_eq`). A decimal text is an
amount when it is digits with few enough of them after the point, and then it
is exactly that decimal (`decimalToMinor_eq_some`).
-/

/-! ## Rounding half up -/

/-- **The nearest integer**, and of two that are equally near the upper one. -/
def NearestHalfUp (x : ℚ) (n : ℤ) : Prop :=
  (∀ k : ℤ, |x - n| ≤ |x - k|) ∧ ∀ k : ℤ, |x - k| = |x - n| → k ≤ n

/-- An integer within a half is the nearest one. -/
theorem nearestHalfUp_of_within {x : ℚ} {n : ℤ} (hlower : (n : ℚ) ≤ x + 1 / 2)
    (hupper : x < n + 1 / 2) : NearestHalfUp x n := by
  have hnear : |x - n| ≤ 1 / 2 := abs_le.mpr ⟨by linarith, by linarith⟩
  refine ⟨fun k => ?_, fun k hk => ?_⟩
  · obtain hlt | rfl | hgt := lt_trichotomy k n
    · have hstep : (k : ℚ) + 1 ≤ n := by exact_mod_cast hlt
      exact hnear.trans (le_trans (by linarith) (le_abs_self _))
    · exact le_rfl
    · have hstep : (n : ℚ) + 1 ≤ k := by exact_mod_cast hgt
      exact hnear.trans (le_trans (by linarith) (neg_le_abs _))
  · by_contra hgt
    have hstep : (n : ℚ) + 1 ≤ k := by exact_mod_cast (not_le.mp hgt)
    have hfar : 1 / 2 < |x - k| := lt_of_lt_of_le (by linarith) (neg_le_abs _)
    linarith

/-- Twice the quotient, rounded down, one more, and half of it rounded down. -/
def halfUp (p d : ℕ) : ℕ := (p * 2 / d + 1) / 2

/-- **One division instead of two.** -/
theorem halfUp_eq (p : ℕ) {d : ℕ} (hd : 0 < d) : halfUp p d = (p * 2 + d) / (d * 2) := by
  unfold halfUp
  rw [← Nat.add_div_right _ hd, Nat.div_div_eq_div_mul]

/-- The two divisions round the quotient half up. -/
theorem nearestHalfUp_halfUp (p : ℕ) {d : ℕ} (hd : 0 < d) :
    NearestHalfUp ((p : ℚ) / d) (halfUp p d) := by
  have hpos : (0 : ℚ) < d := by exact_mod_cast hd
  have hlower : halfUp p d * (d * 2) ≤ p * 2 + d := by
    rw [halfUp_eq p hd]
    exact Nat.div_mul_le_self _ _
  have hupper : p * 2 + d < (halfUp p d + 1) * (d * 2) := by
    rw [halfUp_eq p hd, mul_comm _ (d * 2)]
    exact Nat.lt_mul_div_succ _ (by omega)
  have hlower' : (halfUp p d : ℚ) * (d * 2) ≤ p * 2 + d := by exact_mod_cast hlower
  have hupper' : (p : ℚ) * 2 + d < (halfUp p d + 1) * (d * 2) := by exact_mod_cast hupper
  refine nearestHalfUp_of_within ?_ ?_
  · rw [Int.cast_natCast, ← sub_le_iff_le_add, le_div_iff₀ hpos]
    linarith
  · rw [Int.cast_natCast, div_lt_iff₀ hpos]
    linarith

theorem halfUp_mono {p q d : ℕ} (h : p ≤ q) : halfUp p d ≤ halfUp q d :=
  Nat.div_le_div_right (Nat.succ_le_succ (Nat.div_le_div_right (Nat.mul_le_mul_right 2 h)))

namespace Money

open PlainDecimal DecimalText JsonText

/-- The largest integer up to which all are numbers. -/
def maxSafeInteger : ℕ := 2 ^ 53 - 1

/-! ## A lev amount in euro -/

/-- **A recorded amount**, as `money` lets one in: a safe integer that is not negative. -/
structure RecordedMoney where
  amountMinor : ℕ
  currency : CurrencyCode
  isSafe : amountMinor ≤ maxSafeInteger

/-- A presented amount, with the recorded amount it derives from. -/
structure PresentedMoney where
  amountMinor : ℕ
  currency : CurrencyCode
  original : RecordedMoney

/-- What a euro costs: `numerator` stotinki for `denominator` cents. -/
def bgnPerEur : ℕ × ℕ := (195583, 100000)

/-- **`presentInEuro`**: levs at the fixed rate, half up; any other currency as it is. -/
def presentInEuro (amount : RecordedMoney) : PresentedMoney :=
  if amount.currency ≠ .bgn then ⟨amount.amountMinor, amount.currency, amount⟩
  else
    let scaled := amount.amountMinor * bgnPerEur.snd * 2
    -- `Number(eurMinor)`; what is converted is safe (`presentInEuro_isSafe`)
    let eurMinor := (scaled / bgnPerEur.fst + 1) / 2
    ⟨eurMinor, .eur, amount⟩

theorem presentInEuro_original (amount : RecordedMoney) :
    (presentInEuro amount).original = amount := by
  unfold presentInEuro
  split_ifs
  · rfl
  · rfl

theorem presentInEuro_bgn {amount : RecordedMoney} (h : amount.currency = .bgn) :
    presentInEuro amount =
      ⟨halfUp (amount.amountMinor * bgnPerEur.snd) bgnPerEur.fst, .eur, amount⟩ :=
  if_neg (not_not_intro h)

/-- A presented amount is a safe integer, so that it is the same as a number. -/
theorem presentInEuro_isSafe (amount : RecordedMoney) :
    (presentInEuro amount).amountMinor ≤ maxSafeInteger := by
  refine le_trans ?_ amount.isSafe
  by_cases h : amount.currency = .bgn
  · rw [presentInEuro_bgn h, halfUp_eq _ (by decide)]
    show (amount.amountMinor * 100000 * 2 + 195583) / (195583 * 2) ≤ amount.amountMinor
    omega
  · exact le_of_eq (congrArg PresentedMoney.amountMinor (if_pos h))

/-- **A lev amount in euro.** It is the nearest euro amount, a tie going up; it carries the
recorded amount unchanged; a larger lev amount is never presented as less, so that no two
lev amounts are in one order as recorded and in the other as presented. -/
theorem presentInEuro_lev {a b : RecordedMoney} (ha : a.currency = .bgn)
    (hb : b.currency = .bgn) :
    ((presentInEuro a).currency = .eur ∧
      NearestHalfUp ((a.amountMinor : ℚ) * 100000 / 195583) (presentInEuro a).amountMinor) ∧
      (presentInEuro a).original = a ∧
      (a.amountMinor ≤ b.amountMinor →
        (presentInEuro a).amountMinor ≤ (presentInEuro b).amountMinor) ∧
      ¬ (a.amountMinor < b.amountMinor ∧
        (presentInEuro b).amountMinor < (presentInEuro a).amountMinor) := by
  have hmono : a.amountMinor ≤ b.amountMinor →
      (presentInEuro a).amountMinor ≤ (presentInEuro b).amountMinor := by
    intro hle
    rw [presentInEuro_bgn ha, presentInEuro_bgn hb]
    exact halfUp_mono (Nat.mul_le_mul_right _ hle)
  refine ⟨⟨?_, ?_⟩, presentInEuro_original a, hmono, ?_⟩
  · rw [presentInEuro_bgn ha]
  · have hnear := nearestHalfUp_halfUp (a.amountMinor * bgnPerEur.snd)
      (d := bgnPerEur.fst) (by decide)
    rw [presentInEuro_bgn ha]
    push_cast at hnear
    exact hnear
  · rintro ⟨hlt, hgt⟩
    exact absurd (hmono hlt.le) (not_le.mpr hgt)

/-- One lev is fifty-one cents; two levs are a euro and two cents. -/
theorem presentInEuro_lev_one :
    ((presentInEuro ⟨100, .bgn, by decide⟩).currency = .eur ∧
      NearestHalfUp (((100 : ℕ) : ℚ) * 100000 / 195583)
        (presentInEuro ⟨100, .bgn, by decide⟩).amountMinor) ∧
      (presentInEuro ⟨100, .bgn, by decide⟩).original = ⟨100, .bgn, by decide⟩ ∧
      (100 ≤ 200 → (presentInEuro ⟨100, .bgn, by decide⟩).amountMinor
        ≤ (presentInEuro ⟨200, .bgn, by decide⟩).amountMinor) ∧
      ¬ (100 < 200 ∧ (presentInEuro ⟨200, .bgn, by decide⟩).amountMinor
        < (presentInEuro ⟨100, .bgn, by decide⟩).amountMinor) :=
  presentInEuro_lev (a := ⟨100, .bgn, by decide⟩) (b := ⟨200, .bgn, by decide⟩) rfl rfl

/-! ## An amount as text -/

/-- `currencyMinorDigits`: the digits of the minor unit. -/
def currencyMinorDigits : CurrencyCode → ℕ
  | .eur => 2
  | .bgn => 2
  | .usd => 2
  | .gbp => 2

theorem currencyMinorDigits_le (currency : CurrencyCode) : currencyMinorDigits currency ≤ 2 := by
  cases currency <;> decide

/-- The form of a decimal: `/^\d+(?:\.\d+)?$/`. -/
def isDecimal (text : List Char) : Bool :=
  let rest := text.dropWhile Char.isDigit
  text.takeWhile Char.isDigit ≠ [] &&
    (rest = [] || rest.head? = some '.' && rest.tail ≠ [] && rest.tail.all Char.isDigit)

/-- **`decimalToMinor`**: none is not a number. -/
def decimalToMinor (value : String) (currency : CurrencyCode) : Option ℕ :=
  if (Utf16.encode value.toList).length > 32 || !isDecimal value.toList then none
  else
    let parts := value.toList.splitOn '.'
    let whole := parts.getD 0 []
    let fraction := parts.getD 1 []
    let digits := currencyMinorDigits currency
    if fraction.length > digits then none
    else
      let padded := fraction ++ List.replicate (digits - fraction.length) '0'
      let minor := Nat.ofDigitChars 10 (whole ++ padded) 0
      if minor ≤ maxSafeInteger then some minor else none

/-- **`minorToDecimal`**: none is the error for what is no amount. -/
def minorToDecimal (amountMinor : ℚ) (currency : CurrencyCode) : Option String :=
  if amountMinor.den = 1 ∧ amountMinor ≤ maxSafeInteger ∧ 0 ≤ amountMinor then
    let digits := currencyMinorDigits currency
    let value := zeroPad (digits + 1) amountMinor.num.toNat
    let point := value.length - digits
    some (String.ofList
      (if digits ≠ 0 then value.take point ++ '.' :: value.drop point else value))
  else none

/-! ### The digits of a decimal -/

/-- **The digits of a decimal**, with any number of places. -/
structure IsDecimal (d : Digits) : Prop where
  whole_ne_nil : d.whole ≠ []
  isDigit_whole : ∀ c ∈ d.whole, c.isDigit = true
  isDigit_fraction : ∀ c ∈ d.fraction, c.isDigit = true

theorem noDigit_fractionText (fraction : List Char) : NoDigit (fractionText fraction) := by
  unfold fractionText
  split_ifs
  · exact fun c hc => absurd hc (by simp)
  · intro c hc
    rw [← Option.some.inj hc]
    decide

/-- **The form of a decimal is that of digits and, after a point, digits.** -/
theorem isDecimal_iff {text : List Char} :
    isDecimal text = true ↔ ∃ d : Digits, IsDecimal d ∧ text = d.text := by
  refine ⟨fun h => ?_, ?_⟩
  · refine ⟨⟨text.takeWhile Char.isDigit, (text.dropWhile Char.isDigit).tail⟩, ?_⟩
    have hsplit := List.takeWhile_append_dropWhile (p := Char.isDigit) (l := text)
    simp only [isDecimal, Bool.and_eq_true, Bool.or_eq_true, decide_eq_true_eq,
      List.all_eq_true] at h
    obtain ⟨hwhole, hrest | ⟨⟨hpoint, hne⟩, hdigits⟩⟩ := h
    · refine ⟨⟨hwhole, fun c hc => List.mem_takeWhile_imp hc, ?_⟩, ?_⟩
      · rw [hrest]
        exact fun c hc => absurd hc List.not_mem_nil
      · rw [hrest, List.append_nil] at hsplit
        rw [Digits.text, hrest, List.tail_nil, fractionText, if_pos rfl, List.append_nil]
        exact hsplit.symm
    · refine ⟨⟨hwhole, fun c hc => List.mem_takeWhile_imp hc, hdigits⟩, ?_⟩
      rw [Digits.text, fractionText, if_neg hne]
      conv_lhs => rw [← hsplit]
      exact congrArg _ (List.eq_cons_of_mem_head? hpoint)
  · rintro ⟨d, hd, rfl⟩
    have hend := noDigit_fractionText d.fraction
    simp only [isDecimal, Digits.text, takeWhile_digits hd.isDigit_whole hend,
      dropWhile_digits hd.isDigit_whole hend, Bool.and_eq_true, Bool.or_eq_true,
      decide_eq_true_eq, List.all_eq_true]
    refine ⟨hd.whole_ne_nil, ?_⟩
    unfold fractionText
    split_ifs with hnil
    · exact .inl rfl
    · exact .inr ⟨⟨rfl, hnil⟩, hd.isDigit_fraction⟩

theorem point_notMem {digits : List Char} (h : ∀ c ∈ digits, c.isDigit = true) : '.' ∉ digits :=
  fun hpoint => absurd (h '.' hpoint) (by decide)

/-- A decimal is taken apart at its point. -/
theorem splitOn_text {d : Digits} (hd : IsDecimal d) :
    (d.text.splitOn '.').getD 0 [] = d.whole ∧ (d.text.splitOn '.').getD 1 [] = d.fraction := by
  have hwhole := point_notMem hd.isDigit_whole
  have hfraction := point_notMem hd.isDigit_fraction
  unfold Digits.text fractionText
  split_ifs with hnil
  · have hsplit : d.whole.splitOn '.' = [d.whole] := by
      have hparts : (['.'].intercalate [d.whole]).splitOn '.' = [d.whole] :=
        List.splitOn_intercalate '.' (fun l hl => List.mem_singleton.mp hl ▸ hwhole) (by simp)
      rwa [List.intercalate_singleton] at hparts
    rw [List.append_nil, hsplit, hnil]
    exact ⟨rfl, rfl⟩
  · have hsplit : (d.whole ++ '.' :: d.fraction).splitOn '.' = [d.whole, d.fraction] := by
      have hparts : (['.'].intercalate [d.whole, d.fraction]).splitOn '.'
          = [d.whole, d.fraction] := by
        refine List.splitOn_intercalate '.' (fun l hl => ?_) (by simp)
        obtain rfl | hl := List.mem_cons.mp hl
        · exact hwhole
        · exact List.mem_singleton.mp hl ▸ hfraction
      simpa using hparts
    rw [hsplit]
    exact ⟨rfl, rfl⟩

theorem ascii_text {d : Digits} (hd : IsDecimal d) : ∀ c ∈ d.text, c.toNat < 0x80 := by
  have hdigit : ∀ c : Char, c.isDigit = true → c.toNat < 0x80 := by
    intro c hc
    have hle : c.toNat ≤ 57 := (Char.isDigit_iff_toNat.mp hc).2
    omega
  intro c hc
  obtain hc | hc := List.mem_append.mp hc
  · exact hdigit c (hd.isDigit_whole c hc)
  · unfold fractionText at hc
    split_ifs at hc
    · exact absurd hc List.not_mem_nil
    · obtain rfl | hc := List.mem_cons.mp hc
      · decide
      · exact hdigit c (hd.isDigit_fraction c hc)

/-- The digits with zeros up to the minor unit are the decimal, times the scale. -/
theorem minor_eq {d : Digits} {digits : ℕ} (h : d.fraction.length ≤ digits) :
    (Nat.ofDigitChars 10 (d.whole ++ (d.fraction ++
      List.replicate (digits - d.fraction.length) '0')) 0 : ℚ) = d.value * 10 ^ digits := by
  have hpow : (10 : ℚ) ^ digits
      = 10 ^ d.fraction.length * 10 ^ (digits - d.fraction.length) := by
    rw [← pow_add, Nat.add_sub_cancel' h]
  rw [← List.append_assoc, Nat.ofDigitChars_append, Nat.ofDigitChars_replicate_zero, Digits.value,
    hpow, ← mul_assoc, div_mul_cancel₀ _ (by positivity)]
  push_cast
  exact mul_comm _ _

/-! ### What a text is read as -/

/-- **What is read as an amount** is a decimal of no more than thirty-two characters, with no
more places than the currency has, whose value is safe; and the amount is that value. -/
theorem decimalToMinor_eq_some {value : String} {currency : CurrencyCode} {n : ℕ} :
    decimalToMinor value currency = some n ↔ ∃ d : Digits, IsDecimal d ∧ value.toList = d.text ∧
      value.length ≤ 32 ∧ d.fraction.length ≤ currencyMinorDigits currency ∧
      (n : ℚ) = d.value * 10 ^ currencyMinorDigits currency ∧ n ≤ maxSafeInteger := by
  have hcode : isDecimal value.toList = true →
      (Utf16.encode value.toList).length = value.length := by
    intro hform
    obtain ⟨d, hd, htext⟩ := isDecimal_iff.mp hform
    rw [Utf16.length_encode_ascii (htext ▸ ascii_text hd), String.length_toList]
  unfold decimalToMinor
  rw [Option.ite_none_left_eq_some, Bool.or_eq_true, not_or, decide_eq_true_eq, not_lt,
    Bool.not_eq_true', Bool.not_eq_false]
  refine ⟨?_, ?_⟩
  · rintro ⟨⟨hlength, hform⟩, hread⟩
    obtain ⟨d, hd, htext⟩ := isDecimal_iff.mp hform
    rw [hcode hform] at hlength
    obtain ⟨hwhole, hfraction⟩ := splitOn_text hd
    rw [htext] at hread
    simp only [hwhole, hfraction, Option.ite_none_left_eq_some, not_lt,
      Option.ite_none_right_eq_some, Option.some.injEq] at hread
    obtain ⟨hplaces, hsafe, rfl⟩ := hread
    exact ⟨d, hd, htext, hlength, hplaces, minor_eq hplaces, hsafe⟩
  · rintro ⟨d, hd, htext, hlength, hplaces, hvalue, hsafe⟩
    have hform := isDecimal_iff.mpr ⟨d, hd, htext⟩
    obtain ⟨hwhole, hfraction⟩ := splitOn_text hd
    rw [← minor_eq hplaces] at hvalue
    have hminor := Nat.cast_injective hvalue
    refine ⟨⟨(hcode hform).le.trans hlength, hform⟩, ?_⟩
    rw [htext]
    simp only [hwhole, hfraction, Option.ite_none_left_eq_some, not_lt,
      Option.ite_none_right_eq_some, Option.some.injEq]
    exact ⟨hplaces, hminor ▸ hsafe, hminor.symm⟩

/-! ### What an amount is written as -/

/-- The digits of an amount, before and after the point. -/
def minorDigits (minor digits : ℕ) : Digits :=
  let value := zeroPad (digits + 1) minor
  ⟨value.take (value.length - digits), value.drop (value.length - digits)⟩

theorem lt_length_zeroPad (w n : ℕ) : w < (zeroPad (w + 1) n).length := by
  unfold zeroPad
  rw [List.length_append, List.length_replicate]
  omega

theorem length_minorDigits_fraction (minor digits : ℕ) :
    (minorDigits minor digits).fraction.length = digits := by
  have hlength := lt_length_zeroPad digits minor
  rw [minorDigits, List.length_drop]
  omega

theorem isDecimal_minorDigits (minor digits : ℕ) : IsDecimal (minorDigits minor digits) where
  whole_ne_nil := by
    have hlength := lt_length_zeroPad digits minor
    rw [minorDigits, ← List.length_pos_iff, List.length_take]
    omega
  isDigit_whole _ hc := isDigit_of_mem_zeroPad (List.mem_of_mem_take hc)
  isDigit_fraction _ hc := isDigit_of_mem_zeroPad (List.mem_of_mem_drop hc)

theorem value_minorDigits (minor digits : ℕ) :
    (minorDigits minor digits).value * 10 ^ digits = minor := by
  rw [Digits.value, length_minorDigits_fraction, div_mul_cancel₀ _ (by positivity), minorDigits,
    List.take_append_drop, ofDigitChars_zeroPad]

/-- **The text of an amount** is that of its digits, also for a currency without minor units. -/
theorem minorToDecimal_eq {minor : ℕ} (h : minor ≤ maxSafeInteger) (currency : CurrencyCode) :
    minorToDecimal minor currency
      = some (String.ofList (minorDigits minor (currencyMinorDigits currency)).text) := by
  have hsafe : ((minor : ℚ)).den = 1 ∧ (minor : ℚ) ≤ maxSafeInteger ∧ 0 ≤ (minor : ℚ) :=
    ⟨Rat.den_natCast minor, by exact_mod_cast h, Nat.cast_nonneg _⟩
  unfold minorToDecimal
  rw [if_pos hsafe, Rat.num_natCast, Int.toNat_natCast]
  refine congrArg (fun text => some (String.ofList text)) ?_
  unfold Digits.text fractionText
  have hlength := length_minorDigits_fraction minor (currencyMinorDigits currency)
  by_cases hdigits : currencyMinorDigits currency = 0
  · rw [hdigits] at hlength
    rw [hdigits, if_neg (not_not_intro rfl), if_pos (List.length_eq_zero_iff.mp hlength),
      List.append_nil, minorDigits, Nat.sub_zero, List.take_length]
  · rw [if_pos hdigits, if_neg]
    · rfl
    · intro hnil
      rw [hnil] at hlength
      exact hdigits hlength.symm

/-- The text of an amount is short. -/
theorem length_minorDigits_text {minor digits : ℕ} (h : minor ≤ maxSafeInteger)
    (hdigits : digits ≤ 2) : (minorDigits minor digits).text.length ≤ 32 := by
  have hpad : (zeroPad (digits + 1) minor).length ≤ 16 := by
    have hlength : (Nat.toDigits 10 minor).length ≤ 16 :=
      (Nat.length_toDigits_le_iff (by decide) (by decide)).mpr (lt_of_le_of_lt h (by decide))
    unfold zeroPad
    rw [List.length_append, List.length_replicate]
    omega
  have hfraction (fraction : List Char) :
      (fractionText fraction).length ≤ fraction.length + 1 := by
    unfold fractionText
    split_ifs
    · exact Nat.zero_le _
    · exact le_rfl
  have hparts : (minorDigits minor digits).whole.length
      + (minorDigits minor digits).fraction.length = (zeroPad (digits + 1) minor).length := by
    rw [← List.length_append, minorDigits, List.take_append_drop]
  have hpoint := hfraction (minorDigits minor digits).fraction
  rw [Digits.text, List.length_append]
  omega

/-- **An amount is read back from its text.** -/
theorem decimalToMinor_minorToDecimal {minor : ℕ} (h : minor ≤ maxSafeInteger)
    (currency : CurrencyCode) :
    (minorToDecimal minor currency).bind (decimalToMinor · currency) = some minor := by
  rw [minorToDecimal_eq h, Option.bind_some]
  refine decimalToMinor_eq_some.mpr ⟨minorDigits minor (currencyMinorDigits currency),
    isDecimal_minorDigits _ _, String.toList_ofList, ?_, (length_minorDigits_fraction _ _).le,
    (value_minorDigits _ _).symm, h⟩
  rw [String.length_ofList]
  exact length_minorDigits_text h (currencyMinorDigits_le currency)

/-- **The decimal text of amounts.** Every safe amount is read back from its text; and a text
is an amount exactly when it is a decimal of at most thirty-two characters, with no more
places than the currency has and a safe value, which then is the amount. -/
theorem money_interchange (currency : CurrencyCode) :
    (∀ minor : ℕ, minor ≤ maxSafeInteger →
      (minorToDecimal minor currency).bind (decimalToMinor · currency) = some minor) ∧
      ∀ (value : String) (n : ℕ), decimalToMinor value currency = some n ↔
        ∃ d : Digits, IsDecimal d ∧ value.toList = d.text ∧ value.length ≤ 32 ∧
          d.fraction.length ≤ currencyMinorDigits currency ∧
          (n : ℚ) = d.value * 10 ^ currencyMinorDigits currency ∧ n ≤ maxSafeInteger :=
  ⟨fun _ h => decimalToMinor_minorToDecimal h currency, fun _ _ => decimalToMinor_eq_some⟩

/-- The largest amount of all. -/
theorem money_interchange_largest :
    (minorToDecimal maxSafeInteger .eur).bind (decimalToMinor · .eur) = some maxSafeInteger :=
  (money_interchange .eur).1 maxSafeInteger le_rfl

end Money
