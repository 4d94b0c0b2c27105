import Mathlib.Tactic.IntervalCases
import MsRealty.Binary64
import MsRealty.JsonNumber

/-!
# Decimals with two places

The form in which amounts and areas are typed: digits, and at most two more
after a point (`/^\d+(?:\.\d{1,2})?$/`). Such a text is read as a number of 53
binary digits, `Number(text)`, and the number is written as its shortest
decimal, `String(number)`.

A number that was read from a text of this form, and is not so large that the
places do not count, is written in this form again, as the same number and in
no more characters (`numberString_ofText`).
-/

namespace PlainDecimal

open Binary64 DecimalText JsonText

/-! ## The form -/

/-- **The digits of a text** of this form. -/
structure Digits where
  whole : List Char
  /-- The digits after the point; none if there is no point. -/
  fraction : List Char
  deriving DecidableEq

/-- Whether digits are of this form. -/
def Digits.isPlain (d : Digits) : Bool :=
  d.whole ≠ [] && d.whole.all Char.isDigit && d.fraction.all Char.isDigit
    && d.fraction.length ≤ 2

/-- The text of some digits. -/
def Digits.text (d : Digits) : List Char := d.whole ++ fractionText d.fraction

/-- The decimal they write. -/
def Digits.value (d : Digits) : ℚ :=
  Nat.ofDigitChars 10 (d.whole ++ d.fraction) 0 / 10 ^ d.fraction.length

/-- The digits of a text, if it has this form. -/
def ofText? (text : List Char) : Option Digits :=
  let digits : Digits := ⟨text.takeWhile Char.isDigit, (text.dropWhile Char.isDigit).tail⟩
  if digits.isPlain && digits.text = text then some digits else none

/-- **`Number(text)`**, of a text of this form. -/
def Digits.toNumber (d : Digits) : ℚ := nearest d.value

/-- **`String(number)`**, of a number that is not negative. -/
def numberString (x : ℚ) : List Char := numberText (shortest x)

theorem Digits.isPlain_iff {d : Digits} : d.isPlain = true ↔ d.whole ≠ [] ∧
    (∀ c ∈ d.whole, c.isDigit = true) ∧ (∀ c ∈ d.fraction, c.isDigit = true) ∧
      d.fraction.length ≤ 2 := by
  simp [isPlain, and_assoc]

/-- **A text of this form is the text of its digits.** -/
theorem ofText?_eq_some {text : List Char} {d : Digits} :
    ofText? text = some d ↔ d.isPlain = true ∧ text = d.text := by
  unfold ofText?
  refine ⟨fun h => ?_, ?_⟩
  · obtain ⟨hform, heq⟩ := Option.ite_none_right_eq_some.mp h
    obtain ⟨hplain, htext⟩ := Bool.and_eq_true_iff.mp hform
    obtain rfl := Option.some.inj heq
    exact ⟨hplain, (of_decide_eq_true htext).symm⟩
  · rintro ⟨hplain, rfl⟩
    obtain ⟨-, hwhole, -, -⟩ := Digits.isPlain_iff.mp hplain
    have hend : NoDigit (fractionText d.fraction) := by
      unfold fractionText
      split_ifs
      · exact fun c hc => absurd hc (by simp)
      · intro c hc
        rw [← Option.some.inj hc]
        decide
    have htail : (fractionText d.fraction).tail = d.fraction := by
      unfold fractionText
      split_ifs with hnil
      · exact hnil.symm
      · rfl
    have hdigits : (⟨d.text.takeWhile Char.isDigit, (d.text.dropWhile Char.isDigit).tail⟩ : Digits)
        = d := by
      rw [Digits.text, takeWhile_digits hwhole hend, dropWhile_digits hwhole hend, htail]
    show (if (Digits.isPlain ⟨_, _⟩ && decide (Digits.text ⟨_, _⟩ = d.text)) = true
      then some (⟨_, _⟩ : Digits) else none) = some d
    rw [hdigits, hplain, decide_eq_true rfl]
    rfl

theorem Digits.value_nonneg (d : Digits) : 0 ≤ d.value :=
  div_nonneg (Nat.cast_nonneg _) (by positivity)

/-! ## Writing a decimal with few places -/

/-- The places of a fraction over a power of ten. -/
theorem decimals_le {q : ℚ} {j : ℕ} (h : q.den ∣ 10 ^ j) : decimals q ≤ j := by
  unfold decimals
  cases hfind : (List.range (q.den.log2 + 1)).find? (fun i => 10 ^ i % q.den = 0) with
  | none => exact Nat.zero_le j
  | some i =>
    rw [Option.getD_some]
    by_contra hlt
    obtain ⟨-, before, after, hlist, hbefore⟩ := List.find?_eq_some_iff_append.mp hfind
    have hi : i < q.den.log2 + 1 := List.mem_range.mp (List.mem_of_find?_eq_some hfind)
    have hsorted := List.pairwise_lt_range (n := q.den.log2 + 1)
    have hj : j ∈ List.range (q.den.log2 + 1) := List.mem_range.mpr (by omega)
    rw [hlist, List.pairwise_append] at hsorted
    rw [hlist] at hj
    obtain hj | hj := List.mem_append.mp hj
    · have hno := hbefore j hj
      rw [Nat.mod_eq_zero_of_dvd h] at hno
      exact absurd hno (by simp)
    · obtain rfl | hj := List.mem_cons.mp hj
      · exact hlt le_rfl
      · exact hlt (List.rel_of_pairwise_cons hsorted.2.1 hj).le

/-- The text of a decimal that has no exponent. -/
structure Digits.Writes (d : Digits) (q : ℚ) (j : ℕ) : Prop where
  isPlain : d.isPlain = true
  length_fraction : d.fraction.length ≤ j
  value : d.value = q
  text : numberText q = d.text
  /-- A whole part that begins with a zero is that zero. -/
  whole_zero : d.whole.head? = some '0' → d.whole.length = 1

theorem writes_of_parts {q : ℚ} {whole fraction : List Char} {j : ℕ} (hpos : 0 < q) (hj : j ≤ 2)
    (h : Parts q whole fraction [] 0) (hlength : fraction.length ≤ j) :
    (⟨whole, fraction⟩ : Digits).Writes q j where
  isPlain := Digits.isPlain_iff.mpr
    ⟨h.whole_ne_nil, h.isDigit_whole, h.isDigit_fraction, hlength.trans hj⟩
  length_fraction := hlength
  value := by
    have hvalue := h.value_eq
    rw [zero_sub, zpow_neg, zpow_natCast] at hvalue
    exact hvalue
  text := by
    rw [numberText, if_neg hpos.ne', if_neg hpos.not_gt, h.text_eq, List.append_nil]
    rfl
  whole_zero := h.whole_zero

/-- **A number with few places is written with a point, or with none.** -/
theorem exists_writes {n j : ℕ} (hj : j ≤ 2) (hsmall : (n : ℚ) / 10 ^ j < 10 ^ 21) :
    ∃ d : Digits, d.Writes (n / 10 ^ j) j := by
  obtain rfl | hn := Nat.eq_zero_or_pos n
  · refine ⟨⟨['0'], []⟩, rfl, Nat.zero_le j, ?_, ?_, fun _ => rfl⟩
    · rw [Nat.cast_zero, zero_div]
      exact zero_div _
    · rw [Nat.cast_zero, zero_div]
      rfl
  · generalize hq : (n : ℚ) / 10 ^ j = q at hsmall ⊢
    have hpos : 0 < q := by
      rw [← hq]
      positivity
    have hden : q.den ∣ 10 ^ j := by
      have h := Rat.den_dvd n (10 ^ j)
      rw [Rat.divInt_eq_div] at h
      push_cast at h
      rw [hq] at h
      exact_mod_cast h
    have hdecimal : Decimal q := (decimal_iff q).mpr ⟨j, hden⟩
    have hplaces := decimals_le hden
    have hpoint : point q ≤ 21 := by
      have hunits : units q < 10 ^ (21 + decimals q) := by
        have h := units_div hpos hdecimal
        rw [div_eq_iff (by positivity)] at h
        have hlt : (units q : ℚ) < 10 ^ (21 + decimals q) := by
          rw [h, pow_add]
          exact mul_lt_mul_of_pos_right hsmall (by positivity)
        exact_mod_cast hlt
      have hlength := (Nat.length_toDigits_le_iff (b := 10) (by norm_num) (by omega)).mpr hunits
      unfold point
      omega
    have hlong := length_shownDigits_le q
    have hdigit := List.length_pos_iff.mpr (Nat.toDigits_ne_nil (b := 10) (n := units q))
    have hwhere : point q + decimals q = (Nat.toDigits 10 (units q)).length := by
      unfold point
      omega
    by_cases hwhole : (shownDigits q).length ≤ point q
    · exact ⟨_, writes_of_parts hpos hj (parts_whole hpos hdecimal ⟨hwhole, hpoint⟩)
        (Nat.zero_le j)⟩
    by_cases hamong : 0 < point q
    · refine ⟨_, writes_of_parts hpos hj
        (parts_point hpos hdecimal ⟨hamong, hpoint⟩ (by omega)) ?_⟩
      rw [List.length_drop]
      omega
    · refine ⟨_, writes_of_parts hpos hj (parts_zeros hpos hdecimal ⟨by omega, by omega⟩) ?_⟩
      rw [List.length_append, List.length_replicate]
      omega

/-! ## Reading back -/

/-- Digits that do not begin with a zero denote no less than their length says. -/
theorem pow_le_ofDigitChars {c : Char} {rest : List Char} (hc : c.isDigit = true)
    (hzero : c ≠ '0') : 10 ^ rest.length ≤ Nat.ofDigitChars 10 (c :: rest) 0 := by
  have hone : 1 ≤ c.toNat - '0'.toNat := by
    have hbounds := Char.isDigit_iff_toNat.mp hc
    have hne : c.toNat ≠ '0'.toNat := fun h => hzero (Char.toNat_inj.mp h)
    have hnat : '0'.toNat = 48 := rfl
    omega
  rw [Nat.ofDigitChars_cons, Nat.ofDigitChars_eq_ofDigitChars_zero]
  calc 10 ^ rest.length = 10 ^ rest.length * 1 := (Nat.mul_one _).symm
    _ ≤ _ := le_trans (Nat.mul_le_mul_left _ (by omega)) (Nat.le_add_right _ _)

/-- Digits denote less than their length says. -/
theorem ofDigitChars_lt {digits : List Char} (h : ∀ c ∈ digits, c.isDigit = true) :
    Nat.ofDigitChars 10 digits 0 < 10 ^ digits.length := by
  induction digits with
  | nil => exact Nat.one_pos
  | cons c rest ih =>
    obtain ⟨hc, hrest⟩ := List.forall_mem_cons.mp h
    have hbounds := Char.isDigit_iff_toNat.mp hc
    have hfirst : '0'.toNat = 48 := rfl
    have hlast : '9'.toNat = 57 := rfl
    have hlt := ih hrest
    rw [Nat.ofDigitChars_cons, Nat.ofDigitChars_eq_ofDigitChars_zero, List.length_cons, pow_succ]
    have hdigit : 10 * 0 + (c.toNat - '0'.toNat) ≤ 9 := by omega
    calc _ ≤ 10 ^ rest.length * 9 + Nat.ofDigitChars 10 rest 0 :=
          Nat.add_le_add_right (Nat.mul_le_mul_left _ hdigit) _
      _ < 10 ^ rest.length * 10 := by omega

/-- A positive decimal with few places is read as a number of no fewer places
before its point. -/
theorem log_toNumber {d : Digits} (hplain : d.isPlain = true) (hpos : 0 < d.value) :
    0 ≤ Int.log 10 d.toNumber + d.fraction.length := by
  obtain ⟨-, -, -, hlength⟩ := Digits.isPlain_iff.mp hplain
  have hunits : (1 : ℚ) / 10 ^ d.fraction.length ≤ d.value := by
    unfold Digits.value at hpos ⊢
    have hdigits : 0 < Nat.ofDigitChars 10 (d.whole ++ d.fraction) 0 := by
      refine Nat.pos_of_ne_zero (fun hzero => ?_)
      rw [hzero, Nat.cast_zero, zero_div] at hpos
      exact absurd hpos (lt_irrefl 0)
    exact div_le_div_of_nonneg_right (by exact_mod_cast hdigits) (by positivity)
  have hplace : ∀ j ≤ 2, (1 : ℚ) / 10 ^ j ≤ nearest (1 / 10 ^ j) := by decide +kernel
  have hle : (10 : ℚ) ^ (-(d.fraction.length : ℤ)) ≤ d.toNumber := by
    rw [zpow_neg, zpow_natCast, ← one_div]
    exact (hplace _ hlength).trans (nearest_mono (by positivity) hunits)
  have hlog := (Int.zpow_le_iff_le_log (b := 10) (by norm_num) (nearest_pos hpos)).mp
    (by exact_mod_cast hle)
  unfold Digits.toNumber
  omega

/-- The powers of ten that 53 digits write. -/
theorem nearest_ten_pow {w : ℕ} (hw : w ≤ 22) : nearest ((10 : ℚ) ^ w) = 10 ^ w := by
  have hsmall : 5 ^ w ≤ 2 ^ 53 := (Nat.pow_le_pow_right (by norm_num) hw).trans (by norm_num)
  have h := nearest_eq_self (e := (w : ℤ)) hsmall
  rw [zpow_natCast, Nat.cast_pow, Nat.cast_ofNat, ← mul_pow] at h
  norm_num at h
  exact h

/-- A number that is not too large has as many digits before its point as the
text it was read from. -/
theorem toNumber_lt {d : Digits} (hplain : d.isPlain = true) (hsmall : d.toNumber < 10 ^ 14) :
    d.toNumber < 10 ^ min d.whole.length 14 := by
  obtain ⟨-, hwhole, hfraction, hlength⟩ := Digits.isPlain_iff.mp hplain
  obtain hw | hw := le_or_gt 14 d.whole.length
  · rwa [min_eq_right hw]
  · rw [min_eq_left hw.le]
    have hdigits : ∀ c ∈ d.whole ++ d.fraction, c.isDigit = true :=
      fun c hc => (List.mem_append.mp hc).elim (hwhole c) (hfraction c)
    have hlt := Nat.succ_le_of_lt (ofDigitChars_lt hdigits)
    rw [List.length_append, pow_add] at hlt
    have hvalue : d.value ≤ 10 ^ d.whole.length - 1 / 10 ^ d.fraction.length := by
      unfold Digits.value
      rw [div_le_iff₀ (by positivity), sub_mul, one_div_mul_cancel (by positivity)]
      have hcast : (Nat.ofDigitChars 10 (d.whole ++ d.fraction) 0 : ℚ) + 1
          ≤ 10 ^ d.whole.length * 10 ^ d.fraction.length := by exact_mod_cast hlt
      linarith
    have hplace : (1 : ℚ) / 100 ≤ 1 / 10 ^ d.fraction.length := by
      refine one_div_le_one_div_of_le (by positivity) ?_
      calc (10 : ℚ) ^ d.fraction.length ≤ 10 ^ 2 := pow_le_pow_right₀ (by norm_num) hlength
        _ = 100 := by norm_num
    have hpow : (10 : ℚ) ^ d.whole.length ≤ 10 ^ 13 := pow_le_pow_right₀ (by norm_num) (by omega)
    obtain hpos | hzero := d.value_nonneg.lt_or_eq
    · have hulp : ulp d.value ≤ d.value / 2 ^ 52 := by
        have hlog := Int.zpow_log_le_self (b := 2) (by norm_num) hpos
        rw [Nat.cast_ofNat, two_pow_log] at hlog
        rw [le_div_iff₀ (by positivity)]
        linarith
      have hround := nearest_sub_le d.value
      have hbound : d.value / 2 ^ 52 ≤ 10 ^ 13 / 2 ^ 52 :=
        div_le_div_of_nonneg_right (by linarith) (by positivity)
      have hnum : (10 : ℚ) ^ 13 / 2 ^ 52 < 1 / 100 := by norm_num
      unfold Digits.toNumber
      linarith
    · rw [Digits.toNumber, ← hzero, nearest_zero]
      positivity

/-- What reads as a number below a power of ten is below it. -/
theorem lt_of_nearest_lt {q : ℚ} {w : ℕ} (hw : w ≤ 22) (h : nearest q < 10 ^ w) : q < 10 ^ w := by
  by_contra hle
  have hmono := nearest_mono (by positivity) (not_lt.mp hle)
  rw [nearest_ten_pow hw] at hmono
  exact absurd h (not_lt.mpr hmono)

/-- **The digits of a decimal below a power of ten.** -/
theorem length_whole_le {d : Digits} {w : ℕ} (hw : 0 < w) (hplain : d.isPlain = true)
    (hzero : d.whole.head? = some '0' → d.whole.length = 1) (h : d.value < 10 ^ w) :
    d.whole.length ≤ w := by
  obtain ⟨-, hwhole, -, -⟩ := Digits.isPlain_iff.mp hplain
  by_contra hlong
  cases hdigits : d.whole with
  | nil =>
    rw [hdigits] at hlong
    exact hlong (Nat.zero_le w)
  | cons c rest =>
    rw [hdigits] at hlong hwhole hzero
    have hc : c ≠ '0' := by
      rintro rfl
      have hone := hzero rfl
      omega
    have hlow : 10 ^ (rest ++ d.fraction).length ≤ Nat.ofDigitChars 10 (c :: (rest ++ d.fraction)) 0 :=
      pow_le_ofDigitChars (hwhole c List.mem_cons_self) hc
    rw [List.length_append, pow_add] at hlow
    have hpow : 10 ^ w ≤ 10 ^ rest.length :=
      Nat.pow_le_pow_right (by norm_num) (by rw [List.length_cons] at hlong; omega)
    have hge : (10 : ℚ) ^ w * 10 ^ d.fraction.length
        ≤ Nat.ofDigitChars 10 (c :: (rest ++ d.fraction)) 0 := by
      exact_mod_cast (Nat.mul_le_mul_right _ hpow).trans hlow
    rw [Digits.value, hdigits, div_lt_iff₀ (by positivity)] at h
    exact absurd h (not_lt.mpr hge)

theorem length_text (d : Digits) : d.text.length =
    d.whole.length + if d.fraction = [] then 0 else d.fraction.length + 1 := by
  rw [Digits.text, List.length_append, fractionText]
  split_ifs <;> rfl

theorem shortest_zero : shortest 0 = 0 := by decide +kernel

/-- **A number that was read from a plain decimal is written as one**, in no
more characters, and is read back from it. -/
theorem numberString_ofText {d : Digits} (hplain : d.isPlain = true)
    (hsmall : d.toNumber < 10 ^ 14) :
    ∃ d', ofText? (numberString d.toNumber) = some d' ∧ d'.toNumber = d.toNumber ∧
      d'.fraction.length ≤ d.fraction.length ∧ d'.text.length ≤ d.text.length := by
  obtain ⟨hne, -, -, hlength⟩ := Digits.isPlain_iff.mp hplain
  have hwhole := List.length_pos_iff.mpr hne
  have hx : nearest d.toNumber = d.toNumber := nearest_nearest d.value_nonneg
  obtain ⟨n, hn⟩ : ∃ n : ℕ, shortest d.toNumber = n / 10 ^ d.fraction.length := by
    obtain hpos | hzero := d.value_nonneg.lt_or_eq
    · have hlog := (Int.lt_zpow_iff_log_lt (b := 10) (x := 14) (by norm_num)
        (nearest_pos hpos)).mp (by exact_mod_cast hsmall)
      have hlow := log_toNumber hplain hpos
      refine shortest_grid hx rfl hlow ?_
      unfold Digits.toNumber
      omega
    · refine ⟨0, ?_⟩
      rw [Digits.toNumber, ← hzero, nearest_zero, shortest_zero, Nat.cast_zero, zero_div]
  have hread := nearest_shortest hx
  have hbound : shortest d.toNumber < 10 ^ min d.whole.length 14 := by
    refine lt_of_nearest_lt (by omega) ?_
    rw [hread]
    exact toNumber_lt hplain hsmall
  have hwide : (10 : ℚ) ^ min d.whole.length 14 ≤ 10 ^ 21 :=
    pow_le_pow_right₀ (by norm_num) (by omega)
  rw [hn] at hbound hread
  obtain ⟨d', hd'⟩ := exists_writes hlength (hbound.trans_le hwide)
  refine ⟨d', ofText?_eq_some.mpr ⟨hd'.isPlain, ?_⟩, ?_, hd'.length_fraction, ?_⟩
  · rw [numberString, hn, hd'.text]
  · rw [Digits.toNumber, hd'.value, hread]
  · have hshort : d'.whole.length ≤ min d.whole.length 14 := by
      refine length_whole_le (by omega) hd'.isPlain hd'.whole_zero ?_
      rwa [hd'.value]
    have hfraction := hd'.length_fraction
    rw [length_text, length_text]
    by_cases hnil : d.fraction = []
    · have hnil' : d'.fraction = [] := by
        rw [hnil] at hfraction
        exact List.length_eq_zero_iff.mp (Nat.le_zero.mp hfraction)
      rw [if_pos hnil, if_pos hnil']
      omega
    · rw [if_neg hnil]
      split_ifs <;> omega

end PlainDecimal
