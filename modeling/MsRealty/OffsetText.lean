import MsRealty.Decimals
import MsRealty.IsoDatetime

/-!
# The text of an offset

The offset between a wall time and its instant is written as hours and
minutes, `+03:00`. The minutes are computed as a quotient, a number of 53
binary digits, so that an offset of whole minutes is written exactly and any
other has the decimals of the quotient behind it: such a text is not read as
an offset (`readOffset_offsetText`).
-/

namespace LocalTime

open Binary64 PlainDecimal DecimalText JsonText IsoInstant

/-- `padStart(2, "0")`. -/
def padTwo (text : List Char) : List Char := List.replicate (2 - text.length) '0' ++ text

/-- **The text of an offset**, as `readLocalInput` writes it. -/
def offsetText (wall instant : ℤ) : List Char :=
  let minutes := nearest ((wall - instant).natAbs / 60000)
  let hours := ⌊nearest (minutes / 60)⌋
  (if wall < instant then '-' else '+') :: (padTwo (numberString hours)
    ++ ':' :: padTwo (numberString (minutes - 60 * ⌊minutes / 60⌋)))

/-- The offset of a text, in milliseconds. -/
def readOffset : List Char → Option ℤ
  | [] => none
  | sign :: rest => do
    let (hours, rest) ← takeDigits 2 rest
    let rest ← takeChar ':' rest
    let (minutes, rest) ← takeDigits 2 rest
    if rest ≠ [] then none
    else if sign = '+' then some ((hours * 60 + minutes : ℕ) * 60000)
    else if sign = '-' then some (-((hours * 60 + minutes : ℕ) * 60000))
    else none

/-! ## Quotients -/

theorem nearest_dyadic {a n : ℕ} (ha : a ≤ 2 ^ 53) : nearest ((a : ℚ) / 2 ^ n) = a / 2 ^ n := by
  have h := nearest_eq_self (e := -(n : ℤ)) ha
  rwa [zpow_neg, zpow_natCast, ← div_eq_mul_inv] at h

/-- The minutes of a number of seconds. -/
structure Quotient (seconds : ℕ) (minutes : ℚ) : Prop where
  le : ((seconds / 60 : ℕ) : ℚ) ≤ minutes
  le_pred : minutes ≤ (seconds / 60 : ℕ) + 63 / 64
  exact : seconds % 60 = 0 → minutes = (seconds / 60 : ℕ)
  lt : seconds % 60 ≠ 0 → ((seconds / 60 : ℕ) : ℚ) < minutes

/-- **The quotient stays between the minutes**, and is whole for whole minutes. -/
theorem quotient_nearest {s : ℕ} (hs : s < 86400) : Quotient s (nearest ((s : ℚ) / 60)) := by
  have hsplit : (s : ℚ) = 60 * (s / 60 : ℕ) + (s % 60 : ℕ) := by
    exact_mod_cast (Nat.div_add_mod s 60).symm
  have hmod : ((s % 60 : ℕ) : ℚ) ≤ 59 := by
    exact_mod_cast (show s % 60 ≤ 59 by omega)
  have hq : (s : ℚ) / 60 = (s / 60 : ℕ) + ((s % 60 : ℕ) : ℚ) / 60 := by
    rw [hsplit]
    ring
  have hnonneg : (0 : ℚ) ≤ (s % 60 : ℕ) := Nat.cast_nonneg _
  have hwhole : nearest ((s / 60 : ℕ) : ℚ) = (s / 60 : ℕ) := nearest_natCast (by omega)
  refine ⟨?_, ?_, fun hzero => ?_, fun hne => ?_⟩
  · have hmono := nearest_mono (p := ((s / 60 : ℕ) : ℚ)) (q := s / 60) (Nat.cast_nonneg _)
      (by rw [hq]; linarith)
    rwa [hwhole] at hmono
  · have hmono := nearest_mono (p := (s : ℚ) / 60) (q := (64 * (s / 60) + 63 : ℕ) / 2 ^ 6)
      (by positivity) (by rw [hq]; push_cast; linarith)
    rw [nearest_dyadic (by omega)] at hmono
    push_cast at hmono
    linarith
  · rw [hq, hzero, Nat.cast_zero, zero_div, add_zero, hwhole]
  · have hone : (1 : ℚ) ≤ (s % 60 : ℕ) := by exact_mod_cast Nat.one_le_iff_ne_zero.mpr hne
    have hmono := nearest_mono (p := ((64 * (s / 60) + 1 : ℕ) : ℚ) / 2 ^ 6) (q := s / 60)
      (by positivity) (by rw [hq]; push_cast; linarith)
    rw [nearest_dyadic (by omega)] at hmono
    push_cast at hmono
    linarith

variable {s : ℕ} {minutes : ℚ}

/-- The minutes lie in their hour. -/
theorem Quotient.hour (h : Quotient s minutes) : (60 : ℚ) * (s / 3600 : ℕ) ≤ minutes ∧
    minutes ≤ 60 * (s / 3600 : ℕ) + 59 + 63 / 64 := by
  have hle := h.le
  have hpred := h.le_pred
  have hlow : 60 * (s / 3600) ≤ s / 60 := by omega
  have hhigh : s / 60 ≤ 60 * (s / 3600) + 59 := by omega
  have hlow' : (60 : ℚ) * (s / 3600 : ℕ) ≤ (s / 60 : ℕ) := by exact_mod_cast hlow
  have hhigh' : ((s / 60 : ℕ) : ℚ) ≤ 60 * (s / 3600 : ℕ) + 59 := by exact_mod_cast hhigh
  exact ⟨by linarith, by linarith⟩

theorem Quotient.floor_div (h : Quotient s minutes) : ⌊minutes / 60⌋ = (s / 3600 : ℕ) := by
  obtain ⟨hlow, hhigh⟩ := h.hour
  rw [Int.floor_eq_iff, Int.cast_natCast, le_div_iff₀ (by norm_num), div_lt_iff₀ (by norm_num)]
  exact ⟨by linarith, by linarith⟩

/-- Also when they are rounded. -/
theorem Quotient.floor_nearest (h : Quotient s minutes) (hs : s < 86400) :
    ⌊nearest (minutes / 60)⌋ = (s / 3600 : ℕ) := by
  obtain ⟨hlow, hhigh⟩ := h.hour
  have hlow' := nearest_mono (p := ((s / 3600 : ℕ) : ℚ)) (q := minutes / 60) (Nat.cast_nonneg _)
    (by linarith)
  rw [nearest_natCast (by omega)] at hlow'
  have hhigh' := nearest_mono (p := minutes / 60)
    (q := (4096 * (s / 3600) + 4095 : ℕ) / 2 ^ 12)
    (div_nonneg ((Nat.cast_nonneg _).trans h.le) (by norm_num)) (by push_cast; linarith)
  rw [nearest_dyadic (by omega)] at hhigh'
  push_cast at hhigh'
  rw [Int.floor_eq_iff, Int.cast_natCast]
  exact ⟨hlow', by linarith⟩

/-! ## Decimals of two digits -/

theorem decimal_nearest (q : ℚ) : Decimal (nearest q) := decimal_mul_two_zpow _ _

/-- The shortest decimal that is read as a decimal is one. -/
theorem decimal_shortest {x : ℚ} (hpos : 0 ≤ x) (hx : Decimal x) : Decimal (shortest x) := by
  unfold shortest
  cases hfind : (List.range' 1 17).findSome? (fun k => (decimalsAt x k).head?) with
  | none => exact hx
  | some d =>
    obtain ⟨k, -, hk⟩ := List.exists_of_findSome?_eq_some hfind
    obtain ⟨n, hn⟩ := exists_mul_grid hpos (mem_decimalsAt.mp (List.mem_of_mem_head? hk)).1
    rw [Option.getD_some, hn]
    exact decimal_mul_ten_zpow n _

/-- A number whose shortest decimal is whole is whole. -/
theorem eq_of_shortest {x : ℚ} {n : ℕ} (hn : n ≤ 2 ^ 53) (h : shortest x = n) : x = n := by
  unfold shortest at h
  cases hfind : (List.range' 1 17).findSome? (fun k => (decimalsAt x k).head?) with
  | none =>
    rw [hfind] at h
    exact h
  | some d =>
    rw [hfind, Option.getD_some] at h
    obtain ⟨k, -, hk⟩ := List.exists_of_findSome?_eq_some hfind
    have hread := (mem_decimalsAt.mp (List.mem_of_mem_head? hk)).2
    rw [h, nearest_natCast hn] at hread
    exact hread.symm

/-- A decimal that is written with digits alone is whole. -/
theorem eq_ofDigitChars {q : ℚ} (hq : Decimal q) (h : ∀ c ∈ numberText q, c.isDigit = true) :
    q = (Nat.ofDigitChars 10 (numberText q) 0 : ℕ) := by
  have hread : parseNumber (numberText q ++ []) = some (q, []) :=
    parseNumber_numberText hq (by simp [NumberEnd])
  obtain ⟨c, rest, htext, -⟩ := numberText_begins hq
  have hsign : takeSign (numberText q) = (false, numberText q) := by
    rw [htext] at h ⊢
    exact takeSign_digit (h c List.mem_cons_self) rest
  have hall : (numberText q).takeWhile Char.isDigit = numberText q :=
    List.takeWhile_eq_self_iff.mpr h
  have hnone : (numberText q).dropWhile Char.isDigit = [] := List.dropWhile_eq_nil_iff.mpr h
  rw [List.append_nil, parseNumber_eq, hsign] at hread
  obtain ⟨p, hp, hpair⟩ := Option.map_eq_some_iff.mp hread
  have hfst : p.fst = q := (Prod.mk.inj hpair).1
  unfold parseUnsigned at hp
  dsimp only at hp
  rw [hall, hnone] at hp
  split_ifs at hp with hlead
  have hp' : some (((Nat.ofDigitChars 10 (numberText q ++ []) 0 : ℕ) : ℚ)
      * 10 ^ ((0 : ℤ) - (0 : ℕ)), ([] : List Char)) = some p := hp
  refine (hfst.symm.trans (congrArg Prod.fst (Option.some.inj hp').symm)).trans ?_
  show ((Nat.ofDigitChars 10 (numberText q ++ []) 0 : ℕ) : ℚ) * 10 ^ ((0 : ℤ) - (0 : ℕ)) = _
  rw [List.append_nil, Nat.cast_zero, sub_zero, zpow_zero, mul_one]

/-- What is written with two digits is whole. -/
theorem whole_of_padTwo {x : ℚ} (hpos : 0 ≤ x) (hx : Decimal x) {n : ℕ}
    (h : takeDigits 2 (padTwo (numberString x)) = some (n, [])) : ∃ m : ℕ, x = m := by
  obtain ⟨digits, hpad, hlength, hdigits, -⟩ := takeDigits_eq_some h
  rw [List.append_nil] at hpad
  rw [← hpad] at hlength hdigits
  have hall : ∀ c ∈ numberString x, c.isDigit = true :=
    fun c hc => hdigits c (List.mem_append_right _ hc)
  have hshort : (numberString x).length ≤ 2 := by
    unfold padTwo at hlength
    rw [List.length_append] at hlength
    omega
  have hlt : Nat.ofDigitChars 10 (numberString x) 0 < 10 ^ 2 :=
    lt_of_lt_of_le (ofDigitChars_lt hall) (Nat.pow_le_pow_right (by decide) hshort)
  exact ⟨_, eq_of_shortest (hlt.le.trans (by decide))
    (eq_ofDigitChars (decimal_shortest hpos hx) hall)⟩

theorem padTwo_numberString {n : ℕ} (hn : n < 60) : padTwo (numberString n) = zeroPad 2 n := by
  have hall : (List.range 60).all (fun n => padTwo (numberString n) = zeroPad 2 n) = true := by
    decide +kernel
  exact of_decide_eq_true (List.all_eq_true.mp hall n (List.mem_range.mpr hn))

/-! ## The offset of a text -/

/-- The minutes past the hour are a decimal that is not negative. -/
theorem Quotient.rest (h : Quotient s minutes) (hdecimal : Decimal minutes) :
    0 ≤ minutes - 60 * (s / 3600 : ℕ) ∧ Decimal (minutes - 60 * (s / 3600 : ℕ)) := by
  have hle := h.le
  have hhours : 60 * (s / 3600) ≤ s / 60 := by omega
  have hlow : (60 : ℚ) * (s / 3600 : ℕ) ≤ (s / 60 : ℕ) := by exact_mod_cast hhours
  obtain ⟨k, n, hn⟩ := exists_mul_of_decimal hdecimal
  refine ⟨by linarith, decimal_of_mul (k := k) (n := n - 60 * (s / 3600 : ℕ) * 10 ^ k) ?_⟩
  rw [sub_mul, hn]
  push_cast
  rfl

/-- **An offset is read from its text exactly when it has whole minutes.** -/
theorem readOffset_offsetText {wall instant : ℤ} (hseconds : (wall - instant) % 1000 = 0)
    (hday : (wall - instant).natAbs < 86400000) (d : ℤ) :
    readOffset (offsetText wall instant) = some d ↔
      (wall - instant) % 60000 = 0 ∧ d = wall - instant := by
  obtain ⟨s, hs⟩ : ∃ s : ℕ, (wall - instant).natAbs = 1000 * s :=
    ⟨(wall - instant).natAbs / 1000, by omega⟩
  have hquotient : (((wall - instant).natAbs : ℕ) : ℚ) / 60000 = s / 60 := by
    rw [hs]
    push_cast
    ring
  have hq := quotient_nearest (s := s) (by omega)
  have htext : offsetText wall instant = (if wall < instant then '-' else '+') ::
      (zeroPad 2 (s / 3600) ++ ':' :: padTwo (numberString
        (nearest ((s : ℚ) / 60) - 60 * (s / 3600 : ℕ)))) := by
    unfold offsetText
    dsimp only
    rw [hquotient, hq.floor_nearest (by omega), hq.floor_div, Int.cast_natCast,
      padTwo_numberString (by omega)]
  have hhours := takeDigits_zeroPad (n := 2) (k := s / 3600) (by decide) (by omega)
    (':' :: padTwo (numberString (nearest ((s : ℚ) / 60) - 60 * (s / 3600 : ℕ))))
  rw [htext, readOffset]
  simp only [Option.bind_eq_bind, hhours, Option.bind_some, takeChar_cons]
  by_cases hwhole : s % 60 = 0
  · have hminutes : nearest ((s : ℚ) / 60) - 60 * (s / 3600 : ℕ) = (s / 60 % 60 : ℕ) := by
      have hsplit : (s / 60 : ℕ) = 60 * (s / 3600) + s / 60 % 60 := by omega
      rw [hq.exact hwhole, sub_eq_iff_eq_add']
      exact_mod_cast hsplit
    have hread := takeDigits_zeroPad (n := 2) (k := s / 60 % 60) (by decide) (by omega) []
    rw [List.append_nil] at hread
    rw [hminutes, padTwo_numberString (by omega), hread, Option.bind_some, if_neg (by simp)]
    by_cases hsign : wall < instant
    · rw [if_pos hsign, if_neg (by decide), if_pos rfl, Option.some.injEq]
      omega
    · rw [if_neg hsign, if_pos rfl, Option.some.injEq]
      omega
  · refine iff_of_false (fun h => ?_) (fun h => by omega)
    obtain ⟨⟨n, rest⟩, hread, hrest⟩ := Option.bind_eq_some_iff.mp h
    obtain ⟨hnonneg, hdecimal⟩ := hq.rest (decimal_nearest _)
    have hnil : rest = [] := by
      by_contra hne
      rw [if_pos hne] at hrest
      cases hrest
    rw [hnil] at hread
    obtain ⟨m, hm⟩ := whole_of_padTwo hnonneg hdecimal hread
    -- the quotient would be whole, between two whole numbers
    have hlt := hq.lt hwhole
    have hpred := hq.le_pred
    rw [sub_eq_iff_eq_add'.mp hm] at hlt hpred
    have hlt' : s / 60 < 60 * (s / 3600) + m := by exact_mod_cast hlt
    have hpred' : ((60 * (s / 3600) + m : ℕ) : ℚ) < (s / 60 + 1 : ℕ) := by
      push_cast at hpred ⊢
      linarith
    have hlast : 60 * (s / 3600) + m < s / 60 + 1 := by exact_mod_cast hpred'
    omega

end LocalTime
