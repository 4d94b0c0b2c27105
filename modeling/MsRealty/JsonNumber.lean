import Mathlib.Data.List.TakeWhile
import Mathlib.Data.Nat.Prime.Basic
import MsRealty.DecimalText
import MsRealty.JsonText

/-!
# JSON numbers are read back from their text

A finite decimal is written in one of four forms: whole, with a point among
its digits, with zeros after a leading `0.`, or with an exponent. Each form is
a whole part, perhaps a fraction and perhaps an exponent, and what they denote
is the digits times a power of ten (`parseUnsigned_parts`), the same in every
form (`digits_value`).
-/

namespace JsonText

open DecimalText

/-! ## Finite decimals -/

/-- A number that finitely many decimals write out. -/
def Decimal (q : ℚ) : Prop := 10 ^ decimals q % q.den = 0

/-- What divides a power of ten divides that of its length in bits. -/
theorem dvd_ten_pow_log2 {d k : ℕ} (h : d ∣ 10 ^ k) : d ∣ 10 ^ d.log2 := by
  induction d using Nat.strong_induction_on with
  | _ d ih =>
    have hpos : 0 < d := Nat.pos_of_dvd_of_pos h (Nat.pow_pos (by decide))
    by_cases hone : d = 1
    · rw [hone]
      exact Nat.one_dvd _
    · obtain ⟨p, hp, d', rfl⟩ := Nat.exists_prime_and_dvd hone
      have hten : p ∣ 10 := hp.dvd_of_dvd_pow (dvd_trans (Nat.dvd_mul_right p d') h)
      have hpos' : 0 < d' := Nat.pos_of_mul_pos_left hpos
      have hlt : d' < p * d' := by nlinarith [hp.two_le]
      have hrest := ih d' hlt (dvd_trans (Nat.dvd_mul_left d' p) h)
      have hlog : d'.log2 + 1 ≤ (p * d').log2 := by
        rw [Nat.le_log2 (by omega), Nat.pow_succ, Nat.mul_comm]
        exact Nat.mul_le_mul hp.two_le (Nat.log2_self_le (by omega))
      have hboth := Nat.mul_dvd_mul hten hrest
      rw [← Nat.pow_succ'] at hboth
      exact dvd_trans hboth (Nat.pow_dvd_pow 10 hlog)

/-- **Finite decimals are the fractions over powers of ten.** -/
theorem decimal_iff (q : ℚ) : Decimal q ↔ ∃ k, q.den ∣ 10 ^ k := by
  refine ⟨fun h => ⟨_, Nat.dvd_of_mod_eq_zero h⟩, ?_⟩
  rintro ⟨k, hk⟩
  unfold Decimal decimals
  cases hfind : (List.range (q.den.log2 + 1)).find? (fun j => 10 ^ j % q.den = 0) with
  | none =>
    have hno := List.find?_eq_none.mp hfind q.den.log2 (List.mem_range.mpr (Nat.lt_succ_self _))
    exact absurd (decide_eq_true (Nat.mod_eq_zero_of_dvd (dvd_ten_pow_log2 hk))) hno
  | some j => simpa using List.find?_some hfind

theorem Decimal.neg {q : ℚ} (h : Decimal q) : Decimal (-q) := by
  obtain ⟨k, hk⟩ := (decimal_iff q).mp h
  exact (decimal_iff (-q)).mpr ⟨k, by rwa [Rat.neg_den]⟩

/-- The units of the last decimal. -/
def units (q : ℚ) : ℕ := (q * 10 ^ decimals q).num.natAbs

/-- **A decimal is its units over a power of ten.** -/
theorem units_div {q : ℚ} (hpos : 0 < q) (h : Decimal q) :
    (units q : ℚ) / 10 ^ decimals q = q := by
  obtain ⟨m, hm⟩ := Nat.dvd_of_mod_eq_zero h
  have hden : (q.den : ℚ) ≠ 0 := Nat.cast_ne_zero.mpr q.den_nz
  have hwhole : q * 10 ^ decimals q = ((q.num * m : ℤ) : ℚ) := by
    have hcast : (10 : ℚ) ^ decimals q = q.den * m := by exact_mod_cast hm
    rw [hcast, ← mul_assoc, Rat.mul_den_eq_num, Int.cast_mul, Int.cast_natCast]
  have hnonneg : 0 ≤ (q * 10 ^ decimals q).num := Rat.num_nonneg.mpr (by positivity)
  have hunits : (units q : ℚ) = q * 10 ^ decimals q := by
    have hcast : ((units q : ℤ) : ℚ) = ((q * 10 ^ decimals q).num : ℚ) := by
      rw [units, Int.natAbs_of_nonneg hnonneg]
    rw [← Int.cast_natCast, hcast, hwhole, Rat.num_intCast]
  rw [hunits]
  exact mul_div_cancel_right₀ q (by positivity)

theorem units_pos {q : ℚ} (hpos : 0 < q) (h : Decimal q) : 0 < units q := by
  refine Nat.pos_of_ne_zero (fun hzero => ?_)
  have hq := units_div hpos h
  rw [hzero, Nat.cast_zero, zero_div] at hq
  exact absurd hq.symm hpos.ne'

/-! ## Digits -/

/-- Digits are their trimmed digits and the zeros at their end. -/
theorem trimZeros_append (digits : List Char) :
    trimZeros digits ++ List.replicate (digits.length - (trimZeros digits).length) '0'
      = digits := by
  have hsplit : trimZeros digits ++ (digits.reverse.takeWhile (· == '0')).reverse = digits := by
    rw [trimZeros, ← List.reverse_append, List.takeWhile_append_dropWhile, List.reverse_reverse]
  have hzeros : (digits.reverse.takeWhile (· == '0')).reverse
      = List.replicate (digits.reverse.takeWhile (· == '0')).length '0' := by
    refine List.eq_replicate_iff.mpr ⟨List.length_reverse, fun c hc => ?_⟩
    simpa using List.mem_takeWhile_imp (List.mem_reverse.mp hc)
  have hlength := congrArg List.length hsplit
  rw [List.length_append, List.length_reverse] at hlength
  conv_rhs => rw [← hsplit, hzeros]
  congr 2
  omega

/-- The digits that are written. -/
def shownDigits (q : ℚ) : List Char := trimZeros (Nat.toDigits 10 (units q))

/-- Where the decimal point is among them. -/
def point (q : ℚ) : ℤ := (Nat.toDigits 10 (units q)).length - decimals q

theorem length_shownDigits_le (q : ℚ) :
    (shownDigits q).length ≤ (Nat.toDigits 10 (units q)).length := by
  have h := congrArg List.length (trimZeros_append (Nat.toDigits 10 (units q)))
  rw [List.length_append] at h
  unfold shownDigits
  omega

theorem isDigit_shownDigits {q : ℚ} : ∀ c ∈ shownDigits q, c.isDigit = true := by
  intro c hc
  refine Nat.isDigit_of_mem_toDigits (b := 10) (n := units q) (by decide) (by decide) ?_
  rw [← trimZeros_append (Nat.toDigits 10 (units q))]
  exact List.mem_append_left _ hc

/-- **The number is its digits times a power of ten.** -/
theorem digits_value {q : ℚ} (hpos : 0 < q) (h : Decimal q) :
    (Nat.ofDigitChars 10 (shownDigits q) 0 : ℚ)
      * 10 ^ (point q - (shownDigits q).length) = q := by
  have hle := length_shownDigits_le q
  have hvalue : Nat.ofDigitChars 10 (shownDigits q) 0
      * 10 ^ ((Nat.toDigits 10 (units q)).length - (shownDigits q).length) = units q := by
    have hall := Nat.ofDigitChars_ten_toDigits (n := units q)
    rw [← trimZeros_append (Nat.toDigits 10 (units q)), Nat.ofDigitChars_append,
      Nat.ofDigitChars_replicate_zero, Nat.mul_comm] at hall
    exact hall
  have hexponent : point q - (shownDigits q).length
      = ((Nat.toDigits 10 (units q)).length - (shownDigits q).length : ℕ) - (decimals q : ℤ) := by
    unfold point
    omega
  calc (Nat.ofDigitChars 10 (shownDigits q) 0 : ℚ) * 10 ^ (point q - (shownDigits q).length)
      = (Nat.ofDigitChars 10 (shownDigits q) 0
          * 10 ^ ((Nat.toDigits 10 (units q)).length - (shownDigits q).length) : ℕ)
          / 10 ^ decimals q := by
        rw [hexponent, zpow_sub₀ (by norm_num), zpow_natCast, zpow_natCast, mul_div_assoc',
          Nat.cast_mul, Nat.cast_pow, Nat.cast_ofNat]
    _ = q := by rw [hvalue, units_div hpos h]

/-! ## Parts of a text -/

/-- A text does not go on as a number. -/
def NumberEnd (rest : List Char) : Prop :=
  ∀ c ∈ rest.head?, c.isDigit = false ∧ c ≠ '.' ∧ c ≠ 'e' ∧ c ≠ 'E'

theorem NumberEnd.noDigit {rest : List Char} (h : NumberEnd rest) : NoDigit rest :=
  fun c hc => (h c hc).1

/-- The part of `parseNumber` after the sign. -/
def parseUnsigned (text : List Char) : Option (ℚ × List Char) := do
  let whole := text.takeWhile Char.isDigit
  if whole = [] ∨ whole.head? = some '0' ∧ 1 < whole.length then none
  else
    let (fraction, rest) ← takeFraction (text.dropWhile Char.isDigit)
    let (exponent, rest) ← takeExponent rest
    return ((Nat.ofDigitChars 10 (whole ++ fraction) 0 : ℚ) * 10 ^ (exponent - fraction.length),
      rest)

theorem parseNumber_eq (text : List Char) :
    parseNumber text = (parseUnsigned (takeSign text).snd).map (fun p =>
      (if (takeSign text).fst then -p.fst else p.fst, p.snd)) := by
  unfold parseNumber parseUnsigned
  dsimp only
  by_cases hlead : (takeSign text).snd.takeWhile Char.isDigit = []
      ∨ ((takeSign text).snd.takeWhile Char.isDigit).head? = some '0'
        ∧ 1 < ((takeSign text).snd.takeWhile Char.isDigit).length
  · rw [if_pos hlead, if_pos hlead]
    rfl
  · rw [if_neg hlead, if_neg hlead]
    cases takeFraction ((takeSign text).snd.dropWhile Char.isDigit) with
    | none => rfl
    | some p =>
      show Option.bind (takeExponent p.snd) _ = Option.map _ (Option.bind (takeExponent p.snd) _)
      cases takeExponent p.snd <;> rfl

/-- What follows the digits of a number: no fraction, or one. -/
def fractionText (fraction : List Char) : List Char :=
  if fraction = [] then [] else '.' :: fraction

/-- An exponent as it is written: none, or with its sign. -/
def exponentText (exponent : ℤ) : List Char :=
  'e' :: (if exponent < 0 then '-' else '+') :: Nat.toDigits 10 exponent.natAbs

/-- A text does not go on with a digit or a point. -/
def FractionEnd (rest : List Char) : Prop := ∀ c ∈ rest.head?, c.isDigit = false ∧ c ≠ '.'

theorem takeFraction_fractionText {fraction rest : List Char}
    (hdigits : ∀ c ∈ fraction, c.isDigit = true) (hrest : FractionEnd rest) :
    takeFraction (fractionText fraction ++ rest) = some (fraction, rest) := by
  have hnoDigit : NoDigit rest := fun c hc => (hrest c hc).1
  unfold fractionText
  split_ifs with hnil
  · rw [hnil, List.nil_append]
    cases rest with
    | nil => rfl
    | cons c rest =>
      rw [takeFraction]
      intro _ heq
      exact (hrest c rfl).2 (List.cons.inj heq).1
  · rw [List.cons_append, takeFraction, takeWhile_digits hdigits hnoDigit, if_neg hnil,
      dropWhile_digits hdigits hnoDigit]

theorem takeExponent_exponentText (exponent : ℤ) {rest : List Char} (hrest : NumberEnd rest) :
    takeExponent (exponentText exponent ++ rest) = some (exponent, rest) := by
  have hdigits : ∀ c ∈ Nat.toDigits 10 exponent.natAbs, c.isDigit = true := fun c hc =>
    Nat.isDigit_of_mem_toDigits (by decide) (by decide) hc
  have hread : ∀ negative, exponentDigits negative (Nat.toDigits 10 exponent.natAbs ++ rest)
      = some (if negative then -(exponent.natAbs : ℤ) else exponent.natAbs, rest) := by
    intro negative
    unfold exponentDigits
    dsimp only
    rw [takeWhile_digits hdigits hrest.noDigit, dropWhile_digits hdigits hrest.noDigit,
      if_neg Nat.toDigits_ne_nil, Nat.ofDigitChars_ten_toDigits]
  unfold exponentText
  by_cases hneg : exponent < 0
  · rw [if_pos hneg, List.cons_append, List.cons_append, takeExponent]
    · show exponentDigits true (Nat.toDigits 10 exponent.natAbs ++ rest) = _
      rw [hread true, if_pos rfl]
      congr 2
      omega
    · intro _ heq
      exact absurd (List.cons.inj heq).1 (by decide)
  · rw [if_neg hneg, List.cons_append, List.cons_append, takeExponent, hread false,
      if_neg Bool.false_ne_true]
    congr 2
    omega

theorem takeExponent_end {rest : List Char} (hrest : NumberEnd rest) :
    takeExponent rest = some (0, rest) := by
  cases rest with
  | nil => rfl
  | cons c rest =>
    obtain ⟨-, -, he, hE⟩ := hrest c rfl
    rw [takeExponent]
    all_goals
      intro _ heq
      first | exact he (List.cons.inj heq).1 | exact hE (List.cons.inj heq).1

theorem NumberEnd.fractionEnd {rest : List Char} (h : NumberEnd rest) : FractionEnd rest :=
  fun c hc => ⟨(h c hc).1, (h c hc).2.1⟩

theorem exponentText_fractionEnd (exponent : ℤ) (rest : List Char) :
    FractionEnd (exponentText exponent ++ rest) := by
  rintro c ⟨⟩
  decide

/-- What stands before a fraction does not go on with a digit. -/
theorem noDigit_fractionText {fraction rest : List Char} (hrest : FractionEnd rest) :
    NoDigit (fractionText fraction ++ rest) := by
  unfold fractionText
  split_ifs
  · exact fun c hc => (hrest c hc).1
  · rintro c ⟨⟩
    decide

/-- **A number is read from its parts.** -/
theorem parseUnsigned_parts {whole fraction tail rest : List Char} {exponent : ℤ}
    (hwhole : ∀ c ∈ whole, c.isDigit = true) (hne : whole ≠ [])
    (hzero : whole.head? = some '0' → whole.length = 1)
    (hfraction : ∀ c ∈ fraction, c.isDigit = true) (htail : FractionEnd tail)
    (hexponent : takeExponent tail = some (exponent, rest)) :
    parseUnsigned (whole ++ (fractionText fraction ++ tail))
      = some ((Nat.ofDigitChars 10 (whole ++ fraction) 0 : ℚ) * 10 ^ (exponent - fraction.length),
        rest) := by
  have hlead : ¬ (whole = [] ∨ whole.head? = some '0' ∧ 1 < whole.length) := by
    rintro (hnil | ⟨hhead, hlong⟩)
    · exact hne hnil
    · rw [hzero hhead] at hlong
      exact absurd hlong (by decide)
  unfold parseUnsigned
  simp only [takeWhile_digits hwhole (noDigit_fractionText htail),
    dropWhile_digits hwhole (noDigit_fractionText htail), if_neg hlead,
    takeFraction_fractionText hfraction htail, Option.bind_eq_bind, Option.bind_some, hexponent]
  rfl

/-! ## Numbers -/

/-- Digits of a positive number begin with no zero, and there are some. -/
theorem head?_shownDigits {q : ℚ} (hpos : 0 < q) (h : Decimal q) :
    ∃ c rest, shownDigits q = c :: rest ∧ c ≠ '0' := by
  have hhead := head?_toDigits (units_pos hpos h)
  have hall := trimZeros_append (Nat.toDigits 10 (units q))
  cases hdigits : shownDigits q with
  | nil =>
    unfold shownDigits at hdigits
    rw [hdigits, List.nil_append, List.length_nil, Nat.sub_zero] at hall
    rw [← hall, List.head?_replicate, if_neg (List.length_pos_iff.mpr Nat.toDigits_ne_nil).ne']
      at hhead
    exact absurd rfl hhead
  | cons c rest =>
    refine ⟨c, rest, rfl, ?_⟩
    rintro rfl
    unfold shownDigits at hdigits
    rw [hdigits, List.cons_append] at hall
    rw [← hall, List.head?_cons] at hhead
    exact absurd rfl hhead

/-- What a positive number is written with: the digits of a whole part, a
fraction and the text of an exponent. -/
structure Parts (q : ℚ) (whole fraction tail : List Char) (exponent : ℤ) : Prop where
  /-- The whole part is digits. -/
  isDigit_whole : ∀ c ∈ whole, c.isDigit = true
  /-- The whole part is not empty. -/
  whole_ne_nil : whole ≠ []
  /-- A whole part that begins with a zero is that zero. -/
  whole_zero : whole.head? = some '0' → whole.length = 1
  /-- The fraction is digits. -/
  isDigit_fraction : ∀ c ∈ fraction, c.isDigit = true
  /-- There is no exponent, or it is written with its sign. -/
  tail_eq : tail = [] ∧ exponent = 0 ∨ tail = exponentText exponent
  /-- They are the text of the number. -/
  text_eq : positiveText q = whole ++ (fractionText fraction ++ tail)
  /-- They denote the number. -/
  value_eq : (Nat.ofDigitChars 10 (whole ++ fraction) 0 : ℚ) * 10 ^ (exponent - fraction.length) = q

/-- The text of a number, in the names of its digits and its point. -/
theorem positiveText_eq (q : ℚ) : positiveText q =
    if (shownDigits q).length ≤ point q ∧ point q ≤ 21 then
      shownDigits q ++ List.replicate (point q - (shownDigits q).length).toNat '0'
    else if 0 < point q ∧ point q ≤ 21 then
      (shownDigits q).take (point q).toNat ++ '.' :: (shownDigits q).drop (point q).toNat
    else if -6 < point q ∧ point q ≤ 0 then
      '0' :: '.' :: List.replicate (-point q).toNat '0' ++ shownDigits q
    else
      match shownDigits q with
      | [] => []
      | [digit] => digit :: 'e' :: (if point q ≤ 0 then '-' else '+')
          :: Nat.toDigits 10 (point q - 1).natAbs
      | digit :: rest => digit :: '.' :: rest ++ 'e' :: (if point q ≤ 0 then '-' else '+')
          :: Nat.toDigits 10 (point q - 1).natAbs :=
  rfl

/-- A number that is whole, and not too long, is written with no point. -/
theorem parts_whole {q : ℚ} (hpos : 0 < q) (h : Decimal q)
    (hpoint : (shownDigits q).length ≤ point q ∧ point q ≤ 21) :
    Parts q (shownDigits q ++ List.replicate (point q - (shownDigits q).length).toNat '0') [] [] 0
    where
  isDigit_whole := by
    intro c hc
    obtain hc | hc := List.mem_append.mp hc
    · exact isDigit_shownDigits c hc
    · rw [(List.mem_replicate.mp hc).2]
      decide
  whole_ne_nil := by
    obtain ⟨c, rest, hdigits, -⟩ := head?_shownDigits hpos h
    rw [hdigits]
    exact List.cons_ne_nil _ _
  whole_zero := by
    obtain ⟨c, rest, hdigits, hzero⟩ := head?_shownDigits hpos h
    rw [hdigits]
    exact fun heq => absurd (Option.some.inj heq) hzero
  isDigit_fraction := by simp
  tail_eq := Or.inl ⟨rfl, rfl⟩
  text_eq := by
    rw [positiveText_eq, if_pos hpoint]
    exact (List.append_nil _).symm
  value_eq := by
    have hexponent : point q - (shownDigits q).length
        = ((point q - (shownDigits q).length).toNat : ℤ) := by omega
    rw [List.append_nil, Nat.ofDigitChars_append, Nat.ofDigitChars_replicate_zero]
    refine Eq.trans ?_ (digits_value hpos h)
    rw [hexponent, zpow_natCast, List.length_nil, Nat.cast_zero, sub_zero, zpow_zero, mul_one,
      Nat.cast_mul, Nat.cast_pow, Nat.cast_ofNat, mul_comm, ← hexponent]

/-- A number with its point among its digits. -/
theorem parts_point {q : ℚ} (hpos : 0 < q) (h : Decimal q)
    (hpoint : 0 < point q ∧ point q ≤ 21) (hlong : point q < (shownDigits q).length) :
    Parts q ((shownDigits q).take (point q).toNat) ((shownDigits q).drop (point q).toNat) [] 0
    where
  isDigit_whole := fun c hc => isDigit_shownDigits c (List.mem_of_mem_take hc)
  whole_ne_nil := by
    rw [← List.length_pos_iff, List.length_take]
    omega
  whole_zero := by
    obtain ⟨c, rest, hdigits, hzero⟩ := head?_shownDigits hpos h
    obtain ⟨n, hn⟩ : ∃ n, (point q).toNat = n + 1 := ⟨(point q).toNat - 1, by omega⟩
    rw [hdigits, hn, List.take_succ_cons]
    exact fun heq => absurd (Option.some.inj heq) hzero
  isDigit_fraction := fun c hc => isDigit_shownDigits c (List.mem_of_mem_drop hc)
  tail_eq := Or.inl ⟨rfl, rfl⟩
  text_eq := by
    have hne : (shownDigits q).drop (point q).toNat ≠ [] := by
      rw [← List.length_pos_iff, List.length_drop]
      omega
    rw [positiveText_eq, if_neg (by omega), if_pos hpoint, fractionText, if_neg hne,
      List.append_nil]
  value_eq := by
    have hexponent : (0 : ℤ) - ((shownDigits q).drop (point q).toNat).length
        = point q - (shownDigits q).length := by
      rw [List.length_drop]
      omega
    rw [List.take_append_drop, hexponent]
    exact digits_value hpos h

theorem isDigit_zero : ∀ c ∈ ['0'], c.isDigit = true := by
  intro c hc
  rw [List.mem_singleton.mp hc]
  rfl

/-- A number below one is written after zeros. -/
theorem parts_zeros {q : ℚ} (hpos : 0 < q) (h : Decimal q)
    (hpoint : -6 < point q ∧ point q ≤ 0) :
    Parts q ['0'] (List.replicate (-point q).toNat '0' ++ shownDigits q) [] 0 where
  isDigit_whole := isDigit_zero
  whole_ne_nil := List.cons_ne_nil _ _
  whole_zero := fun _ => rfl
  isDigit_fraction := by
    intro c hc
    obtain hc | hc := List.mem_append.mp hc
    · rw [(List.mem_replicate.mp hc).2]
      decide
    · exact isDigit_shownDigits c hc
  tail_eq := Or.inl ⟨rfl, rfl⟩
  text_eq := by
    obtain ⟨c, rest, hdigits, -⟩ := head?_shownDigits hpos h
    have hlength : 0 < (shownDigits q).length := by rw [hdigits]; exact Nat.succ_pos _
    have hne : List.replicate (-point q).toNat '0' ++ shownDigits q ≠ [] := by
      rw [← List.length_pos_iff, List.length_append]
      omega
    rw [positiveText_eq, if_neg (by omega), if_neg (by omega), if_pos hpoint, fractionText,
      if_neg hne, List.append_nil]
    rfl
  value_eq := by
    have hexponent : (0 : ℤ) - (List.replicate (-point q).toNat '0' ++ shownDigits q).length
        = point q - (shownDigits q).length := by
      rw [List.length_append, List.length_replicate]
      omega
    have hdigits : Nat.ofDigitChars 10 (['0'] ++ (List.replicate (-point q).toNat '0'
        ++ shownDigits q)) 0 = Nat.ofDigitChars 10 (shownDigits q) 0 := by
      rw [Nat.ofDigitChars_append, Nat.ofDigitChars_append, Nat.ofDigitChars_replicate_zero]
      rfl
    rw [hexponent, hdigits]
    exact digits_value hpos h

/-- A number far from its point is written with an exponent. -/
theorem parts_exponent {q : ℚ} (hpos : 0 < q) (h : Decimal q)
    (hpoint : ¬ (point q ≤ 21 ∧ -6 < point q)) {digit : Char} {rest : List Char}
    (hdigits : shownDigits q = digit :: rest) :
    Parts q [digit] rest (exponentText (point q - 1)) (point q - 1) where
  isDigit_whole := by
    intro c hc
    refine isDigit_shownDigits (q := q) c ?_
    rw [hdigits, List.mem_singleton.mp hc]
    exact List.mem_cons_self
  whole_ne_nil := List.cons_ne_nil _ _
  whole_zero := fun _ => rfl
  isDigit_fraction := by
    intro c hc
    refine isDigit_shownDigits (q := q) c ?_
    rw [hdigits]
    exact List.mem_cons_of_mem _ hc
  tail_eq := Or.inr rfl
  text_eq := by
    have hsign : (if point q - 1 < 0 then '-' else '+') = if point q ≤ 0 then '-' else '+' :=
      if_congr (by omega) rfl rfl
    have hlength : 0 < (shownDigits q).length := by rw [hdigits]; exact Nat.succ_pos _
    rw [positiveText_eq, if_neg (by omega), if_neg (by omega), if_neg (by omega), hdigits,
      exponentText, hsign, fractionText]
    cases rest with
    | nil => rfl
    | cons c rest => rfl
  value_eq := by
    have hexponent : point q - 1 - rest.length = point q - (shownDigits q).length := by
      rw [hdigits, List.length_cons]
      omega
    rw [List.singleton_append, ← hdigits, hexponent]
    exact digits_value hpos h

/-- **Every positive finite decimal is written in parts.** -/
theorem exists_parts {q : ℚ} (hpos : 0 < q) (h : Decimal q) :
    ∃ whole fraction tail exponent, Parts q whole fraction tail exponent := by
  by_cases hwhole : (shownDigits q).length ≤ point q ∧ point q ≤ 21
  · exact ⟨_, _, _, _, parts_whole hpos h hwhole⟩
  by_cases hpoint : 0 < point q ∧ point q ≤ 21
  · exact ⟨_, _, _, _, parts_point hpos h hpoint (by omega)⟩
  by_cases hzeros : -6 < point q ∧ point q ≤ 0
  · exact ⟨_, _, _, _, parts_zeros hpos h hzeros⟩
  · obtain ⟨digit, rest, hdigits, -⟩ := head?_shownDigits hpos h
    exact ⟨_, _, _, _, parts_exponent hpos h (by omega) hdigits⟩

/-- **A positive number is read back.** -/
theorem parseUnsigned_positiveText {q : ℚ} (hpos : 0 < q) (h : Decimal q) {rest : List Char}
    (hrest : NumberEnd rest) : parseUnsigned (positiveText q ++ rest) = some (q, rest) := by
  obtain ⟨whole, fraction, tail, exponent, hparts⟩ := exists_parts hpos h
  have htail :
      FractionEnd (tail ++ rest) ∧ takeExponent (tail ++ rest) = some (exponent, rest) := by
    obtain ⟨rfl, rfl⟩ | rfl := hparts.tail_eq
    · exact ⟨hrest.fractionEnd, takeExponent_end hrest⟩
    · exact ⟨exponentText_fractionEnd exponent rest, takeExponent_exponentText exponent hrest⟩
  have hread := parseUnsigned_parts hparts.isDigit_whole hparts.whole_ne_nil hparts.whole_zero
    hparts.isDigit_fraction htail.1 htail.2
  rw [hparts.value_eq] at hread
  rw [hparts.text_eq, List.append_assoc, List.append_assoc]
  exact hread

/-- A sign or a digit. -/
def BeginsNumber (c : Char) : Prop := c = '-' ∨ c.isDigit = true

/-- A positive number begins with a digit. -/
theorem positiveText_begins {q : ℚ} (hpos : 0 < q) (h : Decimal q) :
    ∃ c rest, positiveText q = c :: rest ∧ c.isDigit = true := by
  obtain ⟨whole, fraction, tail, exponent, hparts⟩ := exists_parts hpos h
  cases hwhole : whole with
  | nil => exact absurd hwhole hparts.whole_ne_nil
  | cons c digits =>
    refine ⟨c, digits ++ (fractionText fraction ++ tail), ?_, hparts.isDigit_whole c ?_⟩
    · rw [hparts.text_eq, hwhole]
      rfl
    · rw [hwhole]
      exact List.mem_cons_self

/-- A number begins with a sign or a digit. -/
theorem numberText_begins {q : ℚ} (h : Decimal q) :
    ∃ c rest, numberText q = c :: rest ∧ BeginsNumber c := by
  unfold numberText
  split_ifs with hzero hneg
  · exact ⟨'0', [], rfl, Or.inr (by decide)⟩
  · exact ⟨'-', _, rfl, Or.inl rfl⟩
  · have hpos : 0 < q := lt_of_le_of_ne (not_lt.mp hneg) (Ne.symm hzero)
    obtain ⟨c, rest, htext, hdigit⟩ := positiveText_begins hpos h
    exact ⟨c, rest, htext, Or.inr hdigit⟩

/-- Zero is read back. -/
theorem parseUnsigned_zero {rest : List Char} (hrest : NumberEnd rest) :
    parseUnsigned ('0' :: rest) = some (0, rest) := by
  have hread := parseUnsigned_parts isDigit_zero (List.cons_ne_nil _ _) (fun _ => rfl)
    (show ∀ c ∈ ([] : List Char), c.isDigit = true by simp)
    hrest.fractionEnd (takeExponent_end hrest)
  rw [show Nat.ofDigitChars 10 (['0'] ++ []) 0 = 0 from rfl, Nat.cast_zero, zero_mul] at hread
  exact hread

/-- A digit is no sign. -/
theorem takeSign_digit {c : Char} (h : c.isDigit = true) (rest : List Char) :
    takeSign (c :: rest) = (false, c :: rest) := by
  rw [takeSign]
  intro _ heq
  rw [(List.cons.inj heq).1] at h
  exact absurd h (by decide)

/-- **A finite decimal is read back** from its text. -/
theorem parseNumber_numberText {q : ℚ} (h : Decimal q) {rest : List Char}
    (hrest : NumberEnd rest) : parseNumber (numberText q ++ rest) = some (q, rest) := by
  rw [parseNumber_eq]
  by_cases hzero : q = 0
  · rw [numberText, if_pos hzero, List.singleton_append, takeSign_digit (by decide),
      parseUnsigned_zero hrest, hzero]
    rfl
  by_cases hneg : q < 0
  · rw [numberText, if_neg hzero, if_pos hneg, List.cons_append, takeSign,
      parseUnsigned_positiveText (neg_pos.mpr hneg) h.neg hrest]
    show some (- -q, rest) = _
    rw [neg_neg]
  · have hpos : 0 < q := lt_of_le_of_ne (not_lt.mp hneg) (Ne.symm hzero)
    obtain ⟨c, text, htext, hdigit⟩ := positiveText_begins hpos h
    have hsign : takeSign (positiveText q ++ rest) = (false, positiveText q ++ rest) := by
      rw [htext, List.cons_append, takeSign_digit hdigit]
    rw [numberText, if_neg hzero, if_neg hneg, hsign, parseUnsigned_positiveText hpos h hrest]
    rfl

end JsonText
