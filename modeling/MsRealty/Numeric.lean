import Mathlib.Tactic.Ring
import MsRealty.DecimalText

/-!
# Exact decimals and their text

A decimal is a whole number of units of its last place. Its text shows every
place, so the text and the decimal determine each other: a decimal is read
back from its text with its scale (`ofText?_text`), and no precision is lost
on the way.
-/

/-- **A decimal**: `unscaled` units of the place `scale` after the point. -/
structure Numeric where
  unscaled : ℤ
  scale : ℕ

namespace Numeric

open DecimalText

/-- The number a decimal is. -/
def value (n : Numeric) : ℚ := n.unscaled / 10 ^ n.scale

/-- A whole number as a decimal. -/
def ofInt (n : ℤ) : Numeric := ⟨n, 0⟩

instance : Neg Numeric := ⟨fun n => ⟨-n.unscaled, n.scale⟩⟩

/-- The digits after the point, with the point. -/
def fractionText (n : Numeric) : List Char :=
  if n.scale = 0 then []
  else '.' :: zeroPad n.scale (n.unscaled.natAbs % 10 ^ n.scale)

/-- **The text of a decimal.** -/
def text (n : Numeric) : List Char :=
  (if n.unscaled < 0 then ['-'] else [])
    ++ (Nat.toDigits 10 (n.unscaled.natAbs / 10 ^ n.scale) ++ n.fractionText)

/-! ## Reading -/

/-- Reads a sign. -/
def takeSign : List Char → Bool × List Char
  | '-' :: rest => (true, rest)
  | rest => (false, rest)

/-- The digits after the point of a text that ends with them, or none if
nothing follows the whole part. -/
def fraction? : List Char → Option (List Char)
  | [] => some []
  | '.' :: digits => if digits ≠ [] ∧ digits.all Char.isDigit then some digits else none
  | _ => none

/-- The sign, the whole part and the fraction of a text of the form
`-?\d+(\.\d+)?`. -/
def parts? (text : List Char) : Option (Bool × List Char × List Char) := do
  let (negative, rest) := takeSign text
  let whole := rest.takeWhile Char.isDigit
  let fraction ← fraction? (rest.dropWhile Char.isDigit)
  if whole = [] then none else some (negative, whole, fraction)

/-- Whether a text has the form `-?\d+(\.\d+)?`. -/
def isText (text : List Char) : Bool := (parts? text).isSome

/-- **The decimal of a text** of that form. -/
def ofText? (text : List Char) : Option Numeric :=
  (parts? text).map (fun (negative, whole, fraction) =>
    let digits : ℤ := Nat.ofDigitChars 10 (whole ++ fraction) 0
    ⟨if negative then -digits else digits, fraction.length⟩)

/-! ## Round trip -/

theorem noDigit_fractionText (n : Numeric) : NoDigit n.fractionText := by
  unfold fractionText
  split_ifs
  · exact fun _ h => nomatch h
  · rintro c ⟨⟩
    decide

/-- The digits after the point. -/
def fractionDigits (n : Numeric) : List Char :=
  if n.scale = 0 then [] else zeroPad n.scale (n.unscaled.natAbs % 10 ^ n.scale)

theorem length_fractionDigits (n : Numeric) : n.fractionDigits.length = n.scale := by
  unfold fractionDigits
  split_ifs with h
  · exact h.symm
  · exact length_zeroPad (Nat.pos_of_ne_zero h) (Nat.mod_lt _ (Nat.pow_pos (by decide)))

theorem fraction?_fractionText (n : Numeric) :
    fraction? n.fractionText = some n.fractionDigits := by
  have hlength := n.length_fractionDigits
  unfold fractionText fractionDigits at *
  split_ifs at * with h
  · rfl
  · refine if_pos ⟨fun hnil => h ?_, List.all_eq_true.mpr (fun c hc => isDigit_of_mem_zeroPad hc)⟩
    rw [hnil] at hlength
    exact hlength.symm

theorem takeSign_text (n : Numeric) : takeSign n.text = (decide (n.unscaled < 0),
    Nat.toDigits 10 (n.unscaled.natAbs / 10 ^ n.scale) ++ n.fractionText) := by
  unfold text
  by_cases hneg : n.unscaled < 0
  · rw [if_pos hneg, decide_eq_true hneg]
    rfl
  · rw [if_neg hneg, decide_eq_false hneg, List.nil_append]
    cases hdigits : Nat.toDigits 10 (n.unscaled.natAbs / 10 ^ n.scale) with
    | nil => exact absurd hdigits Nat.toDigits_ne_nil
    | cons c digits =>
      have hc : c.isDigit = true := Nat.isDigit_of_mem_toDigits (b := 10) (by decide) (by decide)
        (by rw [hdigits]; exact List.mem_cons_self)
      rw [List.cons_append, takeSign]
      rintro _ ⟨⟩
      cases hc

/-- **A text has its sign, its whole part and its fraction.** -/
theorem parts?_text (n : Numeric) : parts? n.text = some (decide (n.unscaled < 0),
    Nat.toDigits 10 (n.unscaled.natAbs / 10 ^ n.scale), n.fractionDigits) := by
  have hdigits : ∀ c ∈ Nat.toDigits 10 (n.unscaled.natAbs / 10 ^ n.scale), c.isDigit = true :=
    fun c hc => Nat.isDigit_of_mem_toDigits (by decide) (by decide) hc
  unfold parts?
  simp only [takeSign_text, takeWhile_digits hdigits n.noDigit_fractionText,
    dropWhile_digits hdigits n.noDigit_fractionText, fraction?_fractionText,
    Option.bind_eq_bind, Option.bind_some, Nat.toDigits_ne_nil, if_false]

/-- The digits of the whole part and the fraction are those of the units. -/
theorem ofDigitChars_text (n : Numeric) :
    Nat.ofDigitChars 10 (Nat.toDigits 10 (n.unscaled.natAbs / 10 ^ n.scale)
      ++ n.fractionDigits) 0 = n.unscaled.natAbs := by
  rw [Nat.ofDigitChars_append, Nat.ofDigitChars_eq_ofDigitChars_zero,
    Nat.ofDigitChars_ten_toDigits, length_fractionDigits]
  have hfraction : Nat.ofDigitChars 10 n.fractionDigits 0 = n.unscaled.natAbs % 10 ^ n.scale := by
    unfold fractionDigits
    split_ifs with h
    · rw [h, Nat.pow_zero, Nat.mod_one]
      rfl
    · exact ofDigitChars_zeroPad _ _
  rw [hfraction, Nat.div_add_mod]

/-- **A decimal is read back from its text**, with its scale. -/
theorem ofText?_text (n : Numeric) : ofText? n.text = some n := by
  rw [ofText?, parts?_text, Option.map_some]
  dsimp only
  rw [ofDigitChars_text, length_fractionDigits]
  refine congrArg some (congrArg (fun u => Numeric.mk u n.scale) ?_)
  by_cases hneg : n.unscaled < 0
  · rw [decide_eq_true hneg, if_pos rfl]
    omega
  · rw [decide_eq_false hneg, if_neg Bool.false_ne_true]
    omega

theorem isText_text (n : Numeric) : isText n.text = true := by
  rw [isText, parts?_text]
  rfl

/-! ## Characters and length -/

/-- The text of a decimal consists of digits, sign and point. -/
theorem mem_text {n : Numeric} {c : Char} (h : c ∈ n.text) :
    c = '-' ∨ c = '.' ∨ c.isDigit = true := by
  unfold text fractionText at h
  obtain hsign | hwhole | hfraction := by simpa only [List.mem_append] using h
  · split_ifs at hsign
    · exact Or.inl (List.mem_singleton.mp hsign)
    · cases hsign
  · exact Or.inr (Or.inr (Nat.isDigit_of_mem_toDigits (by decide) (by decide) hwhole))
  · split_ifs at hfraction
    · cases hfraction
    · obtain rfl | hdigit := List.mem_cons.mp hfraction
      · exact Or.inr (Or.inl rfl)
      · exact Or.inr (Or.inr (isDigit_of_mem_zeroPad hdigit))

/-- A decimal with at most `w` digits before the point has a text of at most
`w + scale + 2` characters. -/
theorem length_text_le {n : Numeric} {w : ℕ} (hw : 0 < w)
    (h : n.unscaled.natAbs < 10 ^ (w + n.scale)) : n.text.length ≤ w + n.scale + 2 := by
  have hwhole : (Nat.toDigits 10 (n.unscaled.natAbs / 10 ^ n.scale)).length ≤ w := by
    refine (Nat.length_toDigits_le_iff (by decide) hw).mpr ?_
    rw [Nat.div_lt_iff_lt_mul (Nat.pow_pos (by decide)), ← Nat.pow_add]
    exact h
  have hfraction : n.fractionText.length ≤ n.scale + 1 := by
    have hlength := n.length_fractionDigits
    unfold fractionText fractionDigits at *
    split_ifs at * <;> simp_all
  unfold text
  rw [List.length_append, List.length_append]
  have hsign : (if n.unscaled < 0 then ['-'] else []).length ≤ 1 := by split_ifs <;> decide
  omega

end Numeric
