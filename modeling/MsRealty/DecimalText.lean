import Mathlib.Algebra.Group.Nat.Defs
import Mathlib.Data.List.Basic

/-!
# Numbers as decimal text

The digits of natural numbers, padded with zeros to a width. Reading the
digits back gives the number, so a text determines the number it writes.
-/

namespace DecimalText

/-- The decimal digits of `n`, with zeros in front up to the width `w`. -/
def zeroPad (w n : ℕ) : List Char :=
  List.replicate (w - (Nat.toDigits 10 n).length) '0' ++ Nat.toDigits 10 n

/-- **Reading the digits gives the number back.** -/
@[simp] theorem ofDigitChars_zeroPad (w n : ℕ) :
    Nat.ofDigitChars 10 (zeroPad w n) 0 = n := by
  unfold zeroPad
  rw [Nat.ofDigitChars_append, Nat.ofDigitChars_replicate_zero, Nat.mul_zero,
    Nat.ofDigitChars_ten_toDigits]

theorem zeroPad_injective (w : ℕ) : Function.Injective (zeroPad w) := by
  intro n n' h
  have hread := congrArg (fun l => Nat.ofDigitChars 10 l 0) h
  simpa using hread

/-- A number that fits the width fills it exactly. -/
theorem length_zeroPad {w n : ℕ} (hw : 0 < w) (hn : n < 10 ^ w) :
    (zeroPad w n).length = w := by
  have hle : (Nat.toDigits 10 n).length ≤ w :=
    (Nat.length_toDigits_le_iff (by omega) hw).mpr hn
  unfold zeroPad
  rw [List.length_append, List.length_replicate, Nat.sub_add_cancel hle]

/-! ## Reading digits -/

theorem isDigit_of_mem_zeroPad {w n : ℕ} {c : Char} (h : c ∈ zeroPad w n) :
    c.isDigit = true := by
  obtain hzero | hdigit := List.mem_append.mp h
  · rw [List.eq_of_mem_replicate hzero]
    rfl
  · exact Nat.isDigit_of_mem_toDigits (by decide) (by decide) hdigit

/-- A text does not begin with a digit. -/
def NoDigit (rest : List Char) : Prop := ∀ c ∈ rest.head?, c.isDigit = false

/-- Digits before a text that does not begin with one are all the digits. -/
theorem takeWhile_digits {digits rest : List Char} (h : ∀ c ∈ digits, c.isDigit = true)
    (hrest : NoDigit rest) : (digits ++ rest).takeWhile Char.isDigit = digits := by
  rw [List.takeWhile_append_of_pos h]
  cases rest with
  | nil => exact List.append_nil _
  | cons c rest =>
    rw [List.takeWhile_cons_of_neg (by simp [hrest c rfl]), List.append_nil]

/-- And what follows them is the text. -/
theorem dropWhile_digits {digits rest : List Char} (h : ∀ c ∈ digits, c.isDigit = true)
    (hrest : NoDigit rest) : (digits ++ rest).dropWhile Char.isDigit = rest := by
  rw [List.dropWhile_append_of_pos h]
  cases rest with
  | nil => rfl
  | cons c rest => rw [List.dropWhile_cons_of_neg (by simp [hrest c rfl])]

/-- The digits of a positive number do not begin with a zero. -/
theorem head?_toDigits {n : ℕ} (hn : 0 < n) : (Nat.toDigits 10 n).head? ≠ some '0' := by
  induction n using Nat.strongRecOn with
  | _ n ih =>
    rw [Nat.toDigits_eq_if (by decide)]
    split_ifs with hlt
    · have hall : ∀ m < 10, 0 < m → [m.digitChar].head? ≠ some '0' := by decide
      exact hall n hlt hn
    · have hne := Nat.toDigits_ne_nil (b := 10) (n := n / 10)
      rw [List.head?_append_of_ne_nil _ hne]
      exact ih (n / 10) (by omega) (by omega)

end DecimalText
