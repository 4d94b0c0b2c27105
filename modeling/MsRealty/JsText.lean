import Mathlib.Data.Bool.AllAny
import MsRealty.CanonicalText

/-!
# The texts and numbers of the source

A text of the source is code units. Iterating over it takes its code points: a
pair of surrogates is one, and so is every other unit, a surrogate that stands
alone included. Encoded in UTF-8, a code point takes up to four octets, and such
a surrogate the three of the replacement character.

A number is one of its format, or a zero with a sign, an infinity or no number.
-/

namespace CanonicalText

open Doubles

/-! ## Code points -/

/-- **The code points of a text**, as a `for … of` loop takes them. -/
def codePoints : JsString → List JsString
  | [] => []
  | [u] => [[u]]
  | u :: v :: rest =>
    if isHighSurrogate u && isLowSurrogate v then [u, v] :: codePoints rest
    else [u] :: codePoints (v :: rest)

/-- The code points make up the text. -/
@[simp] theorem flatten_codePoints (s : JsString) : (codePoints s).flatten = s := by
  induction s using codePoints.induct with
  | case1 => rfl
  | case2 u => rfl
  | case3 u v rest hpair ih => rw [codePoints, if_pos hpair, List.flatten_cons, ih]; rfl
  | case4 u v rest hpair ih => rw [codePoints, if_neg hpair, List.flatten_cons, ih]; rfl

/-- A unit that begins no pair is a code point. -/
theorem codePoints_cons {u : UInt16} (h : isHighSurrogate u = false) (s : JsString) :
    codePoints (u :: s) = [u] :: codePoints s := by
  cases s with
  | nil => rfl
  | cons v s =>
    rw [codePoints, if_neg]
    rw [h]
    exact Bool.false_ne_true

/-- Without first halves of pairs, every unit is a code point. -/
theorem codePoints_of_not_high {s : JsString} (h : ∀ u ∈ s, isHighSurrogate u = false) :
    codePoints s = s.map ([·]) := by
  induction s with
  | nil => rfl
  | cons u s ih =>
    rw [codePoints_cons (h u List.mem_cons_self), ih fun v hv => h v (List.mem_cons_of_mem _ hv)]
    rfl

/-- A code point is its only code point. -/
theorem codePoints_of_mem {s point : JsString} (h : point ∈ codePoints s) :
    codePoints point = [point] := by
  induction s using codePoints.induct with
  | case1 => cases h
  | case2 u => rw [List.mem_singleton.mp h]; rfl
  | case3 u v rest hpair ih =>
    rw [codePoints, if_pos hpair] at h
    rcases List.mem_cons.mp h with rfl | h
    · rw [codePoints, if_pos hpair]
      rfl
    · exact ih h
  | case4 u v rest hpair ih =>
    rw [codePoints, if_neg hpair] at h
    rcases List.mem_cons.mp h with rfl | h
    · rfl
    · exact ih h

/-! ## Octets -/

/-- The octets of a code point in UTF-8. -/
def pointOctets : JsString → ℕ
  | [u] => if u < 0x80 then 1 else if u < 0x800 then 2 else 3
  | _ => 4

/-- **The octets of a text**, as `TextEncoder` writes it. -/
def octets (s : JsString) : ℕ := ((codePoints s).map pointOctets).sum

theorem pointOctets_le (point : JsString) : pointOctets point ≤ 4 := by
  unfold pointOctets
  split
  · split_ifs <;> decide
  · exact le_rfl

/-! ## Numbers -/

/-- **A number of the source.** -/
inductive JsNumber where
  | finite (x : Double)
  | negativeZero
  | nan
  | infinity (negative : Bool)

/-- Zero. -/
def zero : Double := ⟨0, by rw [abs_zero, rounded_zero], by rw [abs_zero]; positivity⟩

/-- A number as JSON: `null` if it is not finite, and without the sign of a zero. -/
def JsNumber.json : JsNumber → JsValue
  | .finite x => .num x
  | .negativeZero => .num zero
  | .nan => .null
  | .infinity _ => .null

/-- **The text of a number**, `Number::toString`. -/
def JsNumber.text : JsNumber → JsString
  | .finite x => x.text.map unit
  | .negativeZero => units "0"
  | .nan => units "NaN"
  | .infinity negative => units (if negative then "-Infinity" else "Infinity")

end CanonicalText
