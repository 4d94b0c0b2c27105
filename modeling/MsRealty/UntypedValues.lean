import MsRealty.CanonicalText

/-!
# Values of no known type

Values that the source has as `unknown`, or reads out of a JSON text under a type that nothing
has checked, and the tests that it makes on them.
-/

namespace Untyped

open CanonicalText

/-! ## Texts -/

/-- The code units of a text. -/
def toUnits (text : List Char) : JsString := (Utf16.encode text).map UInt16.ofNat

/-- The text of code units, in which a lone surrogate is replaced. -/
def ofUnits (s : JsString) : List Char := Utf16.decode (s.map UInt16.toNat)

theorem lt_of_mem_encode {text : List Char} {n : ℕ} (h : n ∈ Utf16.encode text) : n < 2 ^ 16 := by
  obtain ⟨c, -, hc⟩ := List.mem_flatMap.mp h
  have hbounds := Char.toNat_bounds c
  rw [Utf16.encodeChar] at hc
  split at hc
  · rw [List.mem_singleton.mp hc]
    omega
  · simp only [List.mem_cons, List.not_mem_nil, or_false] at hc
    omega

/-- **A text is read back from its code units.** -/
theorem ofUnits_toUnits (text : List Char) : ofUnits (toUnits text) = text := by
  have hunits : (toUnits text).map UInt16.toNat = Utf16.encode text := by
    rw [toUnits, List.map_map]
    refine (List.map_congr_left fun n hn => ?_).trans (List.map_id _)
    exact UInt16.toNat_ofNat_of_lt' (lt_of_mem_encode hn)
  rw [ofUnits, hunits, Utf16.decode_encode]

theorem toUnits_inj {a b : List Char} : toUnits a = toUnits b ↔ a = b :=
  ⟨fun h => by rw [← ofUnits_toUnits a, h, ofUnits_toUnits], congrArg toUnits⟩

/-! ## Values -/

/-- **A value of the language.** A number that is not finite is `none`, and `other` is a value
that is no data, such as a function. -/
inductive Value where
  | undefined
  | null
  | bool (b : Bool)
  | number (x : Option ℚ)
  | string (s : JsString)
  | array (items : List Value)
  | object (members : List (JsString × Value))
  | other

/-- A member of an object. -/
def member (members : List (JsString × Value)) (name : String) : Value :=
  (members.lookup (units name)).getD .undefined

/-- The string that a value is. -/
def Value.string? : Value → Option JsString
  | .string s => some s
  | _ => none

/-- **`Number.isSafeInteger(value)`**, with the integer. -/
def Value.safeInteger? : Value → Option ℤ
  | .number (some q) => if q.den = 1 ∧ |q.num| ≤ 2 ^ 53 - 1 then some q.num else none
  | _ => none

end Untyped
