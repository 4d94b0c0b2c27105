import Mathlib.Data.Rat.Defs

/-!
# JSON values

The data a JSON column holds and a command returns: what `JSON.parse` can
build. An object is its members in order; numbers are the rationals they
denote, so the two zeros are one number, as they are for `JSON.stringify`.

`JsonValue.get?` is the optional member access `value?.key` of the source: it
answers `none` – the source's `undefined` – for a missing member and for
everything that is not an object.
-/

/-- **A JSON value.** -/
inductive JsonValue where
  /-- `null`. -/
  | null
  /-- `true` or `false`. -/
  | bool (b : Bool)
  /-- A finite number. -/
  | num (n : ℚ)
  /-- A string. -/
  | str (s : String)
  /-- An array. -/
  | arr (items : List JsonValue)
  /-- An object: its members, in order. -/
  | obj (members : List (String × JsonValue))

namespace JsonValue

/-- The member `key` of an object: the last one of that name wins. -/
def get? (key : String) : JsonValue → Option JsonValue
  | .obj members => (members.reverse.find? (fun m => m.fst == key)).map Prod.snd
  | _ => none

/-- The string a string value holds. -/
def asString? : JsonValue → Option String
  | .str s => some s
  | _ => none

/-- Whether the value counts as true in a condition. -/
def truthy : JsonValue → Bool
  | .null => false
  | .bool b => b
  | .num n => n ≠ 0
  | .str s => s ≠ ""
  | .arr _ => true
  | .obj _ => true

@[simp] theorem asString?_str (s : String) : asString? (.str s) = some s := rfl

@[simp] theorem truthy_obj (members : List (String × JsonValue)) :
    truthy (.obj members) = true := rfl

end JsonValue
