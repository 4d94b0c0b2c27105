import Mathlib.Data.List.MinMax
import Mathlib.Data.Rat.Floor
import Mathlib.Data.List.ReduceOption

/-!
# Null and three-valued conditions

What a query computes with. A column that may be null is an `Option`, and a
condition is true, false or null: a comparison with null is null, and
conjunction and disjunction follow Kleene's tables. What a `where` clause
keeps, and which branch a `case` takes, depends only on whether the condition
*holds*, and holding commutes with the connectives (`holds_conj`,
`holds_disj`, `holds_all`) – except with negation, which leaves null alone.

The last section has the numeric column types: what a column of a type
stores of a value, or that it refuses it.
-/

namespace Sql

/-- **The truth of a condition**: `none` is null. -/
abbrev Truth := Option Bool

variable {α β : Type*}

/-- Whether a condition holds: null does not. -/
def holds : Truth → Bool
  | some b => b
  | none => false

/-- A comparison, which is null if one of its sides is. -/
def compare (r : α → β → Bool) (x : Option α) (y : Option β) : Truth :=
  x.bind (fun a => y.map (r a))

/-- `x is not null`. -/
def isNotNull (x : Option α) : Truth := some x.isSome

/-- `not`: null stays null. -/
def neg (t : Truth) : Truth := t.map (!·)

/-- `and`: false if one side is, whatever the other. -/
def conj : Truth → Truth → Truth
  | some false, _ => some false
  | some true, t => t
  | none, some false => some false
  | none, _ => none

/-- `or`: true if one side is, whatever the other. -/
def disj : Truth → Truth → Truth
  | some true, _ => some true
  | some false, t => t
  | none, some true => some true
  | none, _ => none

/-- The conjunction of a list of conditions. -/
def all : List Truth → Truth := List.foldr conj (some true)

/-- `case when t then a else b end`. -/
def caseWhen (t : Truth) (a b : α) : α := if holds t then a else b

/-- `coalesce(x, d)`. -/
def coalesce (x : Option α) (d : α) : α := x.getD d

/-- `x in (…)`. -/
def isIn [DecidableEq α] (x : α) (values : List α) : Truth := some (x ∈ values)

/-- `least(…)`: null arguments are ignored. -/
def least [Min α] (values : List (Option α)) : Option α := values.reduceOption.min?

/-- `array_remove(array[…], null)`. -/
def arrayRemoveNull (values : List (Option α)) : List α := values.reduceOption

/-! ## What holds -/

@[simp] theorem holds_some (b : Bool) : holds (some b) = b := rfl

@[simp] theorem holds_none : holds none = false := rfl

@[simp] theorem compare_some (r : α → β → Bool) (a : α) (b : β) :
    compare r (some a) (some b) = some (r a b) := rfl

@[simp] theorem compare_none_left (r : α → β → Bool) (y : Option β) :
    compare r none y = none := rfl

@[simp] theorem isNotNull_some (a : α) : isNotNull (some a) = some true := rfl

@[simp] theorem isNotNull_none : isNotNull (none : Option α) = some false := rfl

@[simp] theorem neg_some (b : Bool) : neg (some b) = some (!b) := rfl

@[simp] theorem holds_conj (s t : Truth) : holds (conj s t) = (holds s && holds t) := by
  rcases s with _ | (_ | _) <;> rcases t with _ | (_ | _) <;> rfl

@[simp] theorem holds_disj (s t : Truth) : holds (disj s t) = (holds s || holds t) := by
  rcases s with _ | (_ | _) <;> rcases t with _ | (_ | _) <;> rfl

@[simp] theorem holds_compare_some_right (r : α → β → Bool) (x : Option α) (b : β) :
    holds (compare r x (some b)) = x.any (fun a => r a b) := by
  cases x <;> rfl

/-- A condition that is coalesced to false is whether it holds. -/
@[simp] theorem coalesce_false (t : Truth) : coalesce t false = holds t := by
  cases t <;> rfl

@[simp] theorem caseWhen_some (b : Bool) (x y : α) :
    caseWhen (some b) x y = if b then x else y := rfl

/-- **A conjunction holds if every condition does.** -/
@[simp] theorem holds_all (conditions : List Truth) :
    holds (all conditions) = conditions.all holds := by
  induction conditions with
  | nil => rfl
  | cons t conditions ih =>
    rw [List.all_cons, ← ih]
    exact holds_conj t (all conditions)

/-- The least of some values is their upper bound exactly if all of them are. -/
theorem least_eq_bound [LinearOrder α] {bound : α} {values : List α} (hne : values ≠ [])
    (hle : ∀ v ∈ values, v ≤ bound) :
    least (values.map some) = some bound ↔ ∀ v ∈ values, v = bound := by
  have hvalues : (values.map some).reduceOption = values := by
    induction values with
    | nil => rfl
    | cons v values ih => simp [List.reduceOption]
  unfold least
  rw [hvalues, List.min?_eq_some_iff]
  refine ⟨fun ⟨_, hmin⟩ v hv => le_antisymm (hle v hv) (hmin v hv), fun h => ?_⟩
  obtain ⟨v, hv⟩ := List.exists_mem_of_ne_nil values hne
  refine ⟨h v hv ▸ hv, fun b hb => ?_⟩
  rw [h b hb]

/-! ## Numeric columns -/

/-- Whether a whole number fits a signed column of `bits` bits. -/
def fitsSigned (bits : ℕ) (n : ℤ) : Bool := -2 ^ (bits - 1) ≤ n ∧ n < 2 ^ (bits - 1)

/-- What an `integer` column stores. -/
def integer (n : ℤ) : Option ℤ := if fitsSigned 32 n then some n else none

/-- What a `bigint` column stores. -/
def bigint (n : ℤ) : Option ℤ := if fitsSigned 64 n then some n else none

/-- Rounds to `scale` decimals, a half away from zero. -/
def roundScale (scale : ℕ) (q : ℚ) : ℚ :=
  if 0 ≤ q then ⌊q * 10 ^ scale + 1 / 2⌋ / 10 ^ scale
  else -(⌊-q * 10 ^ scale + 1 / 2⌋ / 10 ^ scale)

/-- What a `numeric(precision, scale)` column stores: the rounded value, if
its whole part fits. -/
def numeric (precision scale : ℕ) (q : ℚ) : Option ℚ :=
  if |roundScale scale q| < 10 ^ (precision - scale) then some (roundScale scale q) else none

theorem floor_add_half (n : ℤ) : ⌊(n : ℚ) + 1 / 2⌋ = n := by
  rw [Int.floor_intCast_add]
  have hhalf : ⌊(1 / 2 : ℚ)⌋ = 0 := by rw [Int.floor_eq_zero_iff]; constructor <;> norm_num
  rw [hhalf, add_zero]

/-- **A value with no more decimals than the scale is stored as it is.** -/
theorem roundScale_eq_self {scale : ℕ} {q : ℚ} (n : ℤ) (hq : q = n / 10 ^ scale) :
    roundScale scale q = q := by
  have hpow : (10 : ℚ) ^ scale ≠ 0 := pow_ne_zero _ (by norm_num)
  have hscaled : q * 10 ^ scale = n := by rw [hq, div_mul_cancel₀ _ hpow]
  have hneg : -q * 10 ^ scale = ((-n : ℤ) : ℚ) := by rw [neg_mul, hscaled]; push_cast; rfl
  unfold roundScale
  split_ifs
  · rw [hscaled, floor_add_half, hq]
  · rw [hneg, floor_add_half, hq]
    push_cast
    ring

theorem numeric_eq_some {precision scale : ℕ} {q stored : ℚ} (n : ℤ)
    (hq : q = n / 10 ^ scale) (h : numeric precision scale q = some stored) : stored = q := by
  unfold numeric at h
  split_ifs at h
  rw [← Option.some.inj h, roundScale_eq_self n hq]

theorem bigint_eq_some {n stored : ℤ} (h : bigint n = some stored) : stored = n := by
  unfold bigint at h
  split_ifs at h
  exact (Option.some.inj h).symm

theorem integer_eq_some {n stored : ℤ} (h : integer n = some stored) : stored = n := by
  unfold integer at h
  split_ifs at h
  exact (Option.some.inj h).symm

end Sql
