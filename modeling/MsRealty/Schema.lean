import MsRealty.DraftTexts

/-!
# Schemas that read what they write

A schema reads a member of a JSON value – or nothing, where the member is missing –
and makes a value of it, or refuses. The value a schema makes is often read again by
the same schema: from a column it was stored in, or when one function hands it to
another that trusts no one. Such a schema is *stable*: what it made of a value, written
as JSON, it reads as the same.
-/

namespace Schema

variable {α β : Type*}

/-- A schema: what it makes of a member of an object, missing or not. -/
abbrev Reader (α : Type*) := Option JsonValue → Option α

/-- **A stable schema** reads what it made. -/
def Stable (read : Reader α) (write : α → JsonValue) : Prop :=
  ∀ value a, read value = some a → read (some (write a)) = some a

/-! ## Strings and numbers -/

/-- A string that `read` makes something of. -/
def string (read : String → Option α) : Reader α := fun value =>
  (value.bind JsonValue.asString?).bind read

/-- A string with a property. -/
def stringWhere (p : String → Bool) : Reader String :=
  string (fun s => if p s then some s else none)

/-- `z.literal`. -/
def literal (s : String) : Reader String := stringWhere (· == s)

/-- A whole number between two bounds, within what numbers can count. -/
def integer (least most : ℤ) : Reader ℤ
  | some (.num q) =>
    if q.den = 1 ∧ least ≤ q.num ∧ q.num ≤ most ∧ q.num.natAbs ≤ Inventory.maxSafeInteger then
      some q.num
    else none
  | _ => none

theorem stable_string {read : String → Option α} {write : α → String}
    (h : ∀ s a, read s = some a → read (write a) = some a) :
    Stable (string read) (fun a => .str (write a)) := by
  intro value a hread
  obtain ⟨s, -, hs⟩ := Option.bind_eq_some_iff.mp hread
  exact h s a hs

theorem stable_stringWhere (p : String → Bool) : Stable (stringWhere p) JsonValue.str := by
  refine stable_string (fun s a h => ?_)
  split at h
  · next hp =>
    obtain rfl := Option.some.inj h
    exact if_pos hp
  · cases h

theorem literal_str (s : String) : literal s (some (.str s)) = some s :=
  if_pos (beq_self_eq_true s)

theorem stable_integer (least most : ℤ) :
    Stable (integer least most) (fun n => .num (n : ℚ)) := by
  intro value n h
  unfold integer at h
  split at h
  · split at h
    · next hq =>
      rw [← Option.some.inj h]
      exact if_pos ⟨rfl, hq.2⟩
    · cases h
  · cases h

theorem stable_trimmed (least most : ℕ) : Stable (Inventory.trimmed least most) JsonValue.str :=
  fun _ _ h => Inventory.trimmed_str (Inventory.trimmed_eq_some h)

/-! ## Null and arrays -/

/-- `nullable()`. -/
def nullable (read : Reader α) : Reader (Option α)
  | some .null => some none
  | value => (read value).map some

/-- What may be null, as JSON. -/
def writeNullable (write : α → JsonValue) : Option α → JsonValue
  | some a => write a
  | none => .null

theorem nullable_of_ne {read : Reader α} {value : Option JsonValue} (h : value ≠ some .null) :
    nullable read value = (read value).map some := by
  unfold nullable
  split
  · exact absurd rfl h
  · rfl

theorem Stable.nullable {read : Reader α} {write : α → JsonValue} (h : Stable read write)
    (hnull : ∀ a, write a ≠ .null) : Stable (nullable read) (writeNullable write) := by
  intro value a hread
  cases a with
  | none => rfl
  | some a =>
    have hvalue : value ≠ some .null := by
      rintro rfl
      cases hread
    rw [nullable_of_ne hvalue] at hread
    obtain ⟨a', ha', heq⟩ := Option.map_eq_some_iff.mp hread
    obtain rfl := Option.some.inj heq
    show Schema.nullable read (some (write a')) = _
    rw [nullable_of_ne (fun heq => hnull a' (Option.some.inj heq)), h value a' ha']
    rfl

/-- `z.array`. -/
def array (read : Reader α) : Reader (List α)
  | some (.arr items) => items.mapM (fun item => read (some item))
  | _ => none

/-- A list as JSON. -/
def writeArray (write : α → JsonValue) (items : List α) : JsonValue := .arr (items.map write)

theorem mapM_written {read : Reader α} {write : α → JsonValue} {items : List α}
    (h : ∀ a ∈ items, read (some (write a)) = some a) :
    (items.map write).mapM (fun item => read (some item)) = some items := by
  induction items with
  | nil => rfl
  | cons a items ih =>
    obtain ⟨ha, hitems⟩ := List.forall_mem_cons.mp h
    rw [List.map_cons, List.mapM_cons, ha, ih hitems]
    rfl

theorem exists_of_mem_mapM {f : α → Option β} {items : List α} {read : List β}
    (h : items.mapM f = some read) : ∀ b ∈ read, ∃ a ∈ items, f a = some b := by
  induction items generalizing read with
  | nil =>
    obtain rfl := Option.some.inj h
    exact fun b hb => absurd hb List.not_mem_nil
  | cons a items ih =>
    rw [List.mapM_cons] at h
    obtain ⟨b, hb, h⟩ := Option.bind_eq_some_iff.mp h
    obtain ⟨bs, hbs, h⟩ := Option.bind_eq_some_iff.mp h
    obtain rfl := Option.some.inj h
    intro c hc
    obtain rfl | hc := List.mem_cons.mp hc
    · exact ⟨a, List.mem_cons_self, hb⟩
    · obtain ⟨a', ha', hc⟩ := ih hbs c hc
      exact ⟨a', List.mem_cons_of_mem a ha', hc⟩

theorem Stable.array {read : Reader α} {write : α → JsonValue} (h : Stable read write) :
    Stable (array read) (writeArray write) := by
  intro value items hread
  unfold Schema.array at hread
  split at hread
  · refine mapM_written (fun a ha => ?_)
    obtain ⟨item, -, hitem⟩ := exists_of_mem_mapM hread a ha
    exact h _ a hitem
  · cases hread

/-- A schema and a condition on what it makes, which may carry a proof of it. -/
def refined (read : Reader α) (check : α → Option β) : Reader β := fun value =>
  (read value).bind check

theorem Stable.refined {read : Reader α} {write : α → JsonValue} (h : Stable read write)
    {check : α → Option β} (back : β → α) (hback : ∀ a b, check a = some b → back b = a) :
    Stable (refined read check) (fun b => write (back b)) := by
  intro value b hread
  obtain ⟨a, ha, hb⟩ := Option.bind_eq_some_iff.mp hread
  show (read (some (write (back b)))).bind check = some b
  rw [hback a b hb, h value a ha, Option.bind_some, hb]

end Schema
