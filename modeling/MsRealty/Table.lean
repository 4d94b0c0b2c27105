import Mathlib.Data.List.Nodup

/-!
# Tables with a key

A database table is a list of rows in which no two rows have the same key.
The key is a function of the row, so that a composite key is a tuple of
columns. The module has the statements a transaction is made of – look up by
key, insert, upsert, update in place, delete by condition – and, for each,
which rows are there afterwards (`mem_…`) and what a lookup finds.

Updates in place come with the reason why they leave the key alone, so a
table without its uniqueness cannot be built.
-/

/-- **A table**: its rows, no two of them with the same key. -/
structure Table (κ ρ : Type*) (key : ρ → κ) where
  /-- The rows, in no particular order. -/
  rows : List ρ
  /-- The key is unique. -/
  unique : (rows.map key).Nodup

namespace Table

variable {κ ρ : Type*} {key : ρ → κ}

/-- The table without rows. -/
def empty : Table κ ρ key := ⟨[], List.nodup_nil⟩

/-- Two rows of one key are one row. -/
theorem eq_of_key {t : Table κ ρ key} {r r' : ρ} (h : r ∈ t.rows) (h' : r' ∈ t.rows)
    (hkey : key r = key r') : r = r' :=
  List.inj_on_of_nodup_map t.unique h h' hkey

/-- A condition that only one key satisfies picks out one row. -/
theorem filter_eq_singleton {t : Table κ ρ key} {p : ρ → Bool} {r : ρ} (hr : r ∈ t.rows)
    (hp : p r = true) (hone : ∀ r' ∈ t.rows, p r' = true → key r' = key r) :
    t.rows.filter p = [r] := by
  refine List.perm_singleton.mp ((List.perm_ext_iff_of_nodup ?_ (List.nodup_singleton r)).mpr ?_)
  · exact (List.Nodup.of_map key t.unique).filter p
  · intro r'
    rw [List.mem_filter, List.mem_singleton]
    constructor
    · rintro ⟨hr', hp'⟩
      exact eq_of_key hr' hr (hone r' hr' hp')
    · rintro rfl
      exact ⟨hr, hp⟩

/-! ## Deleting -/

theorem unique_filter (t : Table κ ρ key) (p : ρ → Bool) :
    ((t.rows.filter p).map key).Nodup :=
  List.Nodup.sublist (List.Sublist.map key List.filter_sublist) t.unique

/-- Keeps the rows that satisfy `p`, and deletes the others. -/
def keep (t : Table κ ρ key) (p : ρ → Bool) : Table κ ρ key :=
  ⟨t.rows.filter p, t.unique_filter p⟩

@[simp] theorem mem_keep {t : Table κ ρ key} {p : ρ → Bool} {r : ρ} :
    r ∈ (t.keep p).rows ↔ r ∈ t.rows ∧ p r = true :=
  List.mem_filter

/-! ## Updating in place -/

theorem unique_map (t : Table κ ρ key) (f : ρ → ρ) (hf : ∀ r, key (f r) = key r) :
    ((t.rows.map f).map key).Nodup := by
  rw [List.map_map, show key ∘ f = key from funext hf]
  exact t.unique

/-- Updates every row by a function that leaves the key alone. -/
def update (t : Table κ ρ key) (f : ρ → ρ) (hf : ∀ r, key (f r) = key r) :
    Table κ ρ key :=
  ⟨t.rows.map f, t.unique_map f hf⟩

@[simp] theorem mem_update {t : Table κ ρ key} {f : ρ → ρ}
    {hf : ∀ r, key (f r) = key r} {r : ρ} :
    r ∈ (t.update f hf).rows ↔ ∃ r₀ ∈ t.rows, f r₀ = r :=
  List.mem_map

variable [DecidableEq κ]

/-! ## Looking up -/

/-- The row of a key. -/
def get? (t : Table κ ρ key) (k : κ) : Option ρ :=
  t.rows.find? (fun r => decide (key r = k))

/-- **A lookup finds the row of the key**, and only that row. -/
theorem get?_eq_some {t : Table κ ρ key} {k : κ} {r : ρ} :
    t.get? k = some r ↔ r ∈ t.rows ∧ key r = k := by
  refine ⟨fun h => ⟨List.mem_of_find?_eq_some h, ?_⟩, ?_⟩
  · simpa using List.find?_some h
  · rintro ⟨hr, rfl⟩
    cases hget : t.get? (key r) with
    | none =>
      have hno := List.find?_eq_none.mp hget r hr
      exact absurd (decide_eq_true rfl) hno
    | some r' =>
      have hkey : key r' = key r := by simpa using List.find?_some hget
      rw [eq_of_key (List.mem_of_find?_eq_some hget) hr hkey]

theorem get?_eq_none {t : Table κ ρ key} {k : κ} :
    t.get? k = none ↔ ∀ r ∈ t.rows, key r ≠ k := by
  show t.rows.find? _ = none ↔ _
  rw [List.find?_eq_none]
  refine forall₂_congr (fun r _ => ?_)
  simp

/-- An update in place updates what is found. -/
@[simp] theorem get?_update (t : Table κ ρ key) {f : ρ → ρ} {hf : ∀ r, key (f r) = key r}
    (k : κ) : (t.update f hf).get? k = (t.get? k).map f := by
  show (t.rows.map f).find? _ = (t.rows.find? _).map f
  rw [List.find?_map]
  refine congrArg (fun p => (t.rows.find? p).map f) (funext fun r => ?_)
  rw [Function.comp_apply, hf]

/-- Updates the rows of a table that satisfy a condition. -/
def updateWhere (t : Table κ ρ key) (p : ρ → Bool) (f : ρ → ρ) (hf : ∀ r, key (f r) = key r) :
    Table κ ρ key :=
  t.update (fun r => if p r then f r else r) (fun r => by split <;> simp [hf])

omit [DecidableEq κ] in
theorem mem_updateWhere {t : Table κ ρ key} {p : ρ → Bool} {f : ρ → ρ}
    (hf : ∀ r, key (f r) = key r) {r : ρ} :
    r ∈ (t.updateWhere p f hf).rows ↔ ∃ r₀ ∈ t.rows, (if p r₀ then f r₀ else r₀) = r :=
  mem_update

@[simp] theorem get?_updateWhere (t : Table κ ρ key) {p : ρ → Bool} {f : ρ → ρ}
    (hf : ∀ r, key (f r) = key r) (k : κ) :
    (t.updateWhere p f hf).get? k = (t.get? k).map (fun r => if p r then f r else r) :=
  get?_update t k

theorem get?_updateWhere_of {t : Table κ ρ key} {p : ρ → Bool} {f : ρ → ρ} {k : κ} {r : ρ}
    (hget : t.get? k = some r) (hp : p r = true) (hf : ∀ r, key (f r) = key r) :
    (t.updateWhere p f hf).get? k = some (f r) := by
  rw [get?_updateWhere, hget, Option.map_some, if_pos hp]

/-! ## Writing one row -/

theorem unique_put (t : Table κ ρ key) (r : ρ) :
    ((r :: t.rows.filter (fun r' => decide (key r' ≠ key r))).map key).Nodup := by
  rw [List.map_cons]
  refine List.nodup_cons.mpr ⟨fun h => ?_, t.unique_filter _⟩
  obtain ⟨r', hr', hkey⟩ := List.mem_map.mp h
  exact absurd hkey (by simpa using (List.mem_filter.mp hr').2)

/-- Inserts a row, or replaces the row of its key. -/
def put (t : Table κ ρ key) (r : ρ) : Table κ ρ key :=
  ⟨r :: t.rows.filter (fun r' => decide (key r' ≠ key r)), t.unique_put r⟩

/-- **The rows after an upsert**: the new one, and those of other keys. -/
@[simp] theorem mem_put {t : Table κ ρ key} {r r' : ρ} :
    r' ∈ (t.put r).rows ↔ r' = r ∨ (r' ∈ t.rows ∧ key r' ≠ key r) := by
  show r' ∈ r :: t.rows.filter _ ↔ _
  rw [List.mem_cons, List.mem_filter, decide_eq_true_iff]

/-- **What is found after an upsert**: the new row at its key, else what was there. -/
theorem get?_put (t : Table κ ρ key) (r : ρ) (k : κ) :
    (t.put r).get? k = if key r = k then some r else t.get? k := by
  show (r :: t.rows.filter _).find? _ = _
  rw [List.find?_cons]
  split_ifs with hkey
  · rw [decide_eq_true hkey]
  · rw [decide_eq_false hkey]
    show (t.rows.filter _).find? _ = t.rows.find? _
    rw [List.find?_filter]
    refine congrArg t.rows.find? (funext fun r' => ?_)
    by_cases hr' : key r' = k
    · simp [hr', Ne.symm hkey]
    · simp [hr']

/-- Inserts a row, unless its key is taken. -/
def insert? (t : Table κ ρ key) (r : ρ) : Option (Table κ ρ key) :=
  match t.get? (key r) with
  | none => some (t.put r)
  | some _ => none

/-- A row that was inserted had a free key. -/
theorem get?_of_insert? {t t' : Table κ ρ key} {r : ρ} (h : t.insert? r = some t') :
    t.get? (key r) = none := by
  unfold insert? at h
  split at h
  · next hnone => exact hnone
  · exact absurd h (by simp)

/-- An inserted row comes first. -/
theorem rows_of_insert? {t t' : Table κ ρ key} {r : ρ} (h : t.insert? r = some t') :
    t'.rows = r :: t.rows := by
  have hfree := get?_eq_none.mp (get?_of_insert? h)
  unfold insert? at h
  split at h
  · obtain rfl := Option.some.inj h
    refine congrArg (r :: ·) (List.filter_eq_self.mpr fun r' hr' => ?_)
    exact decide_eq_true (hfree r' hr')
  · cases h

/-- **The rows after an insertion**: the new one, and all there were. -/
theorem mem_insert? {t t' : Table κ ρ key} {r : ρ} (h : t.insert? r = some t') (r' : ρ) :
    r' ∈ t'.rows ↔ r' = r ∨ r' ∈ t.rows := by
  unfold insert? at h
  split at h
  · next hnone =>
    obtain rfl := Option.some.inj h
    rw [mem_put]
    refine or_congr_right ⟨And.left, fun hr => ⟨hr, ?_⟩⟩
    exact get?_eq_none.mp hnone r' hr
  · exact absurd h (by simp)

end Table
