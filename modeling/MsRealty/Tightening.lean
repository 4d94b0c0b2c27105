import Mathlib.Data.List.Basic

/-!
# Updates that only tighten

A table whose rows are updated in place, under a condition. What identifies a
row – its *key*, columns no update writes – stays, and some *facts* about rows,
once true, stay true. Then whatever is known of all rows of some keys is still
known of them after any sequence of updates (`Tightens.forall_mem`).
-/

section

variable {ρ κ ι : Type*}

/-- **Updates the rows** that satisfy a condition. -/
def updateWhere (p : ρ → Bool) (f : ρ → ρ) (rows : List ρ) : List ρ :=
  rows.map (fun row => if p row then f row else row)

/-- What the updated rows and the others satisfy, all rows satisfy. -/
theorem forall_updateWhere {p : ρ → Bool} {f : ρ → ρ} {rows : List ρ} {Q : ρ → Prop}
    (hset : ∀ row ∈ rows, p row = true → Q (f row)) (hkeep : ∀ row ∈ rows, p row = false → Q row) :
    ∀ row ∈ updateWhere p f rows, Q row := by
  intro row' hrow'
  obtain ⟨row, hrow, rfl⟩ := List.mem_map.mp hrow'
  split_ifs with hp
  · exact hset row hrow hp
  · exact hkeep row hrow (eq_false_of_ne_true hp)

/-- **Rows are tightened**: each comes from a row of the same key, and the
facts that held of that one hold of it. -/
def Tightens (key : ρ → κ) (facts : List (ρ → Prop)) (rows rows' : List ρ) : Prop :=
  ∀ row' ∈ rows', ∃ row ∈ rows, key row' = key row ∧ ∀ P ∈ facts, P row → P row'

namespace Tightens

variable {key : ρ → κ} {facts : List (ρ → Prop)} {rows rows' rows'' : List ρ}

theorem refl (rows : List ρ) : Tightens key facts rows rows :=
  fun row hrow => ⟨row, hrow, rfl, fun _ _ h => h⟩

theorem trans (h : Tightens key facts rows rows') (h' : Tightens key facts rows' rows'') :
    Tightens key facts rows rows'' := by
  intro row'' hrow''
  obtain ⟨row', hrow', hkey', hfacts'⟩ := h' row'' hrow''
  obtain ⟨row, hrow, hkey, hfacts⟩ := h row' hrow'
  exact ⟨row, hrow, hkey'.trans hkey, fun P hP hrow => hfacts' P hP (hfacts P hP hrow)⟩

/-- **An update tightens** if it leaves the keys and keeps the facts. -/
theorem update {p : ρ → Bool} {f : ρ → ρ} (rows : List ρ) (hkey : ∀ row, key (f row) = key row)
    (hfacts : ∀ P ∈ facts, ∀ row, p row = true → P row → P (f row)) :
    Tightens key facts rows (updateWhere p f rows) := by
  intro row' hrow'
  obtain ⟨row, hrow, rfl⟩ := List.mem_map.mp hrow'
  refine ⟨row, hrow, ?_, fun P hP h => ?_⟩
  · split_ifs
    · exact hkey row
    · rfl
  · split_ifs with hp
    · exact hfacts P hP row hp h
    · exact h

/-- An update that keeps one fact. -/
theorem update_one {p : ρ → Bool} {f : ρ → ρ} {P : ρ → Prop} (rows : List ρ)
    (hkey : ∀ row, key (f row) = key row) (hP : ∀ row, p row = true → P row → P (f row)) :
    Tightens key [P] rows (updateWhere p f rows) :=
  update rows hkey (fun _ hQ => by rw [List.mem_singleton.mp hQ]; exact hP)

/-- An update that keeps two facts. -/
theorem update_two {p : ρ → Bool} {f : ρ → ρ} {P Q : ρ → Prop} (rows : List ρ)
    (hkey : ∀ row, key (f row) = key row) (hP : ∀ row, p row = true → P row → P (f row))
    (hQ : ∀ row, p row = true → Q row → Q (f row)) :
    Tightens key [P, Q] rows (updateWhere p f rows) := by
  refine update rows hkey (fun R hR => ?_)
  obtain rfl | hR := List.mem_cons.mp hR
  · exact hP
  · rw [List.mem_singleton.mp hR]
    exact hQ

/-- Updates one after the other tighten if each does. -/
theorem foldl_update {p : ι → ρ → Bool} {f : ι → ρ → ρ} (ids : List ι)
    (hstep : ∀ id rows, Tightens key facts rows (updateWhere (p id) (f id) rows))
    (rows : List ρ) :
    Tightens key facts rows (ids.foldl (fun rows id => updateWhere (p id) (f id) rows) rows) := by
  induction ids generalizing rows with
  | nil => exact refl rows
  | cons id ids ih => exact (hstep id rows).trans (ih _)

/-- **What is known of the rows of some keys is still known of them.** -/
theorem forall_mem (h : Tightens key facts rows rows') {P : ρ → Prop} (hP : P ∈ facts)
    {C : κ → Prop} (hrows : ∀ row ∈ rows, C (key row) → P row) :
    ∀ row ∈ rows', C (key row) → P row := by
  intro row' hrow' hC
  obtain ⟨row, hrow, hkey, hfacts⟩ := h row' hrow'
  rw [hkey] at hC
  exact hfacts P hP (hrows row hrow hC)

/-- Every key there is was there before. -/
theorem exists_key (h : Tightens key facts rows rows') {row' : ρ} (hrow' : row' ∈ rows') :
    ∃ row ∈ rows, key row' = key row := by
  obtain ⟨row, hrow, hkey, -⟩ := h row' hrow'
  exact ⟨row, hrow, hkey⟩

end Tightens

/-- **Updates one after the other** establish what each of them does. -/
theorem forall_foldl_update (key : ρ → κ) {p : ι → ρ → Bool} {f : ι → ρ → ρ} {P : ρ → Prop}
    (hkey : ∀ id row, key (f id row) = key row)
    (hset : ∀ id row, p id row = true → P (f id row)) {C : ι → κ → Prop}
    (hsel : ∀ id row, C id (key row) → p id row = true) (ids : List ι) (rows : List ρ) :
    ∀ id ∈ ids, ∀ row ∈ ids.foldl (fun rows id => updateWhere (p id) (f id) rows) rows,
      C id (key row) → P row := by
  induction ids generalizing rows with
  | nil => exact fun id hid => absurd hid List.not_mem_nil
  | cons first ids ih =>
    intro id hid
    obtain rfl | hid := List.mem_cons.mp hid
    · have hstep : ∀ i rows, Tightens key [P] rows (updateWhere (p i) (f i) rows) :=
        fun i rows => .update_one rows (hkey i) (fun row hp _ => hset i row hp)
      have hrest := Tightens.foldl_update ids hstep (updateWhere (p id) (f id) rows)
      refine hrest.forall_mem List.mem_cons_self (forall_updateWhere ?_ ?_)
      · exact fun row _ hp _ => hset id row hp
      · intro row _ hp hC
        rw [hsel id row hC] at hp
        cases hp
    · exact ih _ id hid

end
