import MsRealty.DecimalText
import MsRealty.Submissions
import MsRealty.Table

/-!
# The lot numbers of listings

A listing is given a reference by one of two commands. `createListingDraft`
(`src/server/inventory/commands.ts`) counts up and writes the number with five
digits at least; an import that is applied
(`src/server/import-review/commands.ts`) takes the reference of its row, and raises
the counter to its number. The counter is a PostgreSQL integer, and the unique index
is on the text of the reference.

The two commands keep the lot numbers apart, and leave the counter room, exactly
while each reference that is imported has a number of its own and no number leaps to
the end of the integers (`lotsHold_iff`): the check of a row allows zeros in front,
and the largest integer.
-/

namespace ListingReferences

open DecimalText Runs

/-! ## References -/

/-- The largest PostgreSQL integer. -/
def integerMax : ℕ := 2147483647

/-- `Number.isSafeInteger`, of a number that is not negative. -/
def isSafeInteger (n : ℕ) : Bool := n ≤ 2 ^ 53 - 1

/-- **`formatListingReference`.** -/
def formatListingReference (lotNumber : ℕ) : Option String :=
  if isSafeInteger lotNumber && 1 ≤ lotNumber then
    some (String.ofList (['M', 'S', '-'] ++ zeroPad 5 lotNumber))
  else none

/-- **The lot number of a reference**: what follows `MS-`, read as a number. -/
def lotNumber (reference : String) : ℕ := Nat.ofDigitChars 10 (reference.toList.drop 3) 0

/-- The format of a reference: `MS-` and five to ten digits. -/
def isReference (reference : String) : Bool :=
  reference.toList.take 3 = ['M', 'S', '-'] && (reference.toList.drop 3).all Char.isDigit
    && 5 ≤ (reference.toList.drop 3).length && (reference.toList.drop 3).length ≤ 10

/-- **The check of a row's reference** in `planRow`. -/
def referenceFormat (reference : String) : Bool :=
  isReference reference && isSafeInteger (lotNumber reference) && 1 ≤ lotNumber reference
    && lotNumber reference ≤ integerMax

/-! ## The tables -/

/-- A listing. -/
structure ListingRow where
  reference : String
  deriving DecidableEq

/-- **The listings, and the counter of their references.** -/
structure ReferenceData where
  listings : Table String ListingRow ListingRow.reference
  lastValue : Option ℕ

/-- An empty database. -/
def ReferenceData.empty : ReferenceData := ⟨Table.empty, none⟩

/-- The counter counted up, unless an integer is too small for it. -/
def nextValue : Option ℕ → Option ℕ
  | none => some 1
  | some value => if value + 1 ≤ integerMax then some (value + 1) else none

/-- The counter raised, `greatest`. -/
def raised (lot : ℕ) : Option ℕ → ℕ
  | none => lot
  | some value => max value lot

/-! ## The commands -/

/-- **`createListingDraft`**, in its transaction: what it refuses otherwise is a
finding of the call. -/
def createListingDraft (refused : Option (Thrown JsonValue)) (data : ReferenceData) :
    Tx (String × ReferenceData) := do
  Tx.refuse refused
  let value ← Tx.found (nextValue data.lastValue) .other
  let reference ← Tx.found (formatListingReference value) .other
  let listings ← Tx.found (data.listings.insert? ⟨reference⟩) .other
  .ok (reference, { data with listings := listings, lastValue := some value })

/-- **`executeStaffImport`**, for a row without a listing: the listing it creates. -/
def createImported (refused : Option (Thrown JsonValue)) (reference : String)
    (data : ReferenceData) : Tx (String × ReferenceData) := do
  Tx.refuse refused
  Tx.demand (referenceFormat reference = true) (Tx.ofCode .validationFailed)
  Tx.demand (data.listings.get? reference = none) (Tx.ofCode .versionConflict)
  let listings ← Tx.found (data.listings.insert? ⟨reference⟩) .other
  .ok (reference, { data with
    listings := listings
    lastValue := some (raised (lotNumber reference) data.lastValue) })

/-- A call of one of the commands. -/
inductive Event where
  | create (refused : Option (Thrown JsonValue))
  | importRow (refused : Option (Thrown JsonValue)) (reference : String)

/-- The transaction of a call. -/
def Event.run : Event → ReferenceData → Tx (String × ReferenceData)
  | .create refused => createListingDraft refused
  | .importRow refused reference => createImported refused reference

/-- **A call**: the data after it, and the reference it gave. -/
def step (data : ReferenceData) (e : Event) : ReferenceData × Option String :=
  match e.run data with
  | .ok (reference, data') => (data', some reference)
  | .error _ => (data, none)

/-! ## Lot numbers -/

/-- **What should hold of the references**: no two listings have one lot number, the
counter is an integer, and a further draft is served with a reference of its own,
while there is one. -/
structure LotsHold (data : ReferenceData) : Prop where
  distinct : ∀ l ∈ data.listings.rows, ∀ l' ∈ data.listings.rows,
    lotNumber l.reference = lotNumber l'.reference → l = l'
  inRange : ∀ value ∈ data.lastValue, value ≤ integerMax
  served : data.listings.rows.length < integerMax →
    ∃ reference data', createListingDraft none data = .ok (reference, data') ∧
      ∀ l ∈ data.listings.rows, l.reference ≠ reference

/-- A number that leaves the counter room: it is below the largest integer, or as
many listings are there. -/
def LeavesRoom (data : ReferenceData) (lot : ℕ) : Prop :=
  lot < integerMax ∨ lot ≤ data.listings.rows.length + 1

/-- **A call that keeps the lot numbers apart**, if it is not refused: what it
allocates leaves room, and an imported number is of no listing yet. -/
def Meets (data : ReferenceData) : Event → Prop
  | .create refused => refused = none → ∀ value ∈ nextValue data.lastValue, LeavesRoom data value
  | .importRow refused reference =>
    refused = none → referenceFormat reference = true → data.listings.get? reference = none →
      LeavesRoom data (lotNumber reference) ∧
      ∀ l ∈ data.listings.rows, lotNumber l.reference ≠ lotNumber reference

variable {data data' : ReferenceData} {reference : String}

theorem lotNumber_format {lot : ℕ} (h : formatListingReference lot = some reference) :
    lotNumber reference = lot := by
  unfold formatListingReference at h
  split_ifs at h
  rw [← Option.some.inj h, lotNumber, String.toList_ofList]
  exact ofDigitChars_zeroPad 5 lot

/-- Two numbers are written differently. -/
theorem exists_format {lot : ℕ} (hpos : 1 ≤ lot) (hmax : lot ≤ integerMax) :
    ∃ reference, formatListingReference lot = some reference := by
  have hsafe : isSafeInteger lot = true := decide_eq_true (hmax.trans (by decide))
  unfold formatListingReference
  rw [hsafe, decide_eq_true hpos]
  exact ⟨_, rfl⟩

theorem nextValue_eq_some {lastValue : Option ℕ} {value : ℕ} (h : nextValue lastValue = some value) :
    value = lastValue.getD 0 + 1 ∧ value ≤ integerMax := by
  cases lastValue with
  | none =>
    obtain rfl := Option.some.inj h
    exact ⟨rfl, by decide⟩
  | some last =>
    simp only [nextValue] at h
    split_ifs at h with hle
    obtain rfl := Option.some.inj h
    exact ⟨rfl, hle⟩

theorem raised_eq (lot : ℕ) (lastValue : Option ℕ) :
    raised lot lastValue = max (lastValue.getD 0) lot := by
  cases lastValue with
  | none => exact (Nat.zero_max lot).symm
  | some last => rfl

/-! ## Steps -/

/-- **What a call does**: it adds one listing, of an allocated number, and the
counter is not below. -/
structure Adds (data : ReferenceData) (lot : ℕ) (reference : String) (data' : ReferenceData) :
    Prop where
  rows : data'.listings.rows = ⟨reference⟩ :: data.listings.rows
  number : lotNumber reference = lot
  most : lot ≤ integerMax
  lastValue : data'.lastValue = some (max (data.lastValue.getD 0) lot)

/-- **A draft is given the next number.** -/
theorem createListingDraft_eq_ok {refused : Option (Thrown JsonValue)} :
    createListingDraft refused data = .ok (reference, data') → refused = none ∧
      nextValue data.lastValue = some (data.lastValue.getD 0 + 1) ∧
      Adds data (data.lastValue.getD 0 + 1) reference data' := by
  intro h
  unfold createListingDraft at h
  simp only [Tx.refuse_bind, Tx.found_bind] at h
  obtain ⟨hrefused, value, hvalue, written, hwritten, listings, hlistings, h⟩ := h
  obtain ⟨rfl, rfl⟩ := Prod.mk.inj (Except.ok.inj h)
  obtain ⟨rfl, hmost⟩ := nextValue_eq_some hvalue
  refine ⟨hrefused, hvalue, Table.rows_of_insert? hlistings, lotNumber_format hwritten, hmost, ?_⟩
  rw [max_eq_right (Nat.le_succ _)]

/-- **An import takes the number of its row.** -/
theorem createImported_eq_ok {refused : Option (Thrown JsonValue)} {given : String} :
    createImported refused given data = .ok (reference, data') → refused = none ∧
      referenceFormat given = true ∧ data.listings.get? given = none ∧ reference = given ∧
      Adds data (lotNumber given) reference data' := by
  intro h
  unfold createImported at h
  simp only [Tx.refuse_bind, Tx.demand_bind, Tx.found_bind] at h
  obtain ⟨hrefused, hformat, hnone, listings, hlistings, h⟩ := h
  obtain ⟨rfl, rfl⟩ := Prod.mk.inj (Except.ok.inj h)
  have hmost : lotNumber given ≤ integerMax := by
    unfold referenceFormat at hformat
    simp only [Bool.and_eq_true, decide_eq_true_eq] at hformat
    exact hformat.2
  refine ⟨hrefused, hformat, hnone, rfl, Table.rows_of_insert? hlistings, rfl, hmost, ?_⟩
  show some (raised (lotNumber given) data.lastValue) = _
  rw [raised_eq]

/-! ## The invariant -/

/-- **What every run keeps**: the counter bounds the numbers, and leaves room. -/
structure Inv (data : ReferenceData) : Prop where
  distinct : ∀ l ∈ data.listings.rows, ∀ l' ∈ data.listings.rows,
    lotNumber l.reference = lotNumber l'.reference → l = l'
  bounded : ∀ l ∈ data.listings.rows, lotNumber l.reference ≤ data.lastValue.getD 0
  most : data.lastValue.getD 0 ≤ integerMax
  room : data.lastValue.getD 0 < integerMax ∨
    data.lastValue.getD 0 ≤ data.listings.rows.length

theorem inv_empty : Inv ReferenceData.empty :=
  ⟨fun _ h => absurd h List.not_mem_nil, fun _ h => absurd h List.not_mem_nil, Nat.zero_le _,
    .inr le_rfl⟩

/-- **A listing of a number of its own**, which leaves room, keeps the invariant. -/
theorem Inv.adds (h : Inv data) {lot : ℕ} (hadds : Adds data lot reference data')
    (hroom : LeavesRoom data lot)
    (hnew : ∀ l ∈ data.listings.rows, lotNumber l.reference ≠ lot) : Inv data' := by
  obtain ⟨hrows, rfl, hmost, hlast⟩ := hadds
  have hvalue : data'.lastValue.getD 0 = max (data.lastValue.getD 0) (lotNumber reference) := by
    rw [hlast, Option.getD_some]
  refine ⟨?_, ?_, ?_, ?_⟩
  · rw [hrows]
    intro l hl l' hl' hlot
    obtain rfl | hl := List.mem_cons.mp hl
    · obtain rfl | hl' := List.mem_cons.mp hl'
      · rfl
      · exact absurd hlot.symm (hnew l' hl')
    · obtain rfl | hl' := List.mem_cons.mp hl'
      · exact absurd hlot (hnew l hl)
      · exact h.distinct l hl l' hl' hlot
  · rw [hrows, hvalue]
    refine List.forall_mem_cons.mpr ⟨le_max_right _ _, fun l hl => ?_⟩
    exact (h.bounded l hl).trans (le_max_left _ _)
  · rw [hvalue]
    exact max_le h.most hmost
  · rw [hvalue, hrows, List.length_cons]
    have hbefore := h.room
    unfold LeavesRoom at hroom
    omega

/-- **A further draft is served**, while fewer listings are there than integers. -/
theorem Inv.lotsHold (h : Inv data) : LotsHold data := by
  refine ⟨h.distinct, fun value hvalue => ?_, fun hlength => ?_⟩
  · have hmost := h.most
    rw [hvalue] at hmost
    exact hmost
  · have hlt : data.lastValue.getD 0 + 1 ≤ integerMax := by
      have hroom := h.room
      omega
    have hnext : nextValue data.lastValue = some (data.lastValue.getD 0 + 1) := by
      cases hlast : data.lastValue with
      | none => rfl
      | some last =>
        rw [hlast] at hlt
        exact if_pos hlt
    obtain ⟨reference, hformat⟩ := exists_format (Nat.succ_pos _) hlt
    have hfresh : ∀ l ∈ data.listings.rows, l.reference ≠ reference := by
      rintro l hl rfl
      have hle := h.bounded l hl
      rw [lotNumber_format hformat] at hle
      omega
    have hinsert : data.listings.insert? ⟨reference⟩ = some (data.listings.put ⟨reference⟩) := by
      unfold Table.insert?
      rw [show data.listings.get? (ListingRow.reference ⟨reference⟩) = none from
        Table.get?_eq_none.mpr hfresh]
    refine ⟨reference, { data with
      listings := data.listings.put ⟨reference⟩
      lastValue := some (data.lastValue.getD 0 + 1) }, ?_, hfresh⟩
    unfold createListingDraft
    rw [hnext]
    show (Tx.found (formatListingReference (data.lastValue.getD 0 + 1)) .other >>= _) = _
    rw [hformat]
    show (Tx.found (data.listings.insert? ⟨reference⟩) .other >>= _) = _
    rw [hinsert]
    rfl

/-- **A call that meets the condition keeps the invariant.** -/
theorem inv_step (h : Inv data) {e : Event} (hmeets : Meets data e) : Inv (step data e).fst := by
  unfold step
  cases hrun : e.run data with
  | error => exact h
  | ok result =>
    obtain ⟨reference, data'⟩ := result
    cases e with
    | create refused =>
      obtain ⟨hrefused, hnext, hadds⟩ := createListingDraft_eq_ok hrun
      refine h.adds hadds (hmeets hrefused _ hnext) fun l hl hlot => ?_
      have hle := h.bounded l hl
      omega
    | importRow refused given =>
      obtain ⟨hrefused, hformat, hnone, rfl, hadds⟩ := createImported_eq_ok hrun
      obtain ⟨hroom, hnew⟩ := hmeets hrefused hformat hnone
      exact h.adds hadds hroom hnew

/-! ## The condition is exact -/

theorem step_of_run {e : Event} (h : e.run data = .ok (reference, data')) :
    (step data e).fst = data' := by
  unfold step
  rw [h]

/-- A number that leaves no room is the last one: no further draft is served. -/
theorem not_lotsHold_of_full {lot : ℕ} (hadds : Adds data lot reference data')
    (hroom : ¬ LeavesRoom data lot) : ¬ LotsHold data' := by
  intro h
  obtain ⟨hrows, -, hmost, hlast⟩ := hadds
  unfold LeavesRoom at hroom
  rw [not_or, not_lt, not_le] at hroom
  have hlength : data'.listings.rows.length < integerMax := by
    rw [hrows, List.length_cons]
    omega
  obtain ⟨next, after, hserved, -⟩ := h.served hlength
  obtain ⟨-, hnext, -⟩ := createListingDraft_eq_ok hserved
  have hle := (nextValue_eq_some hnext).2
  rw [hlast, Option.getD_some] at hle
  have hmax := le_max_right (data.lastValue.getD 0) lot
  omega

/-- A number that a listing has already is of two. -/
theorem not_lotsHold_of_shared {lot : ℕ} (hadds : Adds data lot reference data')
    (hfree : data.listings.get? reference = none) {l : ListingRow} (hl : l ∈ data.listings.rows)
    (hlot : lotNumber l.reference = lot) : ¬ LotsHold data' := by
  intro h
  have hmem : ∀ r, r ∈ data'.listings.rows ↔ r = ⟨reference⟩ ∨ r ∈ data.listings.rows := by
    intro r
    rw [hadds.rows, List.mem_cons]
  have hsame := h.distinct l ((hmem l).mpr (.inr hl)) ⟨reference⟩ ((hmem _).mpr (.inl rfl))
    (hlot.trans hadds.number.symm)
  exact Table.get?_eq_none.mp hfree l hl (congrArg ListingRow.reference hsame)

/-- **A call that does not meet the condition breaks the references.** -/
theorem meets_of_lotsHold {e : Event} (hbefore : LotsHold data)
    (h : LotsHold (step data e).fst) : Meets data e := by
  cases e with
  | create refused =>
    intro hrefused value hvalue
    by_contra hroom
    subst hrefused
    have hlength : data.listings.rows.length < integerMax := by
      have hmost := (nextValue_eq_some hvalue).2
      unfold LeavesRoom at hroom
      omega
    obtain ⟨reference, data', hserved, -⟩ := hbefore.served hlength
    have hadds := (createListingDraft_eq_ok hserved).2.2
    rw [← (nextValue_eq_some hvalue).1] at hadds
    rw [step_of_run (e := .create none) hserved] at h
    exact not_lotsHold_of_full hadds hroom h
  | importRow refused given =>
    intro hrefused hformat hnone
    subst hrefused
    have hinsert : data.listings.insert? ⟨given⟩ = some (data.listings.put ⟨given⟩) := by
      unfold Table.insert?
      rw [show data.listings.get? (ListingRow.reference ⟨given⟩) = none from hnone]
    obtain ⟨data', hrun⟩ : ∃ data', createImported none given data = .ok (given, data') := by
      refine ⟨{ data with
        listings := data.listings.put ⟨given⟩
        lastValue := some (raised (lotNumber given) data.lastValue) }, ?_⟩
      unfold createImported Tx.demand
      rw [if_pos hformat, if_pos hnone]
      show (Tx.found (data.listings.insert? ⟨given⟩) .other >>= _) = _
      rw [hinsert]
      rfl
    have hadds := (createImported_eq_ok hrun).2.2.2.2
    rw [step_of_run (e := .importRow none given) hrun] at h
    refine ⟨by_contra fun hroom => not_lotsHold_of_full hadds hroom h, fun l hl hlot => ?_⟩
    exact not_lotsHold_of_shared hadds hnone hl hlot h

/-! ## Runs -/

/-- **The references hold in every state of a run** from an empty database, exactly
if every call meets the condition in the state it finds. -/
theorem lotsHold_iff (es : List Event) :
    (∀ m ∈ history step ReferenceData.empty es, LotsHold m.after) ↔
      ∀ m ∈ history step ReferenceData.empty es, Meets m.before m.event := by
  constructor
  · have hall : ∀ data, LotsHold data → (∀ m ∈ history step data es, LotsHold m.after) →
        ∀ m ∈ history step data es, Meets m.before m.event := by
      induction es with
      | nil => exact fun _ _ _ m hm => absurd hm List.not_mem_nil
      | cons e es ih =>
        intro data hdata hafter
        obtain ⟨hfirst, hrest⟩ := List.forall_mem_cons.mp hafter
        refine List.forall_mem_cons.mpr ⟨meets_of_lotsHold hdata hfirst, ?_⟩
        exact ih (step data e).fst hfirst hrest
    exact hall ReferenceData.empty inv_empty.lotsHold
  · intro hmeets m hm
    exact ((history_of_moments (C := fun m => Meets m.before m.event)
      (fun _ _ hmeet hinv => inv_step hinv hmeet) hmeets inv_empty).2 m hm).2.lotsHold

/-- **Two calls suffice**: a number with more zeros in front is that of a listing, and
the largest integer leaves no draft to be served. -/
theorem not_lotsHold_samples :
    ¬ LotsHold (final step ReferenceData.empty [.create none, .importRow none "MS-000001"]) ∧
    ¬ LotsHold (final step ReferenceData.empty [.importRow none "MS-2147483647"]) := by
  constructor
  · intro h
    have hrows : (final step ReferenceData.empty
        [.create none, .importRow none "MS-000001"]).listings.rows =
          [⟨"MS-000001"⟩, ⟨"MS-00001"⟩] := by
      decide +kernel
    have hsame := h.distinct ⟨"MS-000001"⟩ (by rw [hrows]; decide) ⟨"MS-00001"⟩
      (by rw [hrows]; decide) (by decide +kernel)
    exact absurd hsame (by decide)
  · intro h
    have hrows : (final step ReferenceData.empty
        [.importRow none "MS-2147483647"]).listings.rows.length = 1 := by
      decide +kernel
    have hlast : (final step ReferenceData.empty
        [.importRow none "MS-2147483647"]).lastValue = some integerMax := by
      decide +kernel
    obtain ⟨reference, data', hserved, -⟩ := h.served (by rw [hrows]; decide)
    obtain ⟨-, hnext, -⟩ := createListingDraft_eq_ok hserved
    rw [hlast] at hnext
    exact absurd hnext (by decide +kernel)

end ListingReferences
