import MsRealty.Decimals
import MsRealty.KeyCustody
import MsRealty.SafetyLedger

/-!
# What the content hash of a key row binds

The audit entry of every custody command has the hash of the row as it was
written (`hashRequest(row)` in `src/server/key-custody/service.ts`). The row
comes from the database with its timestamps as `Date` objects, and
`canonicalJson` writes an object by its own entries: a `Date` has none.

So the text of a row is that of the row without its timestamps
(`KeyRow.text_eq_iff`): the hash tells whether a set is due back, and not when.
-/

namespace KeyCustody

open JsonText Privacy

/-! ## Rows as they are hashed -/

/-- **A row of `keySets`**, with the instant it was created. -/
structure KeyRow extends KeySet where
  createdAt : Instant

/-- A `Date` as `Object.entries` reads it: it has no entries of its own. -/
def dateJson (_ : Instant) : JsonValue := .obj []

/-- A value that may be missing: a column without a value is `null`. -/
def nullOr {α : Type*} (json : α → JsonValue) (value : Option α) : JsonValue :=
  (value.map json).getD .null

/-- The names of the columns. -/
def KeyRow.keys : List String :=
  ["id", "version", "createdAt", "updatedAt", "reference", "propertyId", "keyTag", "quantity",
    "sourceReference", "state", "storageLabel", "holderId", "dueAt"]

/-- The columns of a row. -/
def KeyRow.values (row : KeyRow) : List JsonValue :=
  [.str row.id, .num row.version, dateJson row.createdAt, dateJson row.updatedAt,
    .str row.reference, .str row.propertyId, .str row.keyTag, .num row.quantity,
    .str row.sourceReference, .str row.state.name, nullOr .str row.storageLabel,
    nullOr .str row.holderId, nullOr dateJson row.dueAt]

/-- A row as `hashRequest` reads it. -/
def KeyRow.toJson (row : KeyRow) : JsonValue := .obj (KeyRow.keys.zip row.values)

/-- **The canonical text of a row.** -/
def KeyRow.text (row : KeyRow) : String := String.ofList (canonicalJson row.toJson)

/-- **The content hash of a row.** -/
def KeyRow.contentHash (sha256Hex : String → String) (row : KeyRow) : String :=
  hashRequest sha256Hex row.toJson

/-- What is at hand where a row is recorded. -/
structure Recording where
  context : OperationContext
  found : Findings
  note : String
  action : String
  data : CustodyData

/-- **The hash stored with the event of a row**, by `recordCustody`. -/
def KeyRow.storedHash (sha256Hex : String → String) (recording : Recording) (row : KeyRow) :
    Option String :=
  let found := { recording.found with
    hashRow := fun keySet => KeyRow.contentHash sha256Hex ⟨keySet, row.createdAt⟩ }
  (recordCustody recording.context found row.toKeySet recording.note recording.action
    recording.data).audit.head?.map CustodyAudit.contentHash

@[simp] theorem KeyRow.storedHash_eq (sha256Hex : String → String) (recording : Recording)
    (row : KeyRow) : row.storedHash sha256Hex recording = some (row.contentHash sha256Hex) := rfl

/-! ## What the text determines -/

/-- **A row with every timestamp it has at one instant.** -/
def KeyRow.undated (row : KeyRow) : KeyRow :=
  { row with createdAt := 0, updatedAt := 0, dueAt := row.dueAt.map (fun _ => 0) }

theorem CustodyState.name_injective : Function.Injective CustodyState.name := by
  intro a b h
  cases a <;> cases b <;> first | rfl | exact absurd h (by decide)

@[simp] theorem normalForm_nullOr_str (value : Option String) :
    normalForm (nullOr .str value) = nullOr .str value := by
  cases value <;> rfl

@[simp] theorem normalForm_nullOr_date (value : Option Instant) :
    normalForm (nullOr dateJson value) = nullOr dateJson value := by
  cases value <;> rfl

@[simp] theorem nullOr_str_inj {a b : Option String} :
    nullOr .str a = nullOr .str b ↔ a = b := by
  cases a <;> cases b <;> simp [nullOr]

@[simp] theorem nullOr_date_inj {a b : Option Instant} :
    nullOr dateJson a = nullOr dateJson b ↔ a.map (fun _ => (0 : ℤ)) = b.map (fun _ => 0) := by
  cases a <;> cases b <;> simp [nullOr, dateJson]

theorem plain_nullOr_str (value : Option String) : Plain (nullOr .str value) := by
  cases value <;> trivial

theorem plain_nullOr_date (value : Option Instant) : Plain (nullOr dateJson value) := by
  cases value <;> trivial

theorem KeyRow.plain_toJson (row : KeyRow) : Plain row.toJson :=
  ⟨trivial, decimal_intCast row.version, trivial, trivial, trivial, trivial, trivial,
    decimal_intCast row.quantity, trivial, trivial, plain_nullOr_str _, plain_nullOr_str _,
    plain_nullOr_date _, trivial⟩

/-- The text does not depend on the timestamps. -/
theorem KeyRow.text_undated (row : KeyRow) : row.undated.text = row.text := by
  have hdue : nullOr dateJson (row.dueAt.map (fun _ => 0)) = nullOr dateJson row.dueAt := by
    cases row.dueAt <;> rfl
  simp only [KeyRow.text, KeyRow.toJson, KeyRow.values, KeyRow.undated, hdue]
  rfl

/-- **The text of a row is that of its columns without their timestamps.** -/
theorem KeyRow.text_eq_iff {a b : KeyRow} : a.text = b.text ↔ a.undated = b.undated := by
  constructor
  · intro h
    have hform := normalForm_eq_of_canonicalJson a.plain_toJson b.plain_toJson
      (String.ofList_injective h)
    have hvalues := map_normalForm_of_zip (by decide +kernel) rfl rfl hform
    simp only [KeyRow.values, List.map_cons, List.map_nil, normalForm, normalForm_nullOr_str,
      normalForm_nullOr_date, List.cons.injEq, JsonValue.str.injEq, JsonValue.num.injEq,
      Nat.cast_inj, Int.cast_inj, nullOr_str_inj, nullOr_date_inj,
      CustodyState.name_injective.eq_iff] at hvalues
    obtain ⟨hid, hversion, _, _, hreference, hproperty, htag, hquantity, hsource, hstate, hlabel,
      hholder, hdue, _⟩ := hvalues
    simp only [KeyRow.undated, KeyRow.mk.injEq, KeySet.mk.injEq]
    exact ⟨⟨hid, hversion, hreference, hproperty, htag, hquantity, hsource, hstate, hlabel,
      hholder, hdue, trivial⟩, trivial⟩
  · intro h
    rw [← a.text_undated, h, b.text_undated]

/-! ## What the hash binds -/

/-- **The stored hashes of two rows tell them apart exactly where** the rows
differ in more than when their timestamps are. -/
theorem storedHash_binds_iff {sha256Hex : String → String} {a b : KeyRow}
    (recording recording' : Recording)
    (hsha : sha256Hex a.text = sha256Hex b.text → a.text = b.text) :
    (a ≠ b → a.storedHash sha256Hex recording ≠ b.storedHash sha256Hex recording') ↔
      a = b ∨ a.undated ≠ b.undated := by
  have hhash : a.storedHash sha256Hex recording = b.storedHash sha256Hex recording' ↔
      a.undated = b.undated := by
    rw [KeyRow.storedHash_eq, KeyRow.storedHash_eq, Option.some_inj, ← KeyRow.text_eq_iff]
    exact ⟨hsha, congrArg sha256Hex⟩
  rw [Ne, Ne, hhash, Ne, or_iff_not_imp_left]

/-- A set of keys that is checked out, due back at an instant. -/
def dueBack (due : Instant) : KeyRow where
  id := "0d1c3c5e-8f0a-4b6e-9a51-6f1f0c6f2a11"
  version := 2
  reference := "KS-00012"
  propertyId := "5a0f7f0e-2f5b-4a38-8d53-0a4c1f3f7b22"
  keyTag := "A-117"
  quantity := 2
  sourceReference := "Owner handover note 14"
  state := .checkedOut
  storageLabel := none
  holderId := some "c7e0a9b4-1d62-4f0e-b7a3-3e2d9c8b4f33"
  dueAt := some due
  updatedAt := 1790841600000
  createdAt := 1790755200000

/-- What is at hand where such a set is recorded. -/
def sampleRecording : Recording where
  context := ⟨"op-key-0001", ⟨.staff, "staff-1"⟩, none⟩
  found :=
    { operator := none
      property := none
      eligibleHolder := fun _ => true
      freshId := ""
      freshReference := ""
      now := 1790841600000
      hashRow := fun _ => "" }
  note := "Handed over at the office"
  action := "key.custody_recorded"
  data := ⟨⟨[], List.nodup_nil⟩, [], []⟩

/-- **Sets due back on two days have one hash.** -/
theorem not_storedHash_binds : ¬ ∀ (sha256Hex : String → String) (a b : KeyRow)
    (recording recording' : Recording), Function.Injective sha256Hex → a ≠ b →
      a.storedHash sha256Hex recording ≠ b.storedHash sha256Hex recording' := by
  intro h
  have hne : dueBack 1791014400000 ≠ dueBack 1791100800000 := by simp [dueBack]
  exact h id _ _ sampleRecording sampleRecording Function.injective_id hne rfl

/-- The digest of a set that is due back, on whichever day. -/
def dueBackDigest : String := "eec80b71f26b52a1544cfdfedbf4556591ab1a6c346cf2f642eb105225fce0c3"

/-- Two days of one set, whose text has this digest. -/
theorem storedHash_binds_dueBack :
    (dueBack 1791014400000 ≠ dueBack 1791100800000 →
      (dueBack 1791014400000).storedHash (fun _ => dueBackDigest) sampleRecording
        ≠ (dueBack 1791100800000).storedHash (fun _ => dueBackDigest) sampleRecording) ↔
      dueBack 1791014400000 = dueBack 1791100800000
        ∨ (dueBack 1791014400000).undated ≠ (dueBack 1791100800000).undated :=
  storedHash_binds_iff sampleRecording sampleRecording
    (fun _ => KeyRow.text_eq_iff.mpr rfl)

end KeyCustody
