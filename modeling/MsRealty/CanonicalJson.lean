import Mathlib.Data.List.Sort
import MsRealty.JsonRoundTrip

/-!
# Canonical JSON

The text requests and decisions are hashed by (`canonicalJson` in
`src/domain/approval.ts`): JSON with the members of every object in the order
of their names, which the source compares by code unit.

The canonical text of a value is the text of its *normal form*, the value with
its members in that order (`canonicalJson_eq`). It is read back, so two values
of one canonical text have one normal form (`normalForm_eq_of_canonicalJson`),
and their members are the same up to order (`get?_normalForm`).
-/

namespace JsonText

/-! ## The text -/

/-- The order of texts by code unit. -/
def unitsLE : List ℕ → List ℕ → Bool
  | [], _ => true
  | _ :: _, [] => false
  | a :: as, b :: bs => if a = b then unitsLE as bs else a < b

/-- **The order of the members of an object**: that of their names. -/
def memberLE {α : Type*} (a b : String × α) : Prop :=
  unitsLE (Utf16.encode a.fst.toList) (Utf16.encode b.fst.toList) = true

instance {α : Type*} : DecidableRel (@memberLE α) := fun a b =>
  inferInstanceAs (Decidable
    (unitsLE (Utf16.encode a.fst.toList) (Utf16.encode b.fst.toList) = true))

mutual

/-- **Deterministic JSON** with sorted object keys. -/
def canonicalJson : JsonValue → List Char
  | .arr items => '[' :: [','].intercalate (canonicalItems items) ++ [']']
  | .obj members =>
    let entries := (canonicalMembers members).insertionSort memberLE
    '{' :: [','].intercalate (entries.map (fun e => stringText e.fst ++ ':' :: e.snd)) ++ ['}']
  | .null => stringify .null
  | .bool b => stringify (.bool b)
  | .num n => stringify (.num n)
  | .str s => stringify (.str s)

/-- The texts of the items. -/
def canonicalItems : List JsonValue → List (List Char)
  | [] => []
  | item :: items => canonicalJson item :: canonicalItems items

/-- The texts of the members. -/
def canonicalMembers : List (String × JsonValue) → List (String × List Char)
  | [] => []
  | (key, value) :: members => (key, canonicalJson value) :: canonicalMembers members

end

/-! ## The normal form -/

mutual

/-- **The normal form of a value**: the members of every object in order. -/
def normalForm : JsonValue → JsonValue
  | .arr items => .arr (normalFormItems items)
  | .obj members =>
    .obj ((normalFormMembers members).insertionSort memberLE)
  | .null => .null
  | .bool b => .bool b
  | .num n => .num n
  | .str s => .str s

/-- The normal forms of the items. -/
def normalFormItems : List JsonValue → List JsonValue
  | [] => []
  | item :: items => normalForm item :: normalFormItems items

/-- The members with the normal forms of their values. -/
def normalFormMembers : List (String × JsonValue) → List (String × JsonValue)
  | [] => []
  | (key, value) :: members => (key, normalForm value) :: normalFormMembers members

end

theorem normalFormItems_eq (items : List JsonValue) :
    normalFormItems items = items.map normalForm := by
  induction items with
  | nil => rfl
  | cons item items ih => rw [normalFormItems, ih, List.map_cons]

theorem normalFormMembers_eq (members : List (String × JsonValue)) :
    normalFormMembers members = members.map (fun m => (m.fst, normalForm m.snd)) := by
  induction members with
  | nil => rfl
  | cons m members ih => rw [normalFormMembers, ih, List.map_cons]

theorem itemsText_eq (items : List JsonValue) :
    itemsText items = items.flatMap (fun item => ',' :: stringify item) ++ [']'] := by
  induction items with
  | nil => rfl
  | cons item items ih => rw [itemsText, ih, List.flatMap_cons, List.append_assoc]

theorem membersText_eq (members : List (String × JsonValue)) :
    membersText members
      = members.flatMap (fun m => ',' :: stringText m.fst ++ ':' :: stringify m.snd) ++ ['}'] := by
  induction members with
  | nil => rfl
  | cons m members ih =>
    rw [membersText, ih, List.flatMap_cons]
    simp

/-- Texts with commas between them. -/
theorem intercalate_comma (text : List Char) (texts : List (List Char)) :
    [','].intercalate (text :: texts) = text ++ texts.flatMap (fun t => ',' :: t) := by
  induction texts generalizing text with
  | nil => simp
  | cons t texts ih =>
    rw [List.intercalate_cons_cons, ih, List.flatMap_cons]
    simp

/-- The text of an array is the texts of its items, with commas between them. -/
theorem stringify_arr (items : List JsonValue) :
    stringify (.arr items) = '[' :: [','].intercalate (items.map stringify) ++ [']'] := by
  cases items with
  | nil => rfl
  | cons item items =>
    rw [stringify, itemsText_eq, List.map_cons, intercalate_comma, List.flatMap_map]
    simp

/-- The text of an object is the texts of its members, with commas between them. -/
theorem stringify_obj (members : List (String × JsonValue)) :
    stringify (.obj members) = '{' :: [','].intercalate
      (members.map (fun m => stringText m.fst ++ ':' :: stringify m.snd)) ++ ['}'] := by
  cases members with
  | nil => rfl
  | cons m members =>
    rw [stringify, membersText_eq, List.map_cons, intercalate_comma, List.flatMap_map]
    simp

mutual

/-- **The canonical text of a value is the text of its normal form.** -/
theorem canonicalJson_eq : ∀ v : JsonValue, canonicalJson v = stringify (normalForm v)
  | .null => rfl
  | .bool _ => rfl
  | .num _ => rfl
  | .str _ => rfl
  | .arr items => by
    rw [canonicalJson, normalForm, stringify_arr, canonicalItems_eq]
  | .obj members => by
    have hsort := List.map_insertionSort (r := memberLE)
      (s := memberLE) (fun m => (m.fst, stringify m.snd))
      (normalFormMembers members) (fun _ _ _ _ => Iff.rfl)
    rw [canonicalJson, normalForm, stringify_obj, canonicalMembers_eq, ← hsort]
    simp only [List.map_map]
    rfl

theorem canonicalItems_eq : ∀ items : List JsonValue,
    canonicalItems items = (normalFormItems items).map stringify
  | [] => rfl
  | item :: items => by
    rw [canonicalItems, normalFormItems, List.map_cons, canonicalJson_eq item,
      canonicalItems_eq items]

theorem canonicalMembers_eq : ∀ members : List (String × JsonValue),
    canonicalMembers members = (normalFormMembers members).map (fun m => (m.fst, stringify m.snd))
  | [] => rfl
  | (key, value) :: members => by
    rw [canonicalMembers, normalFormMembers, List.map_cons, canonicalJson_eq value,
      canonicalMembers_eq members]

end

/-! ## Normal forms are kept -/

theorem unitsLE_total (as bs : List ℕ) : unitsLE as bs = true ∨ unitsLE bs as = true := by
  induction as generalizing bs with
  | nil => exact Or.inl rfl
  | cons a as ih =>
    cases bs with
    | nil => exact Or.inr rfl
    | cons b bs =>
      simp only [unitsLE]
      by_cases hab : a = b
      · rw [if_pos hab, if_pos hab.symm]
        exact ih bs
      · rw [if_neg hab, if_neg (Ne.symm hab), decide_eq_true_iff, decide_eq_true_iff]
        omega

theorem unitsLE_trans {as bs cs : List ℕ} (hab : unitsLE as bs = true)
    (hbc : unitsLE bs cs = true) : unitsLE as cs = true := by
  induction as generalizing bs cs with
  | nil => rfl
  | cons a as ih =>
    cases bs with
    | nil => cases hab
    | cons b bs =>
      cases cs with
      | nil => cases hbc
      | cons c cs =>
        simp only [unitsLE] at hab hbc ⊢
        split_ifs at hab hbc ⊢ with h1 h2 h3 h4 h5
        · exact ih hab hbc
        all_goals
          simp only [decide_eq_true_iff] at hab hbc ⊢
          omega

instance {α : Type*} : Std.Total (@memberLE α) := ⟨fun _ _ => unitsLE_total _ _⟩

instance {α : Type*} : IsTrans (String × α) memberLE := ⟨fun _ _ _ => unitsLE_trans⟩

mutual

/-- **A normal form is its own.** -/
theorem normalForm_normalForm : ∀ v : JsonValue, normalForm (normalForm v) = normalForm v
  | .null => rfl
  | .bool _ => rfl
  | .num _ => rfl
  | .str _ => rfl
  | .arr items => by rw [normalForm, normalForm, normalFormItems_normalFormItems]
  | .obj members => by
    have hkeep : ∀ m ∈ (normalFormMembers members).insertionSort memberLE,
        (m.fst, normalForm m.snd) = m := by
      intro m hm
      exact normalForm_of_mem members m ((List.mem_insertionSort _).mp hm)
    rw [normalForm, normalForm, normalFormMembers_eq, List.map_congr_left hkeep, List.map_id',
      (List.pairwise_insertionSort memberLE _).insertionSort_eq]

theorem normalFormItems_normalFormItems : ∀ items : List JsonValue,
    normalFormItems (normalFormItems items) = normalFormItems items
  | [] => rfl
  | item :: items => by
    rw [normalFormItems, normalFormItems, normalForm_normalForm item,
      normalFormItems_normalFormItems items]

theorem normalForm_of_mem : ∀ (members : List (String × JsonValue)),
    ∀ m ∈ normalFormMembers members, (m.fst, normalForm m.snd) = m
  | [] => by simp [normalFormMembers]
  | (key, value) :: members => by
    rw [normalFormMembers, List.forall_mem_cons]
    refine ⟨?_, normalForm_of_mem members⟩
    rw [normalForm_normalForm value]

end

/-! ## What the canonical text determines -/

theorem plainItems_iff (items : List JsonValue) :
    PlainItems items ↔ ∀ item ∈ items, Plain item := by
  induction items with
  | nil => simp [PlainItems]
  | cons item items ih => rw [PlainItems, ih, List.forall_mem_cons]

theorem plainMembers_iff (members : List (String × JsonValue)) :
    PlainMembers members ↔ ∀ m ∈ members, Plain m.snd := by
  induction members with
  | nil => simp [PlainMembers]
  | cons m members ih => rw [PlainMembers, ih, List.forall_mem_cons]

mutual

/-- Normal forms keep the numbers. -/
theorem plain_normalForm : ∀ v : JsonValue, Plain v → Plain (normalForm v)
  | .null, _ => trivial
  | .bool _, _ => trivial
  | .num _, h => h
  | .str _, _ => trivial
  | .arr items, h => plain_normalFormItems items h
  | .obj members, h => by
    have hmembers := (plainMembers_iff _).mp (plain_normalFormMembers members h)
    show PlainMembers _
    rw [plainMembers_iff]
    exact fun m hm => hmembers m ((List.mem_insertionSort _).mp hm)

theorem plain_normalFormItems : ∀ items : List JsonValue, PlainItems items →
    PlainItems (normalFormItems items)
  | [], _ => trivial
  | item :: items, h => ⟨plain_normalForm item h.1, plain_normalFormItems items h.2⟩

theorem plain_normalFormMembers : ∀ members : List (String × JsonValue), PlainMembers members →
    PlainMembers (normalFormMembers members)
  | [], _ => trivial
  | (_, value) :: members, h => ⟨plain_normalForm value h.1, plain_normalFormMembers members h.2⟩

end

/-- **Values of one canonical text have one normal form.** -/
theorem normalForm_eq_of_canonicalJson {a b : JsonValue} (ha : Plain a) (hb : Plain b)
    (h : canonicalJson a = canonicalJson b) : normalForm a = normalForm b := by
  rw [canonicalJson_eq, canonicalJson_eq] at h
  have hread := parse_stringify (plain_normalForm a ha)
  rw [h, parse_stringify (plain_normalForm b hb)] at hread
  exact (Option.some.inj hread).symm

/-- The members of an object whose names differ are those it lists. -/
theorem get?_eq_some {members : List (String × JsonValue)}
    (hnodup : (members.map Prod.fst).Nodup) (key : String) (value : JsonValue) :
    (JsonValue.obj members).get? key = some value ↔ (key, value) ∈ members := by
  rw [JsonValue.get?, Option.map_eq_some_iff]
  constructor
  · rintro ⟨m, hfind, rfl⟩
    have hkey : m.fst = key := by simpa using List.find?_some hfind
    rw [← hkey]
    exact List.mem_reverse.mp (List.mem_of_find?_eq_some hfind)
  · intro hmem
    cases hfind : members.reverse.find? (fun m => m.fst == key) with
    | none =>
      have hno := List.find?_eq_none.mp hfind _ (List.mem_reverse.mpr hmem)
      exact absurd (beq_self_eq_true key) hno
    | some m =>
      have hkey : m.fst = key := by simpa using List.find?_some hfind
      have hm := List.mem_reverse.mp (List.mem_of_find?_eq_some hfind)
      exact ⟨m, rfl, congrArg Prod.snd (List.inj_on_of_nodup_map hnodup hm hmem hkey)⟩

/-- **The members of a normal form** are the normal forms of the members. -/
theorem get?_normalForm {members : List (String × JsonValue)}
    (hnodup : (members.map Prod.fst).Nodup) (key : String) :
    (normalForm (.obj members)).get? key
      = ((JsonValue.obj members).get? key).map normalForm := by
  have hperm := List.perm_insertionSort memberLE (normalFormMembers members)
  have hnodup' : (((normalFormMembers members).insertionSort
      memberLE).map Prod.fst).Nodup := by
    rw [(hperm.map Prod.fst).nodup_iff, normalFormMembers_eq, List.map_map]
    exact hnodup
  ext value
  rw [normalForm, get?_eq_some hnodup', hperm.mem_iff, normalFormMembers_eq, List.mem_map,
    Option.map_eq_some_iff]
  constructor
  · rintro ⟨m, hm, heq⟩
    obtain ⟨rfl, rfl⟩ := Prod.mk.inj heq
    exact ⟨m.snd, (get?_eq_some hnodup m.fst m.snd).mpr hm, rfl⟩
  · rintro ⟨v, hv, rfl⟩
    exact ⟨(key, v), (get?_eq_some hnodup key v).mp hv, rfl⟩

/-- **Objects of one normal form have the same members**, up to their order. -/
theorem get?_eq_of_normalForm {members members' : List (String × JsonValue)}
    (hnodup : (members.map Prod.fst).Nodup) (hnodup' : (members'.map Prod.fst).Nodup)
    (h : normalForm (.obj members) = normalForm (.obj members')) (key : String) :
    ((JsonValue.obj members).get? key).map normalForm
      = ((JsonValue.obj members').get? key).map normalForm := by
  rw [← get?_normalForm hnodup, ← get?_normalForm hnodup', h]

/-- **Records of one normal form have the same fields**, each up to the order
of its own members. -/
theorem map_normalForm_of_zip {keys : List String} (hnodup : keys.Nodup)
    {values values' : List JsonValue} (hlength : values.length = keys.length)
    (hlength' : values'.length = keys.length)
    (h : normalForm (.obj (keys.zip values)) = normalForm (.obj (keys.zip values'))) :
    values.map normalForm = values'.map normalForm := by
  have hkeys : ∀ {vs : List JsonValue}, vs.length = keys.length →
      ((keys.zip vs).map Prod.fst).Nodup := by
    intro vs hvs
    rw [List.map_fst_zip (Nat.le_of_eq hvs.symm)]
    exact hnodup
  have hget : ∀ {vs : List JsonValue} (hvs : vs.length = keys.length) (i : ℕ)
      (hi : i < keys.length), (JsonValue.obj (keys.zip vs)).get? keys[i]
        = some (vs.get ⟨i, hvs ▸ hi⟩) := by
    intro vs hvs i hi
    have hzip : i < (keys.zip vs).length := by rw [List.length_zip, hvs, Nat.min_self]; exact hi
    rw [get?_eq_some (hkeys hvs)]
    have hmem := List.getElem_mem hzip
    rwa [List.getElem_zip] at hmem
  refine List.ext_getElem (by rw [List.length_map, List.length_map, hlength, hlength']) ?_
  intro i hi hi'
  rw [List.length_map, hlength] at hi
  have heq := get?_eq_of_normalForm (hkeys hlength) (hkeys hlength') h keys[i]
  rw [hget hlength i hi, hget hlength' i hi, Option.map_some, Option.map_some] at heq
  rw [List.getElem_map, List.getElem_map]
  exact Option.some.inj heq

/-- Objects of one normal form have as many members. -/
theorem length_of_normalForm {members members' : List (String × JsonValue)}
    (h : normalForm (.obj members) = normalForm (.obj members')) :
    members.length = members'.length := by
  have hlength := congrArg List.length (JsonValue.obj.inj h)
  rwa [List.length_insertionSort, List.length_insertionSort, normalFormMembers_eq,
    normalFormMembers_eq, List.length_map, List.length_map] at hlength

/-- A record whose fields have the same normal forms has the same normal form. -/
theorem normalForm_zip {keys : List String} {values values' : List JsonValue}
    (h : values.map normalForm = values'.map normalForm) :
    normalForm (.obj (keys.zip values)) = normalForm (.obj (keys.zip values')) := by
  have hmembers : ∀ vs : List JsonValue,
      normalFormMembers (keys.zip vs) = keys.zip (vs.map normalForm) := by
    intro vs
    rw [normalFormMembers_eq, List.zip_map_right]
    rfl
  rw [normalForm, normalForm, hmembers, hmembers, h]

/-- A list of texts. -/
def stringsJson (texts : List String) : JsonValue := .arr (texts.map .str)

@[simp] theorem normalForm_stringsJson (texts : List String) :
    normalForm (stringsJson texts) = stringsJson texts := by
  rw [stringsJson, normalForm, normalFormItems_eq, List.map_map]
  rfl

theorem plain_stringsJson (texts : List String) : Plain (stringsJson texts) := by
  show PlainItems _
  rw [plainItems_iff]
  intro item hitem
  obtain ⟨text, -, rfl⟩ := List.mem_map.mp hitem
  trivial

@[simp] theorem stringsJson_inj {texts texts' : List String} :
    stringsJson texts = stringsJson texts' ↔ texts = texts' := by
  rw [stringsJson, stringsJson, JsonValue.arr.injEq]
  exact (List.map_injective_iff.mpr (fun _ _ => JsonValue.str.inj)).eq_iff

/-! ## Values and columns -/

/-- A JSON value the source can hold: its numbers are finite decimals. -/
def PlainJson : Type := { value : JsonValue // Plain value }

/-- **A value of a `jsonb` column**, which keeps no order of members: a normal
form. -/
structure Jsonb where
  /-- The value. -/
  value : JsonValue
  normal : normalForm value = value
  plain : Plain value

/-- The column value of a value. -/
def Jsonb.ofJson (json : PlainJson) : Jsonb where
  value := normalForm json.val
  normal := normalForm_normalForm json.val
  plain := plain_normalForm json.val json.property

/-- What is read from a column. -/
def Jsonb.toJson (column : Jsonb) : PlainJson := ⟨column.value, column.plain⟩

theorem Jsonb.ext {a b : Jsonb} (h : a.value = b.value) : a = b := by
  cases a
  cases b
  congr

end JsonText
