import MsRealty.CanonicalText
import MsRealty.Facts

/-!
# What changes between two revisions of facts

A revision of the facts of a property is compared with the one before it
(`src/domain/fact-revision.ts`): a change is material if it alters a known fact,
which a public claim may rest on, or records a conflict.

Revisions that are not material keep what is known and bring no conflict
(`Kept`), and that composes. So no chain of them changes a fact that was known
before it (`harmless_chain`).
-/

namespace FactRevision

open CanonicalText

/-! ## Facts -/

/-- **The comparable content of a fact.** Without a value, a unit or a basis, the
source has none or `null` there, which it does not tell apart. -/
structure FactSnapshot where
  state : FactState
  value : JsValue
  unit : Option JsString
  basis : Option JsString

/-- **The facts of a revision**, by their keys. -/
structure FactSet where
  entries : List (JsString × FactSnapshot)
  distinct : (entries.map Prod.fst).Nodup

/-- The names every object of the source has. -/
def inheritedNames : List String :=
  ["constructor", "toString", "valueOf", "hasOwnProperty", "isPrototypeOf",
    "propertyIsEnumerable", "toLocaleString", "__proto__", "__defineGetter__", "__defineSetter__",
    "__lookupGetter__", "__lookupSetter__"]

/-- What is found under a key. -/
inductive Found where
  | own (fact : FactSnapshot)
  /-- What every object has under that name, which has none of the fields of a fact. -/
  | inherited
  | missing

/-- `facts[key]`. -/
def FactSet.get (facts : FactSet) (key : JsString) : Found :=
  match facts.entries.lookup key with
  | some fact => .own fact
  | none => if (inheritedNames.map units).contains key then .inherited else .missing

/-- The state of what is found. -/
def Found.state : Found → Option FactState
  | .own fact => some fact.state
  | _ => none

/-- A text, or `null`. -/
def textOrNull : Option JsString → JsValue
  | some text => .str text
  | none => .null

/-- The members that are compared, besides the state. -/
def FactSnapshot.members (fact : FactSnapshot) : List (JsString × JsValue) :=
  [(units "value", fact.value), (units "unit", textOrNull fact.unit),
    (units "basis", textOrNull fact.basis)]

/-- **`comparable`.** -/
def Found.comparable : Found → Option JsString
  | .own fact =>
    some (canonicalJson (.obj ((units "state", .str (units fact.state.name)) :: fact.members)))
  | .inherited =>
    some (canonicalJson (.obj (FactSnapshot.members ⟨.unknown, .null, none, none⟩)))
  | .missing => none

/-! ## Classification -/

/-- `materialChangeClasses`. -/
inductive MaterialChangeClass where
  | initial
  | none
  | nonMaterial
  | material
  deriving DecidableEq

structure FactChangeClassification where
  classification : MaterialChangeClass
  changedKeys : List JsString
  /-- The keys whose change can make a public claim inaccurate. -/
  materialKeys : List JsString

/-- The order of keys, by code unit. -/
def keyLE (a b : JsString) : Prop :=
  JsonText.unitsLE (a.map UInt16.toNat) (b.map UInt16.toNat) = true

instance : DecidableRel keyLE := fun a b => inferInstanceAs (Decidable
  (JsonText.unitsLE (a.map UInt16.toNat) (b.map UInt16.toNat) = true))

/-- The keys of a revision. -/
def FactSet.keys (facts : FactSet) : List JsString := facts.entries.map Prod.fst

/-- Whether what is found under a key differs. -/
def changed (previous next : FactSet) (key : JsString) : Bool :=
  (previous.get key).comparable != (next.get key).comparable

/-- Whether a change is material. -/
def material (previous next : FactSet) (key : JsString) : Bool :=
  (previous.get key).state == some .known || (next.get key).state == some .conflicting

/-- **`classifyFactChanges`.** -/
def classifyFactChanges (previous : Option FactSet) (next : FactSet) : FactChangeClassification :=
  match previous with
  | none => ⟨.initial, next.keys.insertionSort keyLE, []⟩
  | some previous =>
    let keys := (previous.keys ++ next.keys).dedup.insertionSort keyLE
    let changedKeys := keys.filter (changed previous next)
    let materialKeys := changedKeys.filter (material previous next)
    { classification :=
        if changedKeys.length = 0 then .none
        else if 0 < materialKeys.length then .material
        else .nonMaterial
      changedKeys := changedKeys
      materialKeys := materialKeys }

/-- **A harmless revision**: nothing changes, or nothing that is material. -/
def Harmless (previous next : FactSet) : Prop :=
  (classifyFactChanges (some previous) next).classification = .none
    ∨ (classifyFactChanges (some previous) next).classification = .nonMaterial

/-- **Two facts are the same**, in their state, value, unit and basis. -/
structure FactSnapshot.Same (fact other : FactSnapshot) : Prop where
  state : fact.state = other.state
  value : CanonicalText.Same fact.value other.value
  unit : fact.unit = other.unit
  basis : fact.basis = other.basis

/-! ## What a revision keeps -/

/-- **A revision keeps what is known and brings no conflict.** -/
structure Kept (previous next : FactSet) : Prop where
  known : ∀ key, (previous.get key).state = some .known →
    (previous.get key).comparable = (next.get key).comparable
  conflicting : ∀ key, (next.get key).state = some .conflicting →
    (previous.get key).comparable = (next.get key).comparable

theorem state_of_name {s t : FactState} (h : units s.name = units t.name) : s = t := by
  cases s <;> cases t <;> first | rfl | exact absurd h (by decide)

/-- The member of a name in a comparable content. -/
theorem same_of_members {members members' : List (JsString × JsValue)}
    (h : CanonicalText.Same (.obj members) (.obj members')) {key : JsString} {value value' : JsValue}
    (hmem : (key, value) ∈ members) (hmem' : (key, value') ∈ members')
    (hnodup : (members'.map Prod.fst).Nodup) : CanonicalText.Same value value' := by
  obtain ⟨found, hfound, hsame⟩ := membersIn_iff.mp h.2 (key, value) hmem
  have heq : (key, found) = (key, value') := List.inj_on_of_nodup_map hnodup hfound hmem' rfl
  rwa [(Prod.mk.inj heq).2] at hsame

theorem members_nodup (state : JsValue) (fact : FactSnapshot) :
    (((units "state", state) :: fact.members).map Prod.fst).Nodup := by
  show [units "state", units "value", units "unit", units "basis"].Nodup
  decide

theorem textOrNull_of_same {text text' : Option JsString}
    (h : CanonicalText.Same (textOrNull text) (textOrNull text')) : text = text' := by
  cases text <;> cases text' <;> first | rfl | exact h.elim | exact congrArg some h

/-- **Facts of one comparable content are the same.** -/
theorem same_of_comparable {fact other : FactSnapshot}
    (h : (Found.own fact).comparable = (Found.own other).comparable) : fact.Same other := by
  have hsame := same_of_canonicalJson (show canonicalJson (.obj _) = canonicalJson (.obj _) from
    Option.some.inj h)
  have hnodup := members_nodup (.str (units other.state.name)) other
  have hread : ∀ key value value', (key, value) ∈ fact.members → (key, value') ∈ other.members →
      CanonicalText.Same value value' := fun key value value' hmem hmem' =>
    same_of_members hsame (List.mem_cons_of_mem _ hmem) (List.mem_cons_of_mem _ hmem') hnodup
  exact
    { state := state_of_name (same_of_members hsame List.mem_cons_self List.mem_cons_self hnodup)
      value := hread (units "value") _ _ (by simp [FactSnapshot.members])
        (by simp [FactSnapshot.members])
      unit := textOrNull_of_same (hread (units "unit") _ _ (by simp [FactSnapshot.members])
        (by simp [FactSnapshot.members]))
      basis := textOrNull_of_same (hread (units "basis") _ _ (by simp [FactSnapshot.members])
        (by simp [FactSnapshot.members])) }

/-- **What has the comparable content of a fact is the same fact.** -/
theorem own_of_comparable {fact : FactSnapshot} {found : Found}
    (h : (Found.own fact).comparable = found.comparable) :
    ∃ other, found = .own other ∧ fact.Same other := by
  cases found with
  | own other => exact ⟨other, rfl, same_of_comparable h⟩
  | inherited =>
    have hsame := same_of_canonicalJson (show canonicalJson (.obj _) = canonicalJson (.obj _) from
      Option.some.inj h)
    have hkey := (hsame.1 (units "state")).mp List.mem_cons_self
    exact absurd hkey (by decide)
  | missing => cases h

theorem state_eq_some {found : Found} {state : FactState} (h : found.state = some state) :
    ∃ fact, found = .own fact ∧ fact.state = state := by
  cases found with
  | own fact => exact ⟨fact, rfl, Option.some.inj h⟩
  | inherited => cases h
  | missing => cases h

/-- What has one comparable content is in one state. -/
theorem state_of_comparable {found other : Found} {state : FactState}
    (h : found.comparable = other.comparable) (hstate : found.state = some state) :
    other.state = some state := by
  obtain ⟨fact, rfl, rfl⟩ := state_eq_some hstate
  obtain ⟨same, rfl, hsame⟩ := own_of_comparable h
  exact congrArg some hsame.state.symm

namespace Kept

theorem refl (facts : FactSet) : Kept facts facts := ⟨fun _ _ => rfl, fun _ _ => rfl⟩

/-- **What revisions keep, they keep one after another.** -/
theorem trans {first second third : FactSet} (h : Kept first second) (h' : Kept second third) :
    Kept first third where
  known key hknown := by
    have heq := h.known key hknown
    exact heq.trans (h'.known key (state_of_comparable heq hknown))
  conflicting key hconflict := by
    have heq := h'.conflicting key hconflict
    exact (h.conflicting key (state_of_comparable heq.symm hconflict)).trans heq

instance : Std.Refl Kept := ⟨Kept.refl⟩

instance : IsTrans FactSet Kept := ⟨fun _ _ _ => Kept.trans⟩

end Kept

/-! ## Harmless revisions -/

theorem get_eq_missing {facts : FactSet} {key : JsString} (h : key ∉ facts.keys) :
    (facts.get key).state = none := by
  have hlookup : facts.entries.lookup key = none := by
    rw [List.lookup_eq_none_iff]
    intro entry hmem
    rw [bne_iff_ne]
    rintro rfl
    exact h (List.mem_map_of_mem hmem)
  unfold FactSet.get
  rw [hlookup]
  dsimp only
  split_ifs <;> rfl

/-- The keys that are found in a state are among those compared. -/
theorem mem_keys_of_state {previous next : FactSet} {key : JsString} {state : FactState}
    (h : (previous.get key).state = some state ∨ (next.get key).state = some state) :
    key ∈ (previous.keys ++ next.keys).dedup.insertionSort keyLE := by
  rw [List.mem_insertionSort, List.mem_dedup, List.mem_append]
  by_contra hnot
  rw [not_or] at hnot
  rw [get_eq_missing hnot.1, get_eq_missing hnot.2] at h
  simp at h

/-- A revision is harmless if no changed key is material. -/
theorem harmless_iff_keys {previous next : FactSet} :
    Harmless previous next ↔ ∀ key ∈ (previous.keys ++ next.keys).dedup.insertionSort keyLE,
      changed previous next key = true → material previous next key = false := by
  set keys := (previous.keys ++ next.keys).dedup.insertionSort keyLE with hkeys
  have hclass : (classifyFactChanges (some previous) next).classification =
      if (keys.filter (changed previous next)).length = 0 then .none
      else if 0 < ((keys.filter (changed previous next)).filter (material previous next)).length
      then .material else .nonMaterial := rfl
  have hnone : (∀ key ∈ keys, changed previous next key = true →
      material previous next key = false) ↔
      (keys.filter (changed previous next)).filter (material previous next) = [] := by
    simp only [List.filter_eq_nil_iff, List.mem_filter, and_imp, Bool.not_eq_true]
  rw [hnone, Harmless, hclass]
  rcases hchanged : keys.filter (changed previous next) with - | ⟨key, rest⟩
  · simp
  · rcases hmaterial : (key :: rest).filter (material previous next) with - | ⟨other, others⟩
    · simp
    · simp

/-- **A revision is harmless if it keeps what is known and brings no conflict**,
and only then. -/
theorem harmless_iff {previous next : FactSet} : Harmless previous next ↔ Kept previous next := by
  rw [harmless_iff_keys]
  constructor
  · intro h
    -- A key that is found in a state is compared, so it has not changed.
    have hkept : ∀ key, key ∈ (previous.keys ++ next.keys).dedup.insertionSort keyLE →
        material previous next key = true →
        (previous.get key).comparable = (next.get key).comparable := by
      intro key hmem hmaterial
      by_contra hne
      have := h key hmem (bne_iff_ne.mpr hne)
      rw [hmaterial] at this
      cases this
    exact
      { known := fun key hknown => hkept key (mem_keys_of_state (.inl hknown))
          (by simp [material, hknown])
        conflicting := fun key hconflict => hkept key (mem_keys_of_state (.inr hconflict))
          (by simp [material, hconflict]) }
  · intro h key _ hchanged
    have hne := bne_iff_ne.mp hchanged
    rw [material, Bool.or_eq_false_iff]
    exact ⟨beq_false_of_ne fun hknown => hne (h.known key hknown),
      beq_false_of_ne fun hconflict => hne (h.conflicting key hconflict)⟩

/-- **A chain of harmless revisions is harmless.** A fact that is known before it
is the same fact in every later revision, and the whole chain, judged as one
revision, is harmless. So what is claimed of a known fact cannot become false by
one harmless revision after another. -/
theorem harmless_chain {first : FactSet} {later : List FactSet}
    (h : (first :: later).IsChain Harmless) :
    (∀ key fact, first.get key = .own fact → fact.state = .known →
      ∀ facts ∈ first :: later, ∃ other, facts.get key = .own other ∧ fact.Same other) ∧
    ∀ facts ∈ first :: later, Harmless first facts := by
  have hpairs : (first :: later).Pairwise Kept :=
    List.isChain_iff_pairwise.mp (h.imp fun _ _ hharmless => harmless_iff.mp hharmless)
  have hkept : ∀ facts ∈ first :: later, Kept first facts := by
    intro facts hmem
    rcases List.mem_cons.mp hmem with rfl | hlater
    · exact Kept.refl facts
    · exact (List.pairwise_cons.mp hpairs).1 facts hlater
  refine ⟨fun key fact hget hknown facts hmem => ?_,
    fun facts hmem => harmless_iff.mpr (hkept facts hmem)⟩
  have heq := (hkept facts hmem).known key (by rw [hget, Found.state, hknown])
  rw [hget] at heq
  exact own_of_comparable heq

/-- The area of a flat is known, and later its floor becomes known too. -/
def areaKnown : FactSet :=
  ⟨[(units "area", ⟨.known, .str (units "80"), some (units "sqm"), none⟩),
    (units "floor", ⟨.unknown, .null, none, none⟩)], by decide⟩

def floorKnown : FactSet :=
  ⟨[(units "area", ⟨.known, .str (units "80"), some (units "sqm"), none⟩),
    (units "floor", ⟨.known, .str (units "3"), none, none⟩)], by decide⟩

theorem harmless_floorKnown : Harmless areaKnown floorKnown := by
  right
  decide

theorem harmless_chain_floorKnown :
    (∀ key fact, areaKnown.get key = .own fact → fact.state = .known →
      ∀ facts ∈ [areaKnown, floorKnown],
        ∃ other, facts.get key = .own other ∧ fact.Same other) ∧
    ∀ facts ∈ [areaKnown, floorKnown], Harmless areaKnown facts :=
  harmless_chain (List.isChain_pair.mpr harmless_floorKnown)

end FactRevision
