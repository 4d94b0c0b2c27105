import Mathlib.Data.List.DropRight
import MsRealty.ListingDraft

/-!
# The texts of a draft

What the schema of a draft leaves alone: a text that is trimmed, a title whose
breaks are single spaces. A draft that passed the schema passes it again
(`draftSchema_toJson`).
-/

namespace Inventory

open Search

/-! ## Trimming -/

theorem toList_trim (s : String) :
    (trim s).toList = (s.toList.dropWhile isSpace).rdropWhile isSpace :=
  String.toList_ofList

theorem trim_eq_self_iff {s : String} : trim s = s ↔
    (s.toList.dropWhile isSpace).rdropWhile isSpace = s.toList := by
  rw [← toList_trim, String.toList_inj]

/-- What is left after trimming begins with no space. -/
theorem dropWhile_trimmed (l : List Char) :
    ((l.dropWhile isSpace).rdropWhile isSpace).dropWhile isSpace
      = (l.dropWhile isSpace).rdropWhile isSpace := by
  have hkept := List.rdropWhile_prefix isSpace (l.dropWhile isSpace)
  refine List.dropWhile_eq_self_iff.mpr (fun hl => ?_)
  have hlong := lt_of_lt_of_le hl hkept.length_le
  have hhead := List.dropWhile_eq_self_iff.mp (List.dropWhile_idempotent (p := isSpace) l) hlong
  rwa [hkept.getElem hl]

/-- **Trimming twice is trimming once.** -/
@[simp] theorem trim_trim (s : String) : trim (trim s) = trim s := by
  rw [trim_eq_self_iff, toList_trim, dropWhile_trimmed, List.rdropWhile_idempotent]

/-- A text without spaces is trimmed. -/
theorem trim_of_forall {s : String} (h : ∀ c ∈ s.toList, isSpace c = false) : trim s = s := by
  have hdrop : s.toList.dropWhile isSpace = s.toList :=
    List.dropWhile_eq_self_iff.mpr (fun hl => by simp [h _ (List.getElem_mem hl)])
  rw [trim_eq_self_iff, hdrop, List.rdropWhile_eq_self_iff]
  exact fun hl => by simp [h _ (List.getLast_mem hl)]

theorem trim_part (s : String) : (trim s).toList <:+: s.toList := by
  rw [toList_trim]
  exact (List.rdropWhile_prefix _ _).isInfix.trans (List.dropWhile_suffix _).isInfix

/-! ## Titles -/

/-- A text whose breaks are single spaces. -/
structure Collapsed (l : List Char) : Prop where
  space : ∀ c ∈ l, isBreak c = true → c = ' '
  single : l.IsChain (fun a b => ¬ (isBreak a = true ∧ isBreak b = true))

theorem collapsed_collapse (inRun : Bool) (l : List Char) : Collapsed (collapse inRun l) ∧
    (inRun = true → ∀ c ∈ (collapse inRun l).head?, isBreak c = false) := by
  induction l generalizing inRun with
  | nil => exact ⟨⟨by simp [collapse], List.isChain_nil⟩, by simp [collapse]⟩
  | cons c rest ih =>
    unfold collapse
    split_ifs with hbreak hrun
    · obtain ⟨hrest, hhead⟩ := ih true
      exact ⟨hrest, fun _ => hhead rfl⟩
    · obtain ⟨hrest, hhead⟩ := ih true
      refine ⟨⟨?_, ?_⟩, fun h => absurd h hrun⟩
      · exact List.forall_mem_cons.mpr ⟨fun _ => rfl, hrest.space⟩
      · refine List.isChain_cons.mpr ⟨fun b hb hboth => ?_, hrest.single⟩
        rw [hhead rfl b hb] at hboth
        exact absurd hboth.2 Bool.false_ne_true
    · obtain ⟨hrest, -⟩ := ih false
      have hno : isBreak c = false := Bool.eq_false_iff.mpr hbreak
      refine ⟨⟨?_, ?_⟩, fun _ b hb => ?_⟩
      · exact List.forall_mem_cons.mpr ⟨fun h => absurd h hbreak, hrest.space⟩
      · refine List.isChain_cons.mpr ⟨fun b _ hboth => hbreak hboth.1, hrest.single⟩
      · rw [List.head?_cons] at hb
        rwa [← Option.some.inj hb]

theorem collapse_of_collapsed {inRun : Bool} {l : List Char} (h : Collapsed l)
    (hhead : inRun = true → ∀ c ∈ l.head?, isBreak c = false) : collapse inRun l = l := by
  induction l generalizing inRun with
  | nil => rfl
  | cons c rest ih =>
    obtain ⟨hspace, hrestSpace⟩ := List.forall_mem_cons.mp h.space
    obtain ⟨hnext, hchain⟩ := List.isChain_cons.mp h.single
    unfold collapse
    split_ifs with hbreak hrun
    · rw [hhead hrun c rfl] at hbreak
      exact absurd hbreak Bool.false_ne_true
    · rw [ih ⟨hrestSpace, hchain⟩ ?_, hspace hbreak]
      exact fun _ b hb => Bool.eq_false_iff.mpr (fun hb' => hnext b hb ⟨hbreak, hb'⟩)
    · rw [ih ⟨hrestSpace, hchain⟩ (fun hfalse => absurd hfalse Bool.false_ne_true)]

theorem Collapsed.part {l l' : List Char} (h : Collapsed l) (hpart : l' <:+: l) : Collapsed l' :=
  ⟨fun c hc => h.space c (hpart.subset hc), List.IsChain.infix h.single hpart⟩

/-- **A title is its own title.** -/
@[simp] theorem titleOf_titleOf (s : String) : titleOf (titleOf s) = titleOf s := by
  have hcollapsed : Collapsed (titleOf s).toList :=
    (collapsed_collapse false s.toList).1.part (by
      have h := trim_part (String.ofList (collapse false s.toList))
      rwa [String.toList_ofList] at h)
  have hsame : collapse false (titleOf s).toList = (titleOf s).toList :=
    collapse_of_collapsed hcollapsed (fun hfalse => absurd hfalse Bool.false_ne_true)
  rw [titleOf, hsame, String.ofList_toList]
  exact trim_trim _

/-! ## The schema -/

/-- The length of a text in code units is no less than in characters. -/
theorem length_le_encode (l : List Char) : l.length ≤ (Utf16.encode l).length := by
  induction l with
  | nil => exact le_rfl
  | cons c rest ih =>
    have hone : 1 ≤ (Utf16.encodeChar c).length := by
      unfold Utf16.encodeChar
      split_ifs
      · exact le_rfl
      · exact Nat.le_succ 1
    rw [Utf16.encode, List.flatMap_cons, List.length_append, List.length_cons]
    exact le_trans (Nat.add_le_add_left hone _) ((Nat.add_comm _ _).trans_le
      (Nat.add_le_add_left ih _))

theorem within_eq_some {least most : ℕ} {s v : String} :
    within least most s = some v ↔ v = s ∧ Tx.textWithin least most s = true := by
  unfold within
  rw [Option.ite_none_right_eq_some, Option.some_inj, and_comm, eq_comm]

/-- A trimmed text between two lengths. -/
def Trimmed (least most : ℕ) (s : String) : Prop := trim s = s ∧ Tx.textWithin least most s = true

theorem trimmed_eq_some {least most : ℕ} {value : Option JsonValue} {v : String}
    (h : trimmed least most value = some v) : Trimmed least most v := by
  obtain ⟨s, -, hs⟩ := Option.bind_eq_some_iff.mp h
  obtain ⟨rfl, hlength⟩ := within_eq_some.mp hs
  exact ⟨trim_trim s, hlength⟩

theorem trimmed_str {least most : ℕ} {s : String} (h : Trimmed least most s) :
    trimmed least most (some (.str s)) = some s := by
  show within least most (trim s) = some s
  rw [h.1, within_eq_some]
  exact ⟨rfl, h.2⟩

/-- **What the schema says of a draft.** -/
structure ListingDraft.Valid (draft : ListingDraft) : Prop where
  title : titleOf draft.title = draft.title ∧ Tx.textWithin 0 180 draft.title = true
  description : Trimmed 0 12000 draft.description
  brokerNote : Tx.textWithin 0 4000 draft.brokerNote = true
  price : Trimmed 0 160 draft.price
  area : Trimmed 0 160 draft.area
  bedrooms : Trimmed 0 160 draft.bedrooms
  sourceReference : Trimmed 1 1000 draft.sourceReference

/-- A draft that the schema accepted is valid. -/
theorem valid_of_draftSchema {value : JsonValue} {draft : ListingDraft}
    (h : draftSchema value = some draft) : draft.Valid := by
  unfold draftSchema at h
  obtain ⟨rawTitle, -, h⟩ := Option.bind_eq_some_iff.mp h
  obtain ⟨title, htitle, h⟩ := Option.bind_eq_some_iff.mp h
  obtain ⟨description, hdescription, h⟩ := Option.bind_eq_some_iff.mp h
  obtain ⟨note, hnote, h⟩ := Option.bind_eq_some_iff.mp h
  obtain ⟨_, -, h⟩ := Option.bind_eq_some_iff.mp h
  obtain ⟨price, hprice, h⟩ := Option.bind_eq_some_iff.mp h
  obtain ⟨_, -, h⟩ := Option.bind_eq_some_iff.mp h
  obtain ⟨area, harea, h⟩ := Option.bind_eq_some_iff.mp h
  obtain ⟨_, -, h⟩ := Option.bind_eq_some_iff.mp h
  obtain ⟨_, -, h⟩ := Option.bind_eq_some_iff.mp h
  obtain ⟨bedrooms, hbedrooms, h⟩ := Option.bind_eq_some_iff.mp h
  obtain ⟨reference, hreference, h⟩ := Option.bind_eq_some_iff.mp h
  obtain ⟨_, -, h⟩ := Option.bind_eq_some_iff.mp h
  obtain ⟨_, -, hdraft⟩ := Option.bind_eq_some_iff.mp h
  obtain rfl := Option.some.inj hdraft
  obtain ⟨rfl, hlength⟩ := within_eq_some.mp htitle
  refine ⟨⟨titleOf_titleOf _, hlength⟩, trimmed_eq_some hdescription, ?_, trimmed_eq_some hprice,
    trimmed_eq_some harea, trimmed_eq_some hbedrooms, trimmed_eq_some hreference⟩
  cases hraw : field "brokerNote" (some value) with
  | none =>
    rw [hraw] at hnote
    obtain rfl := Option.some.inj hnote
    rfl
  | some raw =>
    rw [hraw] at hnote
    obtain ⟨s, -, hs⟩ := Option.bind_eq_some_iff.mp hnote
    obtain ⟨rfl, hlength⟩ := within_eq_some.mp hs
    exact hlength

/-- A draft as a working draft. -/
def ListingDraft.working (draft : ListingDraft) : WorkingDraft where
  title := draft.title
  description := draft.description
  brokerNote := draft.brokerNote
  priceState := draft.priceState
  price := draft.price
  areaState := draft.areaState
  area := draft.area
  areaBasis := some draft.areaBasis
  bedroomsState := draft.bedroomsState
  bedrooms := draft.bedrooms
  sourceReference := draft.sourceReference
  sourceClass := some draft.sourceClass
  sourceLanguage := draft.sourceLanguage.name

theorem member_factState (state : FactState) :
    member FactState.name FactState.all (some (.str state.name)) = some state := by
  cases state <;> decide

theorem member_areaBasis (basis : AreaBasis) :
    member AreaBasis.name AreaBasis.all (some (.str basis.name)) = some basis := by
  cases basis <;> decide

theorem member_sourceClass (sourceClass : SourceClass) :
    member SourceClass.name SourceClass.all (some (.str sourceClass.name)) = some sourceClass := by
  cases sourceClass <;> decide

theorem member_language (language : PublicLocale) :
    member PublicLocale.name sourceLanguages (some (.str language.name)) = some language := by
  cases language <;> decide

/-- The members of a working draft. -/
structure Members (value : JsonValue) (draft : WorkingDraft) : Prop where
  title : field "title" (some value) = some (.str draft.title)
  description : field "description" (some value) = some (.str draft.description)
  brokerNote : field "brokerNote" (some value) = some (.str draft.brokerNote)
  priceState : field "priceState" (some value) = some (.str draft.priceState.name)
  price : field "price" (some value) = some (.str draft.price)
  areaState : field "areaState" (some value) = some (.str draft.areaState.name)
  area : field "area" (some value) = some (.str draft.area)
  areaBasis : field "areaBasis" (some value)
    = some (.str ((draft.areaBasis.map AreaBasis.name).getD ""))
  bedroomsState : field "bedroomsState" (some value) = some (.str draft.bedroomsState.name)
  bedrooms : field "bedrooms" (some value) = some (.str draft.bedrooms)
  sourceReference : field "sourceReference" (some value) = some (.str draft.sourceReference)
  sourceClass : field "sourceClass" (some value)
    = some (.str ((draft.sourceClass.map SourceClass.name).getD ""))
  sourceLanguage : field "sourceLanguage" (some value) = some (.str draft.sourceLanguage)

theorem members_toJson (draft : WorkingDraft) : Members draft.toJson draft :=
  ⟨rfl, rfl, rfl, rfl, rfl, rfl, rfl, rfl, rfl, rfl, rfl, rfl, rfl⟩

/-- **A working draft passes the schema again** if its texts do, as the draft it
was made of. -/
theorem draftSchema_working {draft : ListingDraft} (h : draft.Valid) :
    draftSchema draft.working.toJson = some draft := by
  have hmembers := members_toJson draft.working
  generalize draft.working.toJson = value at hmembers ⊢
  have htitle : within 0 180 (titleOf draft.title) = some draft.title := by
    rw [h.title.1, within_eq_some]
    exact ⟨rfl, h.title.2⟩
  have hnote : brokerNoteOf (some (.str draft.brokerNote)) = some draft.brokerNote :=
    within_eq_some.mpr ⟨rfl, h.brokerNote⟩
  simp only [draftSchema, hmembers.title, hmembers.description, hmembers.brokerNote,
    hmembers.priceState, hmembers.price, hmembers.areaState, hmembers.area, hmembers.areaBasis,
    hmembers.bedroomsState, hmembers.bedrooms, hmembers.sourceReference, hmembers.sourceClass,
    hmembers.sourceLanguage, ListingDraft.working, Option.map_some, Option.getD_some,
    Option.bind_some, Option.bind_eq_bind, JsonValue.asString?_str, htitle, hnote,
    trimmed_str h.description, trimmed_str h.price, trimmed_str h.area, trimmed_str h.bedrooms,
    trimmed_str h.sourceReference, member_factState, member_areaBasis, member_sourceClass,
    member_language]

/-- A working draft whose price is too long does not pass. -/
theorem draftSchema_long (draft : WorkingDraft)
    (h : ¬ Tx.textWithin 0 160 (trim draft.price) = true) : draftSchema draft.toJson = none := by
  have hprice := (members_toJson draft).price
  generalize draft.toJson = value at hprice ⊢
  have hnone : trimmed 0 160 (field "price" (some value)) = none := by
    rw [hprice, trimmed, Option.bind_some, JsonValue.asString?_str, Option.bind_some, within,
      if_neg h]
  simp only [draftSchema, hnone, Option.bind_eq_bind, Option.bind_none, Option.bind_fun_none]

end Inventory
