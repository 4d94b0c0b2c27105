import MsRealty.ImportReview

/-!
# What an import changes of a draft

A reviewed row leaves of a stored draft what was not chosen (`Keeps`), in all but one
case. The plan proposes the language of the source for the whole draft, and choosing puts
back every member of the fields that are not chosen, but not the language of the texts that
are kept. So it is kept exactly if nothing is chosen from the source, or the source is in
the language of the draft (`chosenDraft_keeps_iff`).

A stored draft that is accepted holds what its schema reads of it, member by member
(`objectOf_recorded`), and the schema leaves a draft it has read alone. So what the plan
does not overwrite it proposes unchanged.
-/

namespace ImportReview

open Inventory Search

/-! ## The schema of a proposed draft -/

/-- What the schema makes of the texts of a draft. -/
def normalised (draft : ListingDraft) : ListingDraft :=
  { draft with
    title := titleOf draft.title
    description := trim draft.description
    price := trim draft.price
    area := trim draft.area
    bedrooms := trim draft.bedrooms
    sourceReference := trim draft.sourceReference }

theorem trimmed_eq {least most : ℕ} {s v : String} (h : trimmed least most (some (.str s)) = some v) :
    v = trim s := by
  obtain ⟨rfl, -⟩ := within_eq_some.mp (show within least most (trim s) = some v from h)
  rfl

/-- **The schema changes nothing but texts.** -/
theorem draftSchema_eq_normalised {draft candidate : ListingDraft}
    (h : draftSchema draft.working.toJson = some candidate) : candidate = normalised draft := by
  have hmembers := members_toJson draft.working
  generalize draft.working.toJson = value at hmembers h
  simp only [draftSchema, hmembers.title, hmembers.description, hmembers.brokerNote,
    hmembers.priceState, hmembers.price, hmembers.areaState, hmembers.area, hmembers.areaBasis,
    hmembers.bedroomsState, hmembers.bedrooms, hmembers.sourceReference, hmembers.sourceClass,
    hmembers.sourceLanguage, ListingDraft.working, Option.map_some, Option.getD_some,
    Option.bind_some, Option.bind_eq_bind, JsonValue.asString?_str, member_factState,
    member_areaBasis, member_sourceClass, member_language] at h
  obtain ⟨title, htitle, h⟩ := Option.bind_eq_some_iff.mp h
  obtain ⟨description, hdescription, h⟩ := Option.bind_eq_some_iff.mp h
  obtain ⟨note, hnote, h⟩ := Option.bind_eq_some_iff.mp h
  obtain ⟨price, hprice, h⟩ := Option.bind_eq_some_iff.mp h
  obtain ⟨area, harea, h⟩ := Option.bind_eq_some_iff.mp h
  obtain ⟨bedrooms, hbedrooms, h⟩ := Option.bind_eq_some_iff.mp h
  obtain ⟨reference, hreference, h⟩ := Option.bind_eq_some_iff.mp h
  obtain rfl := Option.some.inj h
  obtain ⟨rfl, -⟩ := within_eq_some.mp htitle
  obtain ⟨rfl, -⟩ := within_eq_some.mp
    (show within 0 4000 draft.brokerNote = some note from hnote)
  rw [trimmed_eq hdescription, trimmed_eq hprice, trimmed_eq harea, trimmed_eq hbedrooms,
    trimmed_eq hreference]
  rfl

/-! ## Stored drafts -/

/-- A value with the normal form of a text is that text. -/
theorem eq_str_of_normalForm {value : JsonValue} {s : String}
    (h : JsonText.normalForm value = .str s) : value = .str s := by
  cases value with
  | str t => exact h
  | null | bool _ | num _ | arr _ | obj _ => cases h

theorem plain_working (draft : WorkingDraft) : JsonText.Plain draft.toJson := by
  simp only [WorkingDraft.toJson, JsonText.Plain, JsonText.PlainMembers, and_self]

theorem objectOf_working (draft : WorkingDraft) (key : DraftKey) :
    ∃ s, objectOf draft.toJson key = some (.str s) := by
  cases key <;> exact ⟨_, rfl⟩

@[simp] theorem objectOf_description (draft : WorkingDraft) :
    objectOf draft.toJson .description = some (.str draft.description) :=
  rfl

@[simp] theorem objectOf_brokerNote (draft : WorkingDraft) :
    objectOf draft.toJson .brokerNote = some (.str draft.brokerNote) :=
  rfl

@[simp] theorem objectOf_sourceLanguage (draft : WorkingDraft) :
    objectOf draft.toJson .sourceLanguage = some (.str draft.sourceLanguage) :=
  rfl

theorem distinct_working (draft : WorkingDraft) (members : List (String × JsonValue))
    (h : draft.toJson = .obj members) : (members.map Prod.fst).Nodup := by
  obtain rfl := JsonValue.obj.inj h
  simp

/-- A draft as it is stored. -/
def storedDraft (draft : WorkingDraft) : StoredJson :=
  ⟨draft.toJson, plain_working draft, distinct_working draft⟩

/-- **A stored draft that is accepted holds what its schema reads.** -/
theorem objectOf_recorded {sha256 : List Char → String} {stored : StoredJson}
    {original : ListingDraft} (h : recordedDraft sha256 stored = some original)
    (hsha : ∀ text, sha256 text = sha256 (JsonText.canonicalJson stored.value) →
      text = JsonText.canonicalJson stored.value) :
    original.Valid ∧ objectOf stored.value = objectOf original.working.toJson := by
  obtain ⟨hread, hhash⟩ := Option.filter_eq_some_iff.mp h
  have htext := hsha _ (of_decide_eq_true hhash)
  have hnormal := JsonText.normalForm_eq_of_canonicalJson (plain_working _) stored.plain htext
  refine ⟨valid_of_draftSchema hread, ?_⟩
  obtain ⟨members, hmembers⟩ : ∃ members, stored.value = .obj members := by
    cases hvalue : stored.value with
    | obj members => exact ⟨members, rfl⟩
    | null | bool _ | num _ | str _ | arr _ =>
      rw [hvalue] at hread
      cases hread
  ext1 key
  obtain ⟨s, hs⟩ := objectOf_working original.working key
  have hnodup := stored.distinct members hmembers
  rw [hmembers] at hnormal
  have hsame := JsonText.get?_eq_of_normalForm (distinct_working _ _ rfl) hnodup hnormal key.name
  rw [show (JsonValue.obj _).get? key.name = some (.str s) from hs] at hsame
  rw [hs, hmembers]
  show (JsonValue.obj members).get? key.name = some (.str s)
  obtain ⟨value, hvalue, hstr⟩ := Option.map_eq_some_iff.mp hsame.symm
  rw [hvalue, eq_str_of_normalForm hstr]

/-- **A valid draft is recorded as it is**, under any hash. -/
theorem recordedDraft_stored {sha256 : List Char → String} {draft : ListingDraft}
    (h : draft.Valid) : recordedDraft sha256 (storedDraft draft.working) = some draft := by
  show (draftSchema draft.working.toJson).filter _ = some draft
  rw [draftSchema_working h, Option.filter_some, if_pos]
  exact decide_eq_true rfl

/-! ## Choosing -/

/-- **What is written for a field that is chosen**: its cell, as the schema leaves it, and
that it is known. -/
def ChoiceField.chosen (values : ImportField → Option String) (context : ImportContext) :
    ChoiceField → List (DraftKey × String)
  | .title => [(.title, titleOf ((values .title).getD ""))]
  | .price => [(.price, amount (values .price)), (.priceState, FactState.known.name)]
  | .area => [(.area, amount (values .area)), (.areaState, FactState.known.name),
      (.areaBasis, context.areaBasis.name)]
  | .bedrooms => [(.bedrooms, amount (values .bedrooms)), (.bedroomsState, FactState.known.name)]
  | .sourceUrl => [(.sourceReference, trim ((values .sourceUrl).getD ""))]

/-- **A draft keeps what was not chosen**, and has what was. -/
structure Keeps (stored : DraftObject) (values : ImportField → Option String)
    (context : ImportContext) (selected : ImportSelection) (draft : DraftObject) : Prop where
  /-- What belongs to fields that are not chosen. -/
  unchosen : ∀ field, selected.choices field ≠ some .source → ∀ key ∈ field.kept,
    draft key = stored key
  description : draft .description = stored .description
  brokerNote : draft .brokerNote = stored .brokerNote
  /-- The language of the texts that are kept. -/
  language : draft .sourceLanguage = stored .sourceLanguage
  /-- What belongs to fields that are. -/
  chosen : ∀ field, selected.choices field = some .source →
    ∀ member ∈ field.chosen values context, draft member.1 = some (.str member.2)

/-- Nothing is chosen from the source. -/
def NoneChosen (selected : ImportSelection) : Prop :=
  ∀ field, selected.choices field ≠ some .source

theorem mem_choiceFields (field : ChoiceField) : field ∈ choiceFields := by
  cases field <;> decide

/-- **What putting back leaves**, key by key. -/
theorem foldl_keep (selected : ImportSelection) (fields : List ChoiceField)
    (draft before : DraftObject) (key : DraftKey) :
    fields.foldl (fun draft field => if selected.choices field = some .source then draft
        else draft.keep before field.kept) draft key
      = if ∃ field ∈ fields, selected.choices field ≠ some .source ∧ key ∈ field.kept
        then before key else draft key := by
  induction fields generalizing draft with
  | nil => simp
  | cons field rest ih =>
    have hfirst : (if selected.choices field = some .source then draft
        else draft.keep before field.kept) key
          = if selected.choices field ≠ some .source ∧ key ∈ field.kept then before key
            else draft key := by
      by_cases hchosen : selected.choices field = some .source
      · rw [if_pos hchosen, if_neg fun h => h.1 hchosen]
      · rw [if_neg hchosen, DraftObject.keep]
        exact if_congr (and_iff_right hchosen).symm rfl rfl
    rw [List.foldl_cons, ih, hfirst, ← ite_or]
    refine if_congr ?_ rfl rfl
    rw [List.exists_mem_cons_iff]
    exact or_comm

/-- The field a key belongs to. -/
def DraftKey.field : DraftKey → Option ChoiceField
  | .title => some .title
  | .price | .priceState => some .price
  | .area | .areaState | .areaBasis => some .area
  | .bedrooms | .bedroomsState => some .bedrooms
  | .sourceReference => some .sourceUrl
  | .description | .brokerNote | .sourceClass | .sourceLanguage => none

theorem field_of_kept {field : ChoiceField} {key : DraftKey} (h : key ∈ field.kept) :
    key.field = some field := by
  have hall : field.kept.all (fun key => key.field = some field) = true := by
    cases field <;> rfl
  exact of_decide_eq_true (List.all_eq_true.mp hall key h)

/-- What is written for a field belongs to it. -/
theorem key_of_chosen {values : ImportField → Option String} {context : ImportContext}
    {field : ChoiceField} {member : DraftKey × String} (h : member ∈ field.chosen values context) :
    member.1 ∈ field.kept := by
  have hkeys : (field.chosen values context).map Prod.fst = field.kept := by
    cases field <;> rfl
  rw [← hkeys]
  exact List.mem_map_of_mem h

/-- A text of which commas are made points is trimmed as before. -/
theorem map_isSpace_pointed (l : List Char) : (pointed l).map isSpace = l.map isSpace := by
  induction l with
  | nil => rfl
  | cons c rest ih =>
    rw [pointed]
    split_ifs with hcomma
    · rw [hcomma]
      rfl
    · rw [List.map_cons, List.map_cons, ih]

/-- A text with spaces at the places of one that is trimmed is trimmed. -/
theorem trim_of_map_isSpace {s s' : String} (h : s'.toList.map isSpace = s.toList.map isSpace)
    (hs : trim s = s) : trim s' = s' := by
  have hlength : ∀ s : String, (trim s).toList.length
      = (((s.toList.map isSpace).dropWhile id).rdropWhile id).length := by
    intro s
    rw [toList_trim, List.dropWhile_map, List.rdropWhile, List.rdropWhile, ← List.map_reverse,
      List.dropWhile_map, List.length_reverse, List.length_reverse, List.length_map]
    rfl
  have hsame : s'.toList.length = s.toList.length := by
    simpa using congrArg List.length h
  refine String.toList_inj.mp ((trim_part s').eq_of_length ?_)
  rw [hlength, h, ← hlength, hs, hsame]

/-- An amount is trimmed. -/
theorem trim_amount (value : Option String) : trim (amount value) = amount value := by
  cases value with
  | none => rfl
  | some s =>
    refine trim_of_map_isSpace ?_ (trim_trim s)
    show (String.ofList (pointed (trim s).toList)).toList.map isSpace = _
    rw [String.toList_ofList, map_isSpace_pointed]

/-! ## Accepted rows -/

section

variable {sha256 : List Char → String} {records : Records} {row : PreviewRow}
  {context : ImportContext} {digest : String} {plan : Plan} {target : Target}
  {selected : ImportSelection}

/-- **What is known of a row that is accepted** for a stored draft. -/
structure Accepted (sha256 : List Char → String) (row : PreviewRow) (context : ImportContext)
    (digest : String) (plan : Plan) (target : Target) (selected : ImportSelection)
    (original : ListingDraft) : Prop where
  recorded : recordedDraft sha256 target.draft = some original
  target : plan.target = some target
  proposed : plan.proposedDraft = some (normalised (proposedOf (some original) row context digest))
  /-- A field that is chosen has a cell. -/
  supplied : ∀ field, (selected.choices field).isSome = true →
    ImportReview.supplied (row.values field.toField) = true

/-- A field that must be decided has a cell. -/
theorem supplied_of_required {found : Option (Listing × Property)}
    {original candidate : Option ListingDraft} {field : ImportField}
    (hfields : plan.fields = importFields.map (fieldDiff found original candidate row))
    (h : plan.required.contains field = true) : supplied (row.values field) = true := by
  obtain ⟨diff, hdiff, rfl⟩ := List.mem_map.mp (List.contains_iff_mem.mp h)
  obtain ⟨hmem, hdecision⟩ := List.mem_filter.mp hdiff
  rw [hfields] at hmem
  obtain ⟨field, -, rfl⟩ := List.mem_map.mp hmem
  simp only [fieldDiff, Bool.and_eq_true] at hdecision
  exact hdecision.1.2

theorem accepted_of_planRow (hplan : planRow sha256 records row context digest = some plan)
    (htarget : plan.target = some target) (haccepts : plan.accepts selected = true) :
    ∃ original, Accepted sha256 row context digest plan target selected original := by
  simp only [Plan.accepts, Bool.and_eq_true, decide_eq_true_eq, List.all_eq_true,
    Bool.or_eq_true] at haccepts
  obtain ⟨⟨⟨hissues, hdraft⟩, -⟩, hchoices⟩ := haccepts
  obtain ⟨candidate, hcandidate⟩ := Option.isSome_iff_exists.mp hdraft
  have hsupplied : ∀ {found original candidate},
      plan.fields = importFields.map (fieldDiff found original candidate row) →
      ∀ field, (selected.choices field).isSome = true →
        supplied (row.values field.toField) = true := by
    intro found original candidate hfields field hsome
    refine supplied_of_required hfields ((hchoices field (mem_choiceFields field)).resolve_left ?_)
    rw [Option.isNone_eq_false_iff.mpr hsome]
    exact Bool.false_ne_true
  simp only [planRow] at hplan
  split at hplan
  · next listing _ =>
    split_ifs at hplan with hcan
    · obtain rfl := Option.some.inj hplan
      cases htarget
    · obtain ⟨property, -, hplan⟩ := Option.bind_eq_some_iff.mp hplan
      obtain rfl := Option.some.inj hplan
      obtain rfl := Option.some.inj htarget
      cases horiginal : recordedDraft sha256 listing.draft with
      | none =>
        -- The row would have an issue.
        rw [horiginal] at hissues
        simp [planWith, listingIssues, issueIf] at hissues
      | some original =>
        refine ⟨original, horiginal, rfl, ?_, hsupplied rfl⟩
        rw [horiginal] at hcandidate
        rw [hcandidate, draftSchema_eq_normalised hcandidate]
  · obtain rfl := Option.some.inj hplan
    cases htarget

/-- What holds a member counts as true. -/
theorem truthy_of_get? {value v : JsonValue} {key : String} (h : value.get? key = some v) :
    value.truthy = true := by
  cases value with
  | obj members => rfl
  | null | bool _ | num _ | str _ | arr _ => cases h

/-- **The draft that is written** for an accepted row, key by key. -/
theorem chosenDraft_eq {original : ListingDraft}
    (h : Accepted sha256 row context digest plan target selected original)
    (hobject : objectOf target.draft.value = objectOf original.working.toJson) :
    ∃ draft, chosenDraft plan selected = some draft
      ∧ (NoneChosen selected → draft = objectOf target.draft.value)
      ∧ (¬ NoneChosen selected → ∀ key, draft key =
        if key = .sourceClass then some (.str SourceClass.sourceSupplied.name)
        else if ∃ field ∈ choiceFields, selected.choices field ≠ some .source ∧ key ∈ field.kept
        then objectOf target.draft.value key
        else objectOf (normalised (proposedOf (some original) row context digest)).working.toJson
          key) := by
  have htruthy : target.draft.value.truthy = true := by
    obtain ⟨s, hs⟩ := objectOf_working original.working .title
    exact truthy_of_get? ((congrFun hobject .title).trans hs)
  have hall : (choiceFields.all fun field => selected.choices field ≠ some .source) = true
      ↔ NoneChosen selected := by
    rw [List.all_eq_true]
    exact ⟨fun hall field => of_decide_eq_true (hall field (mem_choiceFields field)),
      fun hnone field _ => decide_eq_true (hnone field)⟩
  simp only [chosenDraft, h.proposed, h.target, htruthy, Option.bind_eq_bind, Option.bind_some]
  by_cases hnone : NoneChosen selected
  · rw [if_neg (by simp), if_pos (hall.mpr hnone)]
    exact ⟨_, rfl, fun _ => rfl, fun hnot => absurd hnone hnot⟩
  · rw [if_neg (by simp), if_neg (mt hall.mp hnone)]
    refine ⟨_, rfl, fun h => absurd h hnone, fun _ key => ?_⟩
    refine if_congr Iff.rfl rfl ?_
    exact foldl_keep selected choiceFields _ _ key

/-- **What is proposed for a field with a cell** is what is written for it. -/
theorem objectOf_proposed {original : Option ListingDraft} {field : ChoiceField}
    (hsupplied : supplied (row.values field.toField) = true) :
    ∀ member ∈ field.chosen row.values context,
      objectOf (normalised (proposedOf original row context digest)).working.toJson member.1
        = some (.str member.2) := by
  have hamount : ∀ {keep : String} {value : Option String}, supplied value = true →
      trim (if supplied value = true then amount value else keep) = amount value :=
    fun hvalue => (congrArg trim (if_pos hvalue)).trans (trim_amount _)
  cases field with
  | title => exact List.forall_mem_singleton.mpr rfl
  | price =>
    refine List.forall_mem_cons.mpr ⟨?_, List.forall_mem_singleton.mpr ?_⟩
    · exact congrArg (fun s => some (JsonValue.str s)) (hamount hsupplied)
    · exact congrArg (fun state => some (JsonValue.str (FactState.name state))) (if_pos hsupplied)
  | area =>
    refine List.forall_mem_cons.mpr ⟨?_, List.forall_mem_cons.mpr ⟨?_,
      List.forall_mem_singleton.mpr ?_⟩⟩
    · exact congrArg (fun s => some (JsonValue.str s)) (hamount hsupplied)
    · exact congrArg (fun state => some (JsonValue.str (FactState.name state))) (if_pos hsupplied)
    · exact congrArg (fun basis => some (JsonValue.str (AreaBasis.name basis))) (if_pos hsupplied)
  | bedrooms =>
    refine List.forall_mem_cons.mpr ⟨?_, List.forall_mem_singleton.mpr ?_⟩
    · exact congrArg (fun s => some (JsonValue.str s)) (hamount hsupplied)
    · exact congrArg (fun state => some (JsonValue.str (FactState.name state))) (if_pos hsupplied)
  | sourceUrl =>
    refine List.forall_mem_singleton.mpr ?_
    exact congrArg (fun s => some (JsonValue.str (trim s))) (if_pos hsupplied)

/-- **An accepted draft keeps what was not chosen** if and only if nothing is chosen, or the
language of the source is that of the stored draft. -/
theorem keeps_iff {original : ListingDraft} {draft : DraftObject}
    (h : Accepted sha256 row context digest plan target selected original)
    (hvalid : original.Valid)
    (hobject : objectOf target.draft.value = objectOf original.working.toJson)
    (hdraft : chosenDraft plan selected = some draft) :
    Keeps (objectOf target.draft.value) row.values context selected draft
      ↔ NoneChosen selected
        ∨ objectOf target.draft.value .sourceLanguage = some (.str context.sourceLanguage.name) := by
  obtain ⟨draft', hdraft', hnone, hsome⟩ := chosenDraft_eq h hobject
  obtain rfl := Option.some.inj (hdraft'.symm.trans hdraft)
  by_cases hchosen : NoneChosen selected
  · rw [hnone hchosen]
    refine ⟨fun _ => .inl hchosen, fun _ => ⟨fun _ _ _ _ => rfl, rfl, rfl, rfl, ?_⟩⟩
    exact fun field hfield => absurd hfield (hchosen field)
  · have heq := hsome hchosen
    -- A key that belongs to no field is as it is proposed.
    have hother : ∀ key : DraftKey, key ≠ .sourceClass → key.field = none → draft' key
        = objectOf (normalised (proposedOf (some original) row context digest)).working.toJson
          key := by
      intro key hclass hfield
      rw [heq, if_neg hclass, if_neg]
      rintro ⟨field, -, -, hkey⟩
      rw [field_of_kept hkey] at hfield
      cases hfield
    have hlanguage : draft' .sourceLanguage = some (.str context.sourceLanguage.name) := by
      rw [hother .sourceLanguage (by simp) rfl, objectOf_sourceLanguage]
      rfl
    rw [or_iff_right hchosen]
    refine ⟨fun hkeeps => hkeeps.language.symm.trans hlanguage, fun hsame => ?_⟩
    refine ⟨fun field hfield key hkey => ?_, ?_, ?_, hlanguage.trans hsame.symm,
      fun field hfield member hmember => ?_⟩
    · have hclass : key ≠ .sourceClass := by
        rintro rfl
        cases field_of_kept hkey
      rw [heq, if_neg hclass, if_pos ⟨field, mem_choiceFields field, hfield, hkey⟩]
    · rw [hother .description (by simp) rfl, hobject, objectOf_description, objectOf_description]
      exact congrArg (fun s => some (JsonValue.str s)) hvalid.description.1
    · rw [hother .brokerNote (by simp) rfl, hobject, objectOf_brokerNote, objectOf_brokerNote]
      simp only [normalised, proposedOf, ListingDraft.working, Option.getD_some]
    · have hkey := key_of_chosen hmember
      have hclass : member.1 ≠ .sourceClass := by
        intro hclass
        have hfieldOf := field_of_kept hkey
        rw [hclass] at hfieldOf
        cases hfieldOf
      rw [heq, if_neg hclass, if_neg]
      · refine objectOf_proposed (h.supplied field ?_) member hmember
        rw [hfield]
        rfl
      · rintro ⟨other, -, hnot, hotherKey⟩
        -- The key would be kept with a field that is chosen.
        have hone := (field_of_kept hotherKey).symm.trans (field_of_kept hkey)
        rw [Option.some.inj hone] at hnot
        exact hnot hfield

end

/-! ## A title that is imported -/

/-- A recorded draft, in a language. -/
def sampleRecorded (language : PublicLocale) : ListingDraft where
  title := "Two rooms"
  description := "Bright and quiet."
  brokerNote := ""
  priceState := .unknown
  price := ""
  areaState := .known
  area := "64.50"
  areaBasis := .living
  bedroomsState := .withheld
  bedrooms := ""
  sourceReference := "call of 3 May"
  sourceClass := .ownerConfirmed
  sourceLanguage := language

/-- The listing of the draft. -/
def sampleListing (language : PublicLocale) : Listing where
  id := "listing"
  reference := "MS-00001"
  propertyId := "property"
  version := 1
  purpose := .sale
  draft := storedDraft (sampleRecorded language).working
  commercialState := .available
  editorialState := .draft
  latestRevisionNumber := 0
  approvedRevisionId := none
  publicationGeneration := 0

/-- Its property. -/
def sampleProperty : Property := ⟨"property", 1, "Burgas"⟩

/-- A reviewer who may do both, and the listing. -/
def sampleRecords (language : PublicLocale) : Records where
  listings := [sampleListing language]
  properties := [sampleProperty]
  can _ _ := true

/-- A document with another title. -/
def sampleDocument : Document where
  headers := ["reference", "title"]
  rows := [⟨2, ["MS-00001", "Three rooms"]⟩]

/-- The mapping of its columns. -/
def sampleMapping : ColumnMapping
  | .reference => some 0
  | .title => some 1
  | _ => none

/-- A Bulgarian source. -/
def sampleContext : ImportContext where
  country := "BG"
  region := "Burgas"
  propertyType := .apartment
  purpose := .sale
  areaBasis := .living
  sourceLanguage := .bg

/-- Its row in the preview. -/
def sampleRow : PreviewRow where
  number := 2
  cells := ["MS-00001", "Three rooms"]
  values := valuesOf sampleMapping ["MS-00001", "Three rooms"]
  issues := rowIssues (fun _ => true) sampleDocument sampleMapping ⟨2, ["MS-00001", "Three rooms"]⟩

theorem sampleRow_mem :
    previewRows (fun _ => true) sampleDocument sampleMapping = some [sampleRow] := by
  have hvalid : validMapping sampleDocument.headers.length sampleMapping = true := by decide
  rw [previewRows, if_pos hvalid]
  rfl

/-- The title is chosen. -/
def sampleChoice : ImportSelection where
  number := 2
  choices
    | .title => some .source
    | _ => none

/-- The plan of the row. -/
def samplePlan (language : PublicLocale) : Plan :=
  planWith sampleRow sampleContext "digest" (some (sampleListing language, sampleProperty))
    (some (sampleRecorded language)) (ownIssues sampleRow ++ listingIssues sampleRow sampleContext
      (sampleListing language) sampleProperty (some (sampleRecorded language)))

theorem valid_sampleRecorded (language : PublicLocale) : (sampleRecorded language).Valid := by
  have htitle : titleOf "Two rooms" = "Two rooms" ∧ Tx.textWithin 0 180 "Two rooms" = true := by
    decide +kernel
  have hdescription : trim "Bright and quiet." = "Bright and quiet." ∧
      Tx.textWithin 0 12000 "Bright and quiet." = true := by decide +kernel
  have harea : trim "64.50" = "64.50" ∧ Tx.textWithin 0 160 "64.50" = true := by decide +kernel
  have hempty : trim "" = "" ∧ Tx.textWithin 0 160 "" = true := by decide +kernel
  have hreference : trim "call of 3 May" = "call of 3 May" ∧
      Tx.textWithin 1 1000 "call of 3 May" = true := by decide +kernel
  exact ⟨htitle, hdescription, rfl, hempty, harea, hempty, hreference⟩

theorem planRow_sample (language : PublicLocale) :
    planRow String.ofList (sampleRecords language) sampleRow sampleContext "digest"
      = some (samplePlan language) := by
  have hrecorded : recordedDraft String.ofList (sampleListing language).draft
      = some (sampleRecorded language) := recordedDraft_stored (valid_sampleRecorded language)
  have hlisting : (sampleRecords language).listings.find? (fun listing =>
      listing.reference = (sampleRow.values .reference).getD "") = some (sampleListing language) :=
    rfl
  have hproperty : (sampleRecords language).properties.find? (fun property =>
      property.id = (sampleListing language).propertyId) = some sampleProperty := rfl
  simp only [planRow, hlisting, hproperty, hrecorded]
  rfl

theorem accepts_sample (language : PublicLocale) :
    (samplePlan language).accepts sampleChoice = true := by
  cases language <;> decide +kernel

theorem validateSelection_sample {plan : Plan} (h : plan.accepts sampleChoice = true) :
    validateSelection [⟨2, plan⟩] [sampleChoice] = true := by
  show (plan.accepts sampleChoice && true) = true
  rw [h]
  rfl

end ImportReview
