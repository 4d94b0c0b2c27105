import MsRealty.DraftAmounts

/-!
# Opening a frozen draft

A draft that was frozen is shown again as a draft of the same facts, terms and
copy (`workingDraft_frozen`). Frozen untouched, it gives the same revision, or
is refused because its price is written with more characters than a draft may
have (`refreeze`): several conflicting prices, each written with its cents.
-/

namespace Inventory

open Search

/-! ## Provenance -/

theorem Trimmed.ne_empty {most : ℕ} {s : String} (h : Trimmed 1 most s) : s ≠ "" := by
  rintro rfl
  have hlength := h.2
  rw [Tx.textWithin, Bool.and_eq_true] at hlength
  exact absurd (of_decide_eq_true hlength.1) (by decide)

theorem nonempty_str {s : String} (htrim : trim s = s) (hne : s ≠ "") :
    nonempty (some (.str s)) = s := by
  show (if trim s = "" then "" else s) = s
  rw [htrim, if_neg hne]

theorem language_nonempty (language : PublicLocale) :
    nonempty (some (.str language.name)) = language.name ∧ language.name ≠ "" := by
  cases language <;> decide

/-- Sources that name one value, or none, are not mixed. -/
theorem mixed_eq_false {sources : List JsonValue} {key s : String}
    (h : ∀ source ∈ sources, nonempty (field key (some source)) = s ∨
      nonempty (field key (some source)) = "") : mixed sources key = false := by
  unfold mixed
  generalize hnamed : (sources.map (fun source => nonempty (field key (some source)))).filter
    (· ≠ "") = named
  have hall : ∀ v ∈ named, v = s := by
    intro v hv
    rw [← hnamed] at hv
    obtain ⟨hmem, hne⟩ := List.mem_filter.mp hv
    obtain ⟨source, hsource, rfl⟩ := List.mem_map.mp hmem
    exact (h source hsource).resolve_right (of_decide_eq_true hne)
  have hnodup := List.nodup_dedup named
  cases hdedup : named.dedup with
  | nil => rfl
  | cons a rest =>
    cases rest with
    | nil => rfl
    | cons b rest =>
      have ha := hall a (List.mem_dedup.mp (hdedup ▸ List.mem_cons_self))
      have hb := hall b (List.mem_dedup.mp (hdedup ▸ List.mem_cons_of_mem _ List.mem_cons_self))
      rw [hdedup, ha, hb] at hnodup
      exact absurd List.mem_cons_self (List.nodup_cons.mp hnodup).1

/-- The first source that names something, where all that do name the same. -/
theorem find?_named {sources : List JsonValue} {f : JsonValue → String} {s : String}
    (hne : s ≠ "") (hsome : ∃ source ∈ sources, f source = s)
    (hall : ∀ source ∈ sources, f source = s ∨ f source = "") :
    ∃ source ∈ sources, sources.find? (fun x => f x ≠ "") = some source ∧ f source = s := by
  obtain ⟨speaker, hspeaker, hspeaks⟩ := hsome
  cases hfind : sources.find? (fun x => f x ≠ "") with
  | none =>
    have hno := List.find?_eq_none.mp hfind speaker hspeaker
    rw [hspeaks] at hno
    exact absurd (decide_eq_true hne) hno
  | some source =>
    have hsource := List.mem_of_find?_eq_some hfind
    have hnamed : f source ≠ "" := by simpa using List.find?_some hfind
    exact ⟨source, hsource, rfl, (hall source hsource).resolve_right hnamed⟩

section Projection

variable {draft : ListingDraft} {place : Place} {purpose : ListingPurpose}
  {area bedrooms price : Option JsonValue} {rows : List RecordedFact}

/-- Every fact has the source of the draft. -/
theorem exists_fact_of_mem (hrows : rows.Perm (factRows draft place area bedrooms)) :
    ∀ fact ∈ rows, ∃ key state value unit basis,
      fact = draft.fact key state value unit basis := by
  intro fact hfact
  have hmem := hrows.mem_iff.mp hfact
  simp only [factRows, List.mem_cons, List.not_mem_nil, or_false] at hmem
  obtain rfl | rfl | rfl := hmem
  · exact ⟨_, _, _, _, _, rfl⟩
  · exact ⟨_, _, _, _, _, rfl⟩
  · exact ⟨_, _, _, _, _, rfl⟩

theorem basisOf_area (basis : AreaBasis) : basisOf ("area." ++ basis.name) = some basis := by
  cases basis <;> decide

/-- **The one area fact** of the rows, in whatever order they come. -/
theorem filter_area (hrows : rows.Perm (factRows draft place area bedrooms)) :
    rows.filter (fun fact => (basisOf fact.fieldKey).isSome) =
      [draft.fact ("area." ++ draft.areaBasis.name) draft.areaState area (some "m2")
        (some draft.areaBasis.name)] := by
  have hlocation : (basisOf "location").isSome = false := by decide
  have hbedrooms : (basisOf "bedrooms").isSome = false := by decide
  have hperm := hrows.filter (fun fact => (basisOf fact.fieldKey).isSome)
  refine List.perm_singleton.mp (hperm.trans (List.Perm.of_eq ?_))
  simp [factRows, ListingDraft.fact, hlocation, hbedrooms, basisOf_area]

/-- The fact of the bedrooms. -/
theorem find?_bedrooms (hrows : rows.Perm (factRows draft place area bedrooms)) :
    rows.find? (fun fact => fact.fieldKey = "bedrooms") =
      some (draft.fact "bedrooms" draft.bedroomsState bedrooms none none) := by
  have harea : ("area." ++ draft.areaBasis.name = "bedrooms") = False := by
    cases draft.areaBasis <;> decide
  have hperm := hrows.filter (fun fact => fact.fieldKey = "bedrooms")
  have hfilter : rows.filter (fun fact => fact.fieldKey = "bedrooms") =
      [draft.fact "bedrooms" draft.bedroomsState bedrooms none none] := by
    refine List.perm_singleton.mp (hperm.trans (List.Perm.of_eq ?_))
    simp [factRows, ListingDraft.fact, harea]
  rw [← List.head?_filter, hfilter]
  rfl

/-! ## The projection -/

/-- A source of the draft: it names the reference and the class of the draft,
and the language of the draft or none. -/
structure OfDraft (draft : ListingDraft) (source : JsonValue) : Prop where
  sourceReference : field "sourceReference" (some source) = some (.str draft.sourceReference)
  sourceClass : field "sourceClass" (some source) = some (.str draft.sourceClass.name)
  sourceLanguage : field "sourceLanguage" (some source) = some (.str draft.sourceLanguage.name) ∨
    field "sourceLanguage" (some source) = none

theorem ofDraft_price (v : Option JsonValue) : OfDraft draft (priceFact draft v) :=
  ⟨rfl, rfl, .inr rfl⟩

theorem ofDraft_fact {key : String} {state : FactState} {value : Option JsonValue}
    {unit basis : Option String} :
    OfDraft draft (draft.fact key state value unit basis).toJson :=
  ⟨rfl, rfl, .inl rfl⟩

theorem class_nonempty (sourceClass : SourceClass) :
    nonempty (some (.str sourceClass.name)) = sourceClass.name := by
  cases sourceClass <;> decide

/-- **Sources of a draft have its provenance**, if one of them names the
language. -/
theorem provenanceOf_ofDraft {sources : List JsonValue} (sourceCopy : Option JsonValue)
    (hvalid : Trimmed 1 1000 draft.sourceReference) (hall : ∀ source ∈ sources, OfDraft draft source)
    (hlanguage : ∃ source ∈ sources,
      field "sourceLanguage" (some source) = some (.str draft.sourceLanguage.name)) :
    provenanceOf sources sourceCopy =
      ⟨draft.sourceReference, some draft.sourceClass, draft.sourceLanguage.name⟩ := by
  have hne := hvalid.ne_empty
  have hreference : ∀ source ∈ sources,
      nonempty (field "sourceReference" (some source)) = draft.sourceReference := by
    intro source hsource
    rw [(hall source hsource).sourceReference, nonempty_str hvalid.1 hne]
  have hclass : ∀ source ∈ sources, classOf (some source) = some draft.sourceClass := by
    intro source hsource
    rw [classOf, (hall source hsource).sourceClass, member_sourceClass]
  have hlanguages : ∀ source ∈ sources,
      nonempty (field "sourceLanguage" (some source)) = draft.sourceLanguage.name ∨
        nonempty (field "sourceLanguage" (some source)) = "" := by
    intro source hsource
    obtain h | h := (hall source hsource).sourceLanguage
    · rw [h]
      exact .inl (language_nonempty _).1
    · rw [h]
      exact .inr rfl
  have hclassName : ∀ source ∈ sources,
      nonempty (field "sourceClass" (some source)) = draft.sourceClass.name := by
    intro source hsource
    rw [(hall source hsource).sourceClass, class_nonempty]
  obtain ⟨speaker, hspeaker, hspeaks⟩ := hlanguage
  have hspoken : nonempty (field "sourceLanguage" (some speaker)) = draft.sourceLanguage.name := by
    rw [hspeaks, (language_nonempty _).1]
  have hmixed : (mixed sources "sourceReference" || mixed sources "sourceClass"
      || mixed sources "sourceLanguage") = false := by
    rw [mixed_eq_false (s := draft.sourceReference) (fun source h => .inl (hreference source h)),
      mixed_eq_false (s := draft.sourceClass.name) (fun source h => .inl (hclassName source h)),
      mixed_eq_false (s := draft.sourceLanguage.name) hlanguages]
    rfl
  obtain ⟨source, hmem, hsource, -⟩ := find?_named
    (f := fun fact => nonempty (field "sourceReference" (some fact))) hne
    ⟨speaker, hspeaker, hreference speaker hspeaker⟩ (fun source h => .inl (hreference source h))
  have hrelated : sources.filter
      (fun fact => nonempty (field "sourceReference" (some fact)) = draft.sourceReference) =
      sources :=
    List.filter_eq_self.mpr (fun fact hfact => decide_eq_true (hreference fact hfact))
  obtain ⟨found, -, hfound, hspoken⟩ := find?_named
    (f := fun fact => nonempty (field "sourceLanguage" (some fact)))
    (language_nonempty draft.sourceLanguage).2 ⟨speaker, hspeaker, hspoken⟩ hlanguages
  have hname := (language_nonempty draft.sourceLanguage).2
  have hnamed : ∀ legacy, orElse (nonempty (field "sourceLanguage" (some source)))
      (orElse draft.sourceLanguage.name legacy) = draft.sourceLanguage.name := by
    intro legacy
    rw [orElse, orElse, if_neg hname]
    obtain h | h := hlanguages source hmem
    · rw [h, if_neg hname]
    · rw [if_pos h]
  unfold provenanceOf
  dsimp only
  rw [hmixed, hsource, Option.some_or, hreference source hmem, orElse, if_neg hne, if_neg hne,
    hrelated, hfound, hspoken, hclass source hmem, Option.some_or, if_neg Bool.false_ne_true,
    hnamed]

/-- **What a frozen draft is shown as**: the draft, with its amounts written
anew and without its private note. -/
theorem workingDraft_frozen (hvalid : draft.Valid)
    (harea : factValue draft.areaState draft.area "area" (areaValue draft.areaBasis) = .ok area)
    (hbedrooms : factValue draft.bedroomsState draft.bedrooms "bedrooms" .num = .ok bedrooms)
    (hprice : factValue draft.priceState draft.price "price" (priceValue purpose) = .ok price)
    (hrows : rows.Perm (factRows draft place area bedrooms)) :
    ∃ areaText bedroomsText priceText,
      workingDraftFrom (some (termsRow draft purpose price)) (some (sourceCopyOf draft)) rows =
        ({ draft with
          brokerNote := "", area := areaText, bedrooms := bedroomsText,
          price := priceText } : ListingDraft).working ∧
      Rewritten draft.areaState draft.area "area" (areaValue draft.areaBasis) area areaText ∧
      Rewritten draft.bedroomsState draft.bedrooms "bedrooms" .num bedrooms bedroomsText ∧
      Rewritten draft.priceState draft.price "price" (priceValue purpose) price priceText := by
  obtain ⟨areaText, hareaText, hareaWritten⟩ := editableFact_factValue
    (writes_area draft draft.areaBasis draft.areaState area) harea
    (some (draft.fact ("area." ++ draft.areaBasis.name) draft.areaState area (some "m2")
      (some draft.areaBasis.name)).toJson) rfl rfl
  obtain ⟨bedroomsText, hbedroomsText, hbedroomsWritten⟩ := editableFact_factValue writes_bedrooms
    hbedrooms
    (some (draft.fact "bedrooms" draft.bedroomsState bedrooms none none).toJson) rfl rfl
  obtain ⟨priceText, hpriceText, hpriceWritten⟩ := editableFact_factValue (writes_price purpose)
    hprice (some (priceFact draft price)) rfl rfl
  have hareaDraft : areaDraftOf rows = (some draft.areaBasis, draft.areaState, areaText) := by
    unfold areaDraftOf
    rw [filter_area hrows]
    show (basisOf ("area." ++ draft.areaBasis.name),
      editableFact _ (fun value => (basisOf ("area." ++ draft.areaBasis.name)).bind _)) = _
    rw [basisOf_area, ← hareaText]
    rfl
  have hlanguage : ∃ source ∈ priceFact draft price :: rows.map RecordedFact.toJson,
      field "sourceLanguage" (some source) = some (.str draft.sourceLanguage.name) := by
    have hmem := hrows.mem_iff.mpr (show draft.fact "bedrooms" draft.bedroomsState bedrooms none none
      ∈ factRows draft place area bedrooms by simp [factRows])
    exact ⟨_, List.mem_cons_of_mem _ (List.mem_map_of_mem hmem), rfl⟩
  have hsources : ∀ source ∈ priceFact draft price :: rows.map RecordedFact.toJson,
      OfDraft draft source := by
    refine List.forall_mem_cons.mpr ⟨ofDraft_price price, fun source hsource => ?_⟩
    obtain ⟨fact, hfact, rfl⟩ := List.mem_map.mp hsource
    obtain ⟨_, _, _, _, _, rfl⟩ := exists_fact_of_mem hrows fact hfact
    exact ofDraft_fact
  have hprovenance := provenanceOf_ofDraft (some (sourceCopyOf draft))
    hvalid.sourceReference hsources hlanguage
  have hterms : field "price" (field "facts" (some (termsRow draft purpose price))) =
      some (priceFact draft price) := rfl
  have hpurpose : field "purpose" (some (termsRow draft purpose price)) =
      some (.str purpose.name) := rfl
  have htitle : text (field "title" (field "text" (some (sourceCopyOf draft)))) = draft.title := rfl
  have hdescription : text (field "description" (field "text" (some (sourceCopyOf draft)))) =
      draft.description := rfl
  refine ⟨areaText, bedroomsText, priceText, ?_, hareaWritten, hbedroomsWritten, hpriceWritten⟩
  unfold workingDraftFrom
  dsimp only
  rw [hterms, hpurpose, htitle, hdescription, find?_bedrooms hrows, Option.map_some, hbedroomsText,
    hpriceText, hareaDraft, Option.getD_some, hprovenance]
  rfl

end Projection

/-! ## Freezing again -/

/-- **A frozen draft** has what was read of it. -/
theorem freeze_eq_ok {issues : FieldErrors} {value : JsonValue} {place : Place}
    {purpose : ListingPurpose} {frozen : Frozen} :
    freeze issues value place purpose = .ok frozen ↔ ∃ draft area bedrooms price,
      draftSchema value = some draft ∧ (draft.title ≠ "" ∧ draft.description ≠ "") ∧
      factValue draft.areaState draft.area "area" (areaValue draft.areaBasis) = .ok area ∧
      factValue draft.bedroomsState draft.bedrooms "bedrooms" .num = .ok bedrooms ∧
      factValue draft.priceState draft.price "price" (priceValue purpose) = .ok price ∧
      frozen = ⟨factRows draft place area bedrooms, termsRow draft purpose price,
        sourceCopyOf draft⟩ := by
  simp only [freeze, Tx.found_bind, Tx.demand_bind]
  simp only [factsOf, termsOf, Tx.bind_eq_ok]
  refine ⟨?_, ?_⟩
  · rintro ⟨draft, hdraft, htitle, _, ⟨area, harea, bedrooms, hbedrooms, ⟨⟩⟩, _,
      ⟨price, hprice, ⟨⟩⟩, ⟨⟩⟩
    exact ⟨draft, area, bedrooms, price, hdraft, htitle, harea, hbedrooms, hprice, rfl⟩
  · rintro ⟨draft, area, bedrooms, price, hdraft, htitle, harea, hbedrooms, hprice, rfl⟩
    exact ⟨draft, hdraft, htitle, _, ⟨area, harea, bedrooms, hbedrooms, rfl⟩, _,
      ⟨price, hprice, rfl⟩, rfl⟩

/-- A text of ASCII characters is within the characters of a text that is. -/
theorem Trimmed.of_length_le {most : ℕ} {s raw : String} (hraw : Trimmed 0 most raw)
    (htrim : trim s = s) (hascii : ∀ c ∈ s.toList, c.toNat < 0x80)
    (hle : s.toList.length ≤ raw.toList.length) : Trimmed 0 most s := by
  refine ⟨htrim, ?_⟩
  have hlength := hraw.2
  rw [Tx.textWithin, Bool.and_eq_true] at hlength ⊢
  have hmost := of_decide_eq_true hlength.2
  have hraw := length_le_encode raw.toList
  have hsame := Utf16.length_encode_ascii hascii
  exact ⟨decide_eq_true (Nat.zero_le _), decide_eq_true (by omega)⟩

/-- **Opening a frozen draft and freezing it untouched** gives the same facts,
terms and copy, or is refused: exactly if the price is written with more
characters than a draft may have, and only several conflicting prices are. -/
theorem refreeze {issues issues' : FieldErrors} {value : JsonValue} {place : Place}
    {purpose : ListingPurpose} {frozen : Frozen}
    (h : freeze issues value place purpose = .ok frozen) {rows : List RecordedFact}
    (hrows : rows.Perm frozen.facts) :
    freeze issues' (frozen.workingDraft rows).toJson place purpose =
      (if Tx.textWithin 0 160 (frozen.workingDraft rows).price then .ok frozen
        else .error (schemaError issues')) ∧
    ((frozen.workingDraft rows).priceState ≠ .conflicting →
      Tx.textWithin 0 160 (frozen.workingDraft rows).price = true) := by
  obtain ⟨draft, area, bedrooms, price, hdraft, ⟨htitle, hdescription⟩, harea, hbedrooms, hprice,
    rfl⟩ := freeze_eq_ok.mp h
  have hvalid := valid_of_draftSchema hdraft
  obtain ⟨areaText, bedroomsText, priceText, hworking, hareaText, hbedroomsText, hpriceText⟩ :=
    workingDraft_frozen hvalid harea hbedrooms hprice hrows
  have hframe : (Frozen.mk (factRows draft place area bedrooms) (termsRow draft purpose price)
      (sourceCopyOf draft)).workingDraft rows = _ := hworking
  rw [hframe]
  show freeze issues' _ place purpose = (if Tx.textWithin 0 160 priceText then _ else _) ∧
    (draft.priceState ≠ .conflicting → Tx.textWithin 0 160 priceText = true)
  have hascii := hpriceText.ascii
  refine ⟨?_, fun hstate => ?_⟩
  · split_ifs with hfits
    · refine freeze_eq_ok.mpr ⟨_, area, bedrooms, price, draftSchema_working ?_,
        ⟨htitle, hdescription⟩, hareaText.value, hbedroomsText.value, hpriceText.value, rfl⟩
      refine ⟨hvalid.title, hvalid.description, rfl, ⟨hpriceText.trimmed, hfits⟩, ?_, ?_,
        hvalid.sourceReference⟩
      · exact hvalid.area.of_length_le hareaText.trimmed hareaText.ascii
          (hareaText.length (by decide))
      · exact hvalid.bedrooms.of_length_le hbedroomsText.trimmed hbedroomsText.ascii
          (hbedroomsText.length (by decide))
    · have hnone := draftSchema_long (ListingDraft.working
        { draft with brokerNote := "", area := areaText, bedrooms := bedroomsText,
                     price := priceText }) (by
          show ¬ Tx.textWithin 0 160 (trim priceText) = true
          rwa [hpriceText.trimmed])
      unfold freeze
      rw [hnone]
      rfl
  · have hlength := hpriceText.price rfl hstate
    rw [Tx.textWithin, Utf16.length_encode_ascii hascii, Bool.and_eq_true]
    exact ⟨decide_eq_true (Nat.zero_le _), decide_eq_true (by omega)⟩

/-! ## A sample draft -/

def samplePlace : Place := ⟨"BG", "Burgas", "Sunny Beach"⟩

/-- A draft with a price. -/
def sampleDraft (priceState : FactState) (price : String) : ListingDraft where
  title := "Two rooms"
  description := "Bright and quiet."
  brokerNote := "Ask for the keys."
  priceState := priceState
  price := price
  areaState := .known
  area := "64.50"
  areaBasis := .living
  bedroomsState := .withheld
  bedrooms := ""
  sourceReference := "call of 3 May"
  sourceClass := .ownerConfirmed
  sourceLanguage := .bg

/-- A sample draft is valid if its price is. -/
theorem valid_sampleDraft {priceState : FactState} {price : String} (h : Trimmed 0 160 price) :
    (sampleDraft priceState price).Valid := by
  have htitle : titleOf "Two rooms" = "Two rooms" ∧ Tx.textWithin 0 180 "Two rooms" = true := by
    decide +kernel
  have hdescription : trim "Bright and quiet." = "Bright and quiet." ∧
      Tx.textWithin 0 12000 "Bright and quiet." = true := by decide +kernel
  have hnote : Tx.textWithin 0 4000 "Ask for the keys." = true := by decide +kernel
  have harea : trim "64.50" = "64.50" ∧ Tx.textWithin 0 160 "64.50" = true := by decide +kernel
  have hempty : trim "" = "" ∧ Tx.textWithin 0 160 "" = true := by decide +kernel
  have hreference : trim "call of 3 May" = "call of 3 May" ∧
      Tx.textWithin 1 1000 "call of 3 May" = true := by decide +kernel
  exact ⟨htitle, hdescription, hnote, h, harea, hempty, hreference⟩

/-- Its area and its bedrooms are read. -/
theorem sampleDraft_amounts (priceState : FactState) (price : String) :
    ∃ area, factValue (sampleDraft priceState price).areaState
        (sampleDraft priceState price).area "area" (areaValue .living) = .ok area ∧
      factValue (sampleDraft priceState price).bedroomsState
        (sampleDraft priceState price).bedrooms "bedrooms" .num = .ok none := by
  have hread : ReadAs ⟨['6', '4'], ['5', '0']⟩ "area" false (129 / 2) :=
    ⟨by decide +kernel, fun _ => by norm_num, by decide +kernel, fun h => (nomatch h)⟩
  have htext : PlainDecimal.ofText? "64.50".toList = some ⟨['6', '4'], ['5', '0']⟩ := by
    decide +kernel
  have harea : Reads (areaValue .living) "area" "64.50" (areaValue .living (129 / 2)) :=
    reads_eq.mpr ⟨_, (scalar_other (by decide)).mpr ⟨_, htext, hread⟩, rfl⟩
  exact ⟨_, factValue_known.mpr ⟨_, harea, rfl⟩,
    factValue_absent (show FactState.withheld ≠ .known ∧ FactState.withheld ≠ .conflicting by
      decide) ""⟩

/-- A sample draft is frozen with the value of its price. -/
theorem freeze_sampleDraft {priceState : FactState} {price : String} {v : Option JsonValue}
    (h : Trimmed 0 160 price)
    (hprice : factValue priceState price "price" (priceValue .sale) = .ok v) :
    ∃ area, freeze [] (sampleDraft priceState price).working.toJson samplePlace .sale =
      .ok ⟨factRows (sampleDraft priceState price) samplePlace area none,
        termsRow (sampleDraft priceState price) .sale v,
        sourceCopyOf (sampleDraft priceState price)⟩ := by
  obtain ⟨area, harea, hbedrooms⟩ := sampleDraft_amounts priceState price
  have hne : "Two rooms" ≠ "" ∧ "Bright and quiet." ≠ "" := by decide
  exact ⟨area, freeze_eq_ok.mpr ⟨_, area, none, v, draftSchema_working (valid_sampleDraft h), hne,
    harea, hbedrooms, hprice, rfl⟩⟩

theorem reads_one : Reads (priceValue .sale) "price" "1" (priceValue .sale 100) :=
  reads_eq.mpr ⟨100, scalar_price.mpr ⟨⟨['1'], []⟩, by decide +kernel, by decide, by
    rw [show minorUnits ⟨['1'], []⟩ = 100 by decide +kernel, Nat.cast_ofNat]⟩, rfl⟩

/-- **A draft with a known price** is frozen again as it was. -/
theorem refreeze_sample : ∃ frozen,
    freeze [] (sampleDraft .known "1").working.toJson samplePlace .sale = .ok frozen ∧
    freeze [] (frozen.workingDraft frozen.facts).toJson samplePlace .sale = .ok frozen := by
  have hone : trim "1" = "1" ∧ Tx.textWithin 0 160 "1" = true := by decide +kernel
  have hprice := factValue_known.mpr ⟨_, reads_one, rfl⟩
  obtain ⟨area, hfrozen⟩ := freeze_sampleDraft hone hprice
  obtain ⟨heq, hfits⟩ := @refreeze [] [] _ _ _ _ hfrozen _ (List.Perm.refl _)
  obtain ⟨written, hshown, -⟩ := editableFact_factValue (writes_price .sale) hprice
    (some (priceFact (sampleDraft .known "1") (some (priceValue .sale 100)))) rfl rfl
  have hstate := congrArg Prod.fst hshown
  refine ⟨_, hfrozen, heq.trans (if_pos (hfits (fun hconflicting => ?_)))⟩
  exact FactState.noConfusion (hstate.symm.trans hconflicting)

/-- The price a frozen draft is shown with. -/
theorem workingDraft_price (facts rows : List RecordedFact) (draft : ListingDraft)
    (purpose : ListingPurpose) (price : Option JsonValue) (sourceCopy : JsonValue) :
    (Frozen.workingDraft ⟨facts, termsRow draft purpose price, sourceCopy⟩ rows).price =
      (editableFact (some (priceFact draft price))
        (fun value => priceText value (some (.str purpose.name)))).snd := by
  have hterms : field "price" (field "facts" (some (termsRow draft purpose price))) =
      some (priceFact draft price) := rfl
  have hpurpose : field "purpose" (some (termsRow draft purpose price)) =
      some (.str purpose.name) := rfl
  unfold Frozen.workingDraft workingDraftFrom
  dsimp only
  rw [hterms, hpurpose]

/-- A price that is stated many times. -/
def manyPrices (price : String) : String := joinBars (List.replicate 33 price)

theorem forall₂_replicate {α β : Type} {R : α → β → Prop} {a : α} {b : β} (h : R a b) (n : ℕ) :
    List.Forall₂ R (List.replicate n a) (List.replicate n b) := by
  induction n with
  | zero => exact .nil
  | succ n ih => exact .cons h ih

/-- The length of a text that is joined of one. -/
theorem length_joinBars_replicate (s : String) (n : ℕ) :
    (joinBars (List.replicate (n + 1) s)).toList.length = (n + 1) * s.toList.length + n := by
  rw [joinBars, String.toList_ofList, List.map_replicate]
  induction n with
  | zero => simp
  | succ n ih =>
    rw [List.replicate_succ, List.replicate_succ, List.intercalate_cons_cons, List.length_append,
      List.length_append, ← List.replicate_succ, ih, List.length_singleton]
    ring

/-- Whether many prices are short enough. -/
theorem textWithin_manyPrices {price : String} (h : ∀ c ∈ price.toList, isAmount c = true) :
    trim (manyPrices price) = manyPrices price ∧ Tx.textWithin 0 160 (manyPrices price) =
      decide (33 * price.toList.length + 32 ≤ 160) := by
  have hparts : ∀ part ∈ List.replicate 33 price, ∀ c ∈ part.toList, isAmount c = true := by
    intro part hpart
    rwa [(List.mem_replicate.mp hpart).2]
  refine ⟨trim_of_forall (fun c hc => (mem_joinBars hc hparts).1), ?_⟩
  rw [Tx.textWithin, manyPrices,
    Utf16.length_encode_ascii (fun c hc => (mem_joinBars hc hparts).2),
    length_joinBars_replicate price 32]
  simp

/-- **A frozen draft that is refused when it is frozen again untouched**: its
prices are written with their cents, which is too long. -/
theorem many_prices_are_refused : ∃ frozen,
    freeze [] (sampleDraft .conflicting (manyPrices "1")).working.toJson samplePlace .sale =
      .ok frozen ∧
    ∀ again, freeze [] (frozen.workingDraft frozen.facts).toJson samplePlace .sale ≠ .ok again := by
  have hone : ∀ c ∈ "1".toList, isAmount c = true := List.all_eq_true.mp (by decide +kernel)
  have hcents : ∀ c ∈ "1.00".toList, isAmount c = true := List.all_eq_true.mp (by decide +kernel)
  have hsplit : splitBars (manyPrices "1") = List.replicate 33 "1" :=
    splitBars_joinBars (List.cons_ne_nil _ _) (fun part hpart => by
      rwa [(List.mem_replicate.mp hpart).2])
  generalize hvalues : List.replicate 33 (priceValue .sale 100) = values
  have htwo : 2 ≤ values.length := by
    rw [← hvalues, List.length_replicate]
    decide
  have hprice : factValue .conflicting (manyPrices "1") "price" (priceValue .sale) =
      .ok (some (.arr values)) := by
    refine factValue_conflicting.mpr ⟨values, ?_, ?_, rfl⟩
    · rw [hsplit, List.length_replicate]
      decide
    · rw [hsplit, ← hvalues]
      exact forall₂_replicate reads_one 33
  obtain ⟨hshort, hwithin⟩ := textWithin_manyPrices hone
  obtain ⟨area, hfrozen⟩ := freeze_sampleDraft ⟨hshort, hwithin.trans (by decide +kernel)⟩ hprice
  have hwritten : priceText (some (priceValue .sale 100)) (some (.str "sale")) = some "1.00" := by
    decide +kernel
  let format : Option JsonValue → Option String :=
    fun value => priceText value (some (.str ListingPurpose.sale.name))
  have hwrite : List.Forall₂ (fun value w => format (some value) = some w) values
      (List.replicate 33 "1.00") := by
    rw [← hvalues]
    exact forall₂_replicate (R := fun value w => format (some value) = some w) hwritten 33
  have hshown : editableFact
      (some (priceFact (sampleDraft .conflicting (manyPrices "1")) (some (.arr values)))) format =
      (.conflicting, manyPrices "1.00") :=
    editableFact_conflicting rfl rfl hwrite htwo
  obtain ⟨hshort', hwithin'⟩ := textWithin_manyPrices hcents
  refine ⟨_, hfrozen, fun again hagain => ?_⟩
  generalize hframe : Frozen.workingDraft _ _ = again' at hagain
  have hprices : again'.price = manyPrices "1.00" := by
    rw [← hframe, workingDraft_price, hshown]
  have hlong := draftSchema_long again' (by
    rw [hprices, hshort', hwithin']
    decide +kernel)
  unfold freeze at hagain
  rw [hlong] at hagain
  exact (nomatch hagain)

end Inventory
