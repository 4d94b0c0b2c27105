import MsRealty.Capabilities
import MsRealty.Facts
import MsRealty.UnparsedText

/-!
# Proposals for the text that was not understood

A provider may propose chips for the parts of a text that the interpreter left unparsed. A
proposal is taken where its evidence is found in one of these parts, and where it says
something new (`turn`); the words it used are then no longer unparsed (`mergeAssistProposals`).

Whatever is proposed, the result is the interpretation and some chips more
(`mergeAssistProposals_conservative`): what was there is kept, each new chip is marked as
proposed and quotes a part that was not understood, no value is added twice, and no word is
lost that no new chip quotes.
-/

namespace Intent

open CanonicalText

/-! ## Interpretations -/

inductive ChipConfidence where
  | certain
  | likely

/-- Who read a chip: the interpreter, or the provider. -/
inductive ChipSource where
  | rules
  | assist

/-- The features that may be asked for. -/
inductive InterpretedFeatureKey where
  | parking
  | garden
  | pool
  | furnished
  | lift
  deriving DecidableEq

def InterpretedFeatureKey.name : InterpretedFeatureKey → String
  | .parking => "parking"
  | .garden => "garden"
  | .pool => "pool"
  | .furnished => "furnished"
  | .lift => "lift"

/-- **What every chip has.** -/
structure ChipBase where
  id : JsString
  /-- The exact part of the text that the chip was read from. -/
  evidence : JsString
  span : Span
  confidence : ChipConfidence
  source : ChipSource

structure PurposeChip extends ChipBase where
  value : ListingPurpose

structure PropertyTypeChip extends ChipBase where
  value : PropertyType

structure PlaceChip extends ChipBase where
  placeId : JsString
  near : Option Bool
  broader : Option (List JsString)

structure PriceChip extends ChipBase where
  min : Option JsNumber
  max : Option JsNumber
  currency : CurrencyCode

/-- What is counted. -/
inductive CountKind where
  | rooms
  | bedrooms

def CountKind.name : CountKind → String
  | .rooms => "rooms"
  | .bedrooms => "bedrooms"

structure CountChip extends ChipBase where
  kind : CountKind
  min : Option JsNumber
  max : Option JsNumber

structure AreaChip extends ChipBase where
  basis : AreaBasis
  min : Option JsNumber
  max : Option JsNumber

structure FeatureChip extends ChipBase where
  key : InterpretedFeatureKey

/-- **A chip.** -/
inductive Chip where
  | purpose (chip : PurposeChip)
  | propertyType (chip : PropertyTypeChip)
  | place (chip : PlaceChip)
  | price (chip : PriceChip)
  | count (chip : CountChip)
  | area (chip : AreaChip)
  | feature (chip : FeatureChip)

inductive QuestionKind where
  | purpose
  | place
  | price
  | rooms
  | bedrooms
  | areaBasis
  | requirement
  | exclusion
  | floor
  | unsupported
  deriving DecidableEq

/-- **A question**, and the chips that answer it. -/
structure Question where
  id : JsString
  kind : QuestionKind
  evidence : JsString
  span : Span
  options : List Chip
  chipId : Option JsString
  topic : Option JsString

inductive PreferenceTopic where
  | center
  | quiet
  | newBuild
  | view
  | investment
  | feature (key : InterpretedFeatureKey)

/-- **A wish** that is no filter. -/
structure Preference where
  id : JsString
  topic : PreferenceTopic
  evidence : JsString
  span : Span
  options : List Chip

/-- **An interpretation of a text.** -/
structure Interpretation (text : JsString) where
  locale : PublicLocale
  purpose : Option PurposeChip
  propertyTypes : List PropertyTypeChip
  places : List PlaceChip
  price : Option PriceChip
  rooms : Option CountChip
  bedrooms : Option CountChip
  mustHave : List FeatureChip
  preferences : List Preference
  questions : List Question
  /-- The parts that were not understood. -/
  unparsed : List (TextSpan text)

/-! ## Proposals -/

/-- **A proposal** of the provider. -/
inductive AssistProposal where
  | purpose (value : ListingPurpose) (evidence : JsString)
  | propertyType (value : PropertyType) (evidence : JsString)
  | place (placeId : JsString) (evidence : JsString)
  | feature (key : InterpretedFeatureKey) (evidence : JsString)
  | count (kind : CountKind) (min max : Option JsNumber) (evidence : JsString)

def AssistProposal.evidence : AssistProposal → JsString
  | .purpose _ evidence => evidence
  | .propertyType _ evidence => evidence
  | .place _ evidence => evidence
  | .feature _ evidence => evidence
  | .count _ _ _ evidence => evidence

/-- `indexOf`, in a text. -/
def indexOf (text needle : JsString) : Option ℕ :=
  (List.range (text.length + 1)).find? fun i => needle.isPrefixOf (text.drop i)

/-- **`locate`**: where some evidence is among the parts that were not understood. -/
def locate {text : JsString} (interpretation : Interpretation text) (evidence : JsString) :
    Option Span :=
  let needle := trim evidence
  if needle.length = 0 then none
  else interpretation.unparsed.findSome? fun unparsed =>
    (indexOf unparsed.text needle).map fun i =>
      { start := unparsed.span.start + i, stop := unparsed.span.start + i + needle.length }

/-- **`chipBase`.** -/
def chipBase (text id : JsString) (span : Span) : ChipBase :=
  { id := id
    evidence := slice text span.start span.stop
    span := span
    confidence := .likely
    source := .assist }

/-- The question whether a feature is required. -/
def requirementQuestion (chip : FeatureChip) : Question :=
  { id := units "q:feature:" ++ units chip.key.name
    kind := .requirement
    evidence := chip.evidence
    span := chip.span
    options := []
    chipId := some chip.id
    topic := none }

/-- What the loop over the proposals has so far. -/
structure Merge where
  purpose : Option PurposeChip
  rooms : Option CountChip
  bedrooms : Option CountChip
  propertyTypes : List PropertyTypeChip
  places : List PlaceChip
  mustHave : List FeatureChip
  questions : List Question
  /-- The evidence that was used. -/
  spans : List Span

/-- At first it is as in the interpretation. -/
def Interpretation.merge {text : JsString} (interpretation : Interpretation text) : Merge :=
  { purpose := interpretation.purpose
    rooms := interpretation.rooms
    bedrooms := interpretation.bedrooms
    propertyTypes := interpretation.propertyTypes
    places := interpretation.places
    mustHave := interpretation.mustHave
    questions := interpretation.questions
    spans := [] }

def CountKind.question : CountKind → QuestionKind
  | .rooms => .rooms
  | .bedrooms => .bedrooms

/-- What is counted so far. -/
def Merge.count (m : Merge) : CountKind → Option CountChip
  | .rooms => m.rooms
  | .bedrooms => m.bedrooms

def Merge.setCount (m : Merge) (chip : CountChip) : Merge :=
  match chip.kind with
  | .rooms => { m with rooms := some chip }
  | .bedrooms => { m with bedrooms := some chip }

/-- **The turn of a proposal** whose evidence was found. -/
def Merge.take (text : JsString) (knownPlaceIds : JsString → Bool) (m : Merge) (span : Span) :
    AssistProposal → Merge
  | .purpose value _ =>
    if m.purpose.isSome || m.questions.any (fun q => q.kind = .purpose && 0 < q.options.length)
    then m
    else { m with
      purpose := some { chipBase text (units "purpose:" ++ units value.name) span with
        value := value }
      questions := m.questions.filter fun q => q.kind ≠ .purpose
      spans := m.spans ++ [span] }
  | .propertyType value _ =>
    if m.propertyTypes.any fun c => c.value = value then m
    else { m with
      propertyTypes := m.propertyTypes ++
        [{ chipBase text (units "type:" ++ units value.name) span with value := value }]
      spans := m.spans ++ [span] }
  | .place placeId _ =>
    if !knownPlaceIds placeId || m.places.any (fun c => c.placeId = placeId) then m
    else { m with
      places := m.places ++ [{ chipBase text (units "place:" ++ placeId) span with
        placeId := placeId, near := none, broader := none }]
      spans := m.spans ++ [span] }
  | .feature key _ =>
    if m.mustHave.any fun c => c.key = key then m
    else
      let chip : FeatureChip :=
        { chipBase text (units "feature:" ++ units key.name) span with key := key }
      { m with
        mustHave := m.mustHave ++ [chip]
        questions := m.questions ++ [requirementQuestion chip]
        spans := m.spans ++ [span] }
  | .count kind min max _ =>
    if (m.count kind).isSome || m.questions.any (fun q => q.kind = kind.question)
      || (min.isNone && max.isNone) then m
    else
      let chip : CountChip :=
        { chipBase text (units kind.name) span with kind := kind, min := min, max := max }
      { m.setCount chip with spans := m.spans ++ [span] }

/-- **The turn of a proposal.** -/
def turn {text : JsString} (interpretation : Interpretation text)
    (knownPlaceIds : JsString → Bool) (m : Merge) (proposal : AssistProposal) : Merge :=
  match locate interpretation proposal.evidence with
  | none => m
  | some span => m.take text knownPlaceIds span proposal

/-- `sort(byStart)` -/
def sortByStart {β : Type*} (span : β → Span) (items : List β) : List β :=
  items.insertionSort fun a b => (span a).start ≤ (span b).start

/-- **`mergeAssistProposals`.** -/
def mergeAssistProposals (unicode : Unicode) {text : JsString}
    (interpretation : Interpretation text) (proposals : List AssistProposal)
    (knownPlaceIds : JsString → Bool) : Interpretation text :=
  let m := proposals.foldl (turn interpretation knownPlaceIds) interpretation.merge
  if m.spans.length = 0 then interpretation
  else
    { interpretation with
      purpose := m.purpose
      propertyTypes := sortByStart (·.span) m.propertyTypes
      places := sortByStart (·.span) m.places
      rooms := m.rooms
      bedrooms := m.bedrooms
      mustHave := sortByStart (·.span) m.mustHave
      questions := sortByStart (·.span) m.questions
      unparsed := interpretation.unparsed.flatMap fun u =>
        unparsedRuns text (tokens unicode text u.span.start u.span.stop) fun t =>
          m.spans.any t.overlaps }

/-! ## What is added -/

/-- **The chips that proposals add.** -/
structure Added where
  purpose : Option PurposeChip
  propertyTypes : List PropertyTypeChip
  places : List PlaceChip
  rooms : Option CountChip
  bedrooms : Option CountChip
  mustHave : List FeatureChip

/-- Nothing. -/
def Added.none : Added :=
  { purpose := Option.none
    propertyTypes := []
    places := []
    rooms := Option.none
    bedrooms := Option.none
    mustHave := [] }

/-- All chips that are added. -/
def Added.chips (added : Added) : List ChipBase :=
  added.purpose.toList.map (·.toChipBase) ++ added.propertyTypes.map (·.toChipBase)
    ++ added.places.map (·.toChipBase) ++ added.rooms.toList.map (·.toChipBase)
    ++ added.bedrooms.toList.map (·.toChipBase) ++ added.mustHave.map (·.toChipBase)

/-- The questions that stay: a purpose that is added answers the one that asks for it. -/
def Added.kept (added : Added) (questions : List Question) : List Question :=
  if added.purpose.isSome then questions.filter fun q => q.kind ≠ .purpose else questions

/-- **A proposed chip**: it quotes a part of the text that was not understood. -/
def Quotes {text : JsString} (interpretation : Interpretation text) (chip : ChipBase) : Prop :=
  chip.source = .assist ∧ chip.evidence = slice text chip.span.start chip.span.stop
    ∧ ∃ u ∈ interpretation.unparsed, u.span.start ≤ chip.span.start ∧ chip.span.stop ≤ u.span.stop

/-- **Values that are new**, each of them once. -/
def NewValues {β ν : Type*} (value : β → ν) (added old : List β) : Prop :=
  (added.map value).Nodup ∧ ∀ a ∈ added, value a ∉ old.map value

/-- **An interpretation with some chips more.** -/
structure Conservative (unicode : Unicode) {text : JsString}
    (interpretation merged : Interpretation text) (added : Added) : Prop where
  locale : merged.locale = interpretation.locale
  price : merged.price = interpretation.price
  preferences : merged.preferences = interpretation.preferences
  /-- What is there is not replaced. -/
  purpose : merged.purpose = interpretation.purpose.or added.purpose
  purpose_new : added.purpose.isSome → interpretation.purpose = none
  rooms : merged.rooms = interpretation.rooms.or added.rooms
  rooms_new : added.rooms.isSome → interpretation.rooms = none
  bedrooms : merged.bedrooms = interpretation.bedrooms.or added.bedrooms
  bedrooms_new : added.bedrooms.isSome → interpretation.bedrooms = none
  /-- All chips are kept, and of each value one is added at most. -/
  propertyTypes : merged.propertyTypes.Perm (interpretation.propertyTypes ++ added.propertyTypes)
  propertyTypes_new : NewValues (·.value) added.propertyTypes interpretation.propertyTypes
  places : merged.places.Perm (interpretation.places ++ added.places)
  places_new : NewValues (·.placeId) added.places interpretation.places
  mustHave : merged.mustHave.Perm (interpretation.mustHave ++ added.mustHave)
  mustHave_new : NewValues (·.key) added.mustHave interpretation.mustHave
  /-- Questions are kept, but for one for the purpose that offers no answer. -/
  questions : merged.questions.Perm (added.kept interpretation.questions
    ++ added.mustHave.map requirementQuestion)
  purpose_questions : added.purpose.isSome →
    ∀ q ∈ interpretation.questions, q.kind = .purpose → q.options = []
  quotes : ∀ chip ∈ added.chips, Quotes interpretation chip
  /-- No word is lost that no new chip quotes. -/
  words : ∀ u ∈ interpretation.unparsed, ∀ t ∈ tokens unicode text u.span.start u.span.stop,
    t.isStopword = false → (∀ chip ∈ added.chips, t.span.overlaps chip.span = false) →
      ∃ v ∈ merged.unparsed, v.span.start ≤ t.span.start ∧ t.span.stop ≤ v.span.stop

/-! ## The turns -/

/-- **What holds in the loop** with what was added so far. -/
structure Merge.Adds {text : JsString} (interpretation : Interpretation text) (m : Merge)
    (added : Added) : Prop where
  purpose : m.purpose = interpretation.purpose.or added.purpose
  purpose_new : added.purpose.isSome → interpretation.purpose = none
  rooms : m.rooms = interpretation.rooms.or added.rooms
  rooms_new : added.rooms.isSome → interpretation.rooms = none
  bedrooms : m.bedrooms = interpretation.bedrooms.or added.bedrooms
  bedrooms_new : added.bedrooms.isSome → interpretation.bedrooms = none
  propertyTypes : m.propertyTypes = interpretation.propertyTypes ++ added.propertyTypes
  propertyTypes_new : NewValues (·.value) added.propertyTypes interpretation.propertyTypes
  places : m.places = interpretation.places ++ added.places
  places_new : NewValues (·.placeId) added.places interpretation.places
  mustHave : m.mustHave = interpretation.mustHave ++ added.mustHave
  mustHave_new : NewValues (·.key) added.mustHave interpretation.mustHave
  questions : m.questions = added.kept interpretation.questions
    ++ added.mustHave.map requirementQuestion
  purpose_questions : added.purpose.isSome →
    ∀ q ∈ interpretation.questions, q.kind = .purpose → q.options = []
  quotes : ∀ chip ∈ added.chips, Quotes interpretation chip
  spans : ∀ span, span ∈ m.spans ↔ ∃ chip ∈ added.chips, chip.span = span

theorem isPrefix_of_indexOf {text needle : JsString} {i : ℕ} (h : indexOf text needle = some i) :
    needle <+: text.drop i :=
  List.isPrefixOf_iff_prefix.mp (List.find?_some (p := fun i => needle.isPrefixOf (text.drop i)) h)

/-- **Evidence is found within a part that was not understood.** -/
theorem within_of_locate {text evidence : JsString} {interpretation : Interpretation text}
    {span : Span} (h : locate interpretation evidence = some span) :
    ∃ u ∈ interpretation.unparsed, u.span.start ≤ span.start ∧ span.stop ≤ u.span.stop := by
  rw [locate] at h
  split_ifs at h with hempty
  obtain ⟨u, hu, hfound⟩ := List.exists_of_findSome?_eq_some h
  obtain ⟨i, hi, rfl⟩ := Option.map_eq_some_iff.mp hfound
  refine ⟨u, hu, Nat.le_add_right _ _, ?_⟩
  -- The evidence is not empty, so that the part is not empty either.
  have hlength := (isPrefix_of_indexOf hi).length_le
  rw [List.length_drop, u.text_eq, slice, List.length_take] at hlength
  show u.span.start + i + (trim evidence).length ≤ u.span.stop
  omega

theorem quotes_chipBase {text evidence : JsString} {interpretation : Interpretation text}
    {span : Span} (h : locate interpretation evidence = some span) (id : JsString) :
    Quotes interpretation (chipBase text id span) :=
  ⟨rfl, rfl, within_of_locate h⟩

/-- A value that no chip has is new. -/
theorem NewValues.concat {β ν : Type*} {value : β → ν} {added old : List β}
    (h : NewValues value added old) {b : β} (hb : ∀ c ∈ old ++ added, value c ≠ value b) :
    NewValues value (added ++ [b]) old := by
  obtain ⟨hnodup, hnew⟩ := h
  refine ⟨?_, ?_⟩
  · rw [List.map_append]
    refine List.nodup_append.mpr ⟨hnodup, List.nodup_singleton _, ?_⟩
    intro v hv w hw heq
    obtain ⟨c, hc, rfl⟩ := List.mem_map.mp hv
    rw [List.map_singleton, List.mem_singleton] at hw
    exact hb c (List.mem_append_right _ hc) (heq.trans hw)
  · intro a ha hmem
    obtain ha | ha := List.mem_append.mp ha
    · exact hnew a ha hmem
    · rw [List.mem_singleton.mp ha] at hmem
      obtain ⟨c, hc, heq⟩ := List.mem_map.mp hmem
      exact hb c (List.mem_append_left _ hc) heq

/-- A chip more, with its evidence. -/
theorem Merge.Adds.quotes_and_spans {text : JsString} {interpretation : Interpretation text}
    {m : Merge} {added : Added} (h : m.Adds interpretation added) (added' : Added)
    (chip : ChipBase) (hchip : Quotes interpretation chip)
    (hchips : ∀ c, c ∈ added'.chips ↔ c = chip ∨ c ∈ added.chips) :
    (∀ c ∈ added'.chips, Quotes interpretation c)
      ∧ ∀ span, span ∈ m.spans ++ [chip.span] ↔ ∃ c ∈ added'.chips, c.span = span := by
  constructor
  · intro c hc
    obtain rfl | hc := (hchips c).mp hc
    · exact hchip
    · exact h.quotes c hc
  · intro span
    rw [List.mem_append, h.spans, List.mem_singleton]
    constructor
    · rintro (⟨c, hc, rfl⟩ | rfl)
      · exact ⟨c, (hchips c).mpr (Or.inr hc), rfl⟩
      · exact ⟨chip, (hchips chip).mpr (Or.inl rfl), rfl⟩
    · rintro ⟨c, hc, rfl⟩
      obtain rfl | hc := (hchips c).mp hc
      · exact Or.inr rfl
      · exact Or.inl ⟨c, hc, rfl⟩

theorem Added.mem_chips {added : Added} {c : ChipBase} : c ∈ added.chips
    ↔ c ∈ added.purpose.toList.map (·.toChipBase) ∨ c ∈ added.propertyTypes.map (·.toChipBase)
      ∨ c ∈ added.places.map (·.toChipBase) ∨ c ∈ added.rooms.toList.map (·.toChipBase)
      ∨ c ∈ added.bedrooms.toList.map (·.toChipBase) ∨ c ∈ added.mustHave.map (·.toChipBase) := by
  simp only [Added.chips, List.mem_append, or_assoc]

section Turns

variable {text : JsString} {interpretation : Interpretation text} {m : Merge} {added : Added}

/-- A purpose is added where there is none, and answers the question that offers nothing. -/
theorem Merge.Adds.add_purpose (h : m.Adds interpretation added) {chip : PurposeChip}
    (hchip : Quotes interpretation chip.toChipBase) (hnone : m.purpose = none)
    (hquestions : ∀ q ∈ m.questions, q.kind = .purpose → q.options = []) :
    Merge.Adds interpretation
      { m with
        purpose := some chip
        questions := m.questions.filter fun q => q.kind ≠ .purpose
        spans := m.spans ++ [chip.span] }
      { added with purpose := some chip } := by
  have hor := h.purpose.symm.trans hnone
  rw [Option.or_eq_none_iff] at hor
  have hkept : added.kept interpretation.questions = interpretation.questions := by
    rw [Added.kept, hor.2]
    rfl
  obtain ⟨hquotes, hspans⟩ := h.quotes_and_spans { added with purpose := some chip }
    chip.toChipBase hchip (by
      intro c
      rw [Added.mem_chips, Added.mem_chips, hor.2]
      simp only [Option.toList_some, Option.toList_none, List.map_cons, List.map_nil,
        List.mem_singleton, List.not_mem_nil, false_or])
  refine { h with
    purpose := by rw [hor.1]; rfl
    purpose_new := fun _ => hor.1
    questions := ?_
    purpose_questions := fun _ q hq => hquestions q ?_
    quotes := hquotes
    spans := hspans }
  · -- The questions of the features that were added are no questions for the purpose.
    have hfeatures : (added.mustHave.map requirementQuestion).filter
        (fun q => q.kind ≠ .purpose) = added.mustHave.map requirementQuestion := by
      refine List.filter_eq_self.mpr fun q hq => ?_
      obtain ⟨c, -, rfl⟩ := List.mem_map.mp hq
      rfl
    show m.questions.filter _ = interpretation.questions.filter _ ++ _
    rw [h.questions, hkept, List.filter_append, hfeatures]
  · rw [h.questions, hkept]
    exact List.mem_append_left _ hq

theorem Merge.Adds.add_propertyType (h : m.Adds interpretation added) {chip : PropertyTypeChip}
    (hchip : Quotes interpretation chip.toChipBase)
    (hnew : ∀ c ∈ m.propertyTypes, c.value ≠ chip.value) :
    Merge.Adds interpretation
      { m with propertyTypes := m.propertyTypes ++ [chip], spans := m.spans ++ [chip.span] }
      { added with propertyTypes := added.propertyTypes ++ [chip] } := by
  obtain ⟨hquotes, hspans⟩ := h.quotes_and_spans
    { added with propertyTypes := added.propertyTypes ++ [chip] } chip.toChipBase hchip (by
      intro c
      rw [Added.mem_chips, Added.mem_chips]
      simp only [List.map_append, List.mem_append, List.map_cons, List.map_nil,
        List.mem_singleton]
      tauto)
  rw [h.propertyTypes] at hnew
  exact { h with
    propertyTypes := by rw [h.propertyTypes, List.append_assoc]
    propertyTypes_new := h.propertyTypes_new.concat hnew
    quotes := hquotes
    spans := hspans }

theorem Merge.Adds.add_place (h : m.Adds interpretation added) {chip : PlaceChip}
    (hchip : Quotes interpretation chip.toChipBase)
    (hnew : ∀ c ∈ m.places, c.placeId ≠ chip.placeId) :
    Merge.Adds interpretation
      { m with places := m.places ++ [chip], spans := m.spans ++ [chip.span] }
      { added with places := added.places ++ [chip] } := by
  obtain ⟨hquotes, hspans⟩ := h.quotes_and_spans
    { added with places := added.places ++ [chip] } chip.toChipBase hchip (by
      intro c
      rw [Added.mem_chips, Added.mem_chips]
      simp only [List.map_append, List.mem_append, List.map_cons, List.map_nil,
        List.mem_singleton]
      tauto)
  rw [h.places] at hnew
  exact { h with
    places := by rw [h.places, List.append_assoc]
    places_new := h.places_new.concat hnew
    quotes := hquotes
    spans := hspans }

/-- A feature is added with the question whether it is required. -/
theorem Merge.Adds.add_feature (h : m.Adds interpretation added) {chip : FeatureChip}
    (hchip : Quotes interpretation chip.toChipBase)
    (hnew : ∀ c ∈ m.mustHave, c.key ≠ chip.key) :
    Merge.Adds interpretation
      { m with
        mustHave := m.mustHave ++ [chip]
        questions := m.questions ++ [requirementQuestion chip]
        spans := m.spans ++ [chip.span] }
      { added with mustHave := added.mustHave ++ [chip] } := by
  obtain ⟨hquotes, hspans⟩ := h.quotes_and_spans
    { added with mustHave := added.mustHave ++ [chip] } chip.toChipBase hchip (by
      intro c
      rw [Added.mem_chips, Added.mem_chips]
      simp only [List.map_append, List.mem_append, List.map_cons, List.map_nil,
        List.mem_singleton]
      tauto)
  rw [h.mustHave] at hnew
  exact { h with
    mustHave := by rw [h.mustHave, List.append_assoc]
    mustHave_new := h.mustHave_new.concat hnew
    questions := by
      rw [h.questions, List.append_assoc, List.map_append]
      rfl
    quotes := hquotes
    spans := hspans }

/-- A count is added where there is none. -/
theorem Merge.Adds.add_count (h : m.Adds interpretation added) {chip : CountChip}
    (hchip : Quotes interpretation chip.toChipBase) (hnone : m.count chip.kind = none) :
    ∃ added', Merge.Adds interpretation { m.setCount chip with spans := m.spans ++ [chip.span] }
      added' := by
  cases hkind : chip.kind with
  | rooms =>
    rw [hkind] at hnone
    have hor := h.rooms.symm.trans hnone
    rw [Option.or_eq_none_iff] at hor
    obtain ⟨hquotes, hspans⟩ := h.quotes_and_spans { added with rooms := some chip }
      chip.toChipBase hchip (by
        intro c
        rw [Added.mem_chips, Added.mem_chips, hor.2]
        simp only [Option.toList_some, Option.toList_none, List.map_cons, List.map_nil,
          List.mem_singleton, List.not_mem_nil, false_or]
        tauto)
    rw [Merge.setCount, hkind]
    exact ⟨{ added with rooms := some chip }, { h with
      rooms := by rw [hor.1]; rfl
      rooms_new := fun _ => hor.1
      quotes := hquotes
      spans := hspans }⟩
  | bedrooms =>
    rw [hkind] at hnone
    have hor := h.bedrooms.symm.trans hnone
    rw [Option.or_eq_none_iff] at hor
    obtain ⟨hquotes, hspans⟩ := h.quotes_and_spans { added with bedrooms := some chip }
      chip.toChipBase hchip (by
        intro c
        rw [Added.mem_chips, Added.mem_chips, hor.2]
        simp only [Option.toList_some, Option.toList_none, List.map_cons, List.map_nil,
          List.mem_singleton, List.not_mem_nil, false_or]
        tauto)
    rw [Merge.setCount, hkind]
    exact ⟨{ added with bedrooms := some chip }, { h with
      bedrooms := by rw [hor.1]; rfl
      bedrooms_new := fun _ => hor.1
      quotes := hquotes
      spans := hspans }⟩

theorem forall_ne_of_not_any {β ν : Type*} [DecidableEq ν] {value : β → ν} {items : List β}
    {v : ν} (h : ¬ (items.any fun c => value c = v) = true) : ∀ c ∈ items, value c ≠ v :=
  fun c hc heq => h (List.any_eq_true.mpr ⟨c, hc, decide_eq_true heq⟩)

/-- **A turn adds one chip at most.** -/
theorem Merge.Adds.take {knownPlaceIds : JsString → Bool} (h : m.Adds interpretation added)
    {evidence : JsString} {span : Span} (hspan : locate interpretation evidence = some span)
    (proposal : AssistProposal) :
    ∃ added', (m.take text knownPlaceIds span proposal).Adds interpretation added' := by
  cases proposal with
  | purpose value _ =>
    rw [Merge.take]
    split_ifs with hold
    · exact ⟨added, h⟩
    · rw [Bool.or_eq_true, not_or, Bool.not_eq_true, Bool.not_eq_true] at hold
      refine ⟨_, h.add_purpose (quotes_chipBase hspan _) ?_ fun q hq hkind => ?_⟩
      · simpa using hold.1
      · have hnot := List.any_eq_false.mp hold.2 q hq
        rw [Bool.and_eq_true, decide_eq_true_iff, decide_eq_true_iff, not_and] at hnot
        exact List.eq_nil_of_length_eq_zero (Nat.eq_zero_of_not_pos (hnot hkind))
  | propertyType value _ =>
    rw [Merge.take]
    split_ifs with hold
    · exact ⟨added, h⟩
    · exact ⟨_, h.add_propertyType (quotes_chipBase hspan _) (forall_ne_of_not_any hold)⟩
  | place placeId _ =>
    rw [Merge.take]
    split_ifs with hold
    · exact ⟨added, h⟩
    · rw [Bool.or_eq_true, not_or] at hold
      exact ⟨_, h.add_place (quotes_chipBase hspan _) (forall_ne_of_not_any hold.2)⟩
  | feature key _ =>
    rw [Merge.take]
    split_ifs with hold
    · exact ⟨added, h⟩
    · exact ⟨_, h.add_feature (quotes_chipBase hspan _) (forall_ne_of_not_any hold)⟩
  | count kind min max _ =>
    rw [Merge.take]
    split_ifs with hold
    · exact ⟨added, h⟩
    · rw [Bool.or_eq_true, Bool.or_eq_true, not_or, not_or] at hold
      exact h.add_count (quotes_chipBase hspan _) (by simpa using hold.1.1)

end Turns

/-! ## All proposals -/

/-- At first nothing is added. -/
theorem adds_merge {text : JsString} (interpretation : Interpretation text) :
    interpretation.merge.Adds interpretation Added.none where
  purpose := Option.or_none.symm
  purpose_new := nofun
  rooms := Option.or_none.symm
  rooms_new := nofun
  bedrooms := Option.or_none.symm
  bedrooms_new := nofun
  propertyTypes := (List.append_nil _).symm
  propertyTypes_new := ⟨List.nodup_nil, nofun⟩
  places := (List.append_nil _).symm
  places_new := ⟨List.nodup_nil, nofun⟩
  mustHave := (List.append_nil _).symm
  mustHave_new := ⟨List.nodup_nil, nofun⟩
  questions := (List.append_nil _).symm
  purpose_questions := nofun
  quotes := nofun
  spans := fun _ => ⟨nofun, fun ⟨_, hchip, _⟩ => absurd hchip List.not_mem_nil⟩

/-- **The loop adds chips to the interpretation.** -/
theorem exists_adds {text : JsString} (interpretation : Interpretation text)
    (proposals : List AssistProposal) (knownPlaceIds : JsString → Bool) :
    ∃ added, (proposals.foldl (turn interpretation knownPlaceIds) interpretation.merge).Adds
      interpretation added := by
  refine List.foldlRecOn (motive := fun m => ∃ added, Merge.Adds interpretation m added)
    proposals _ ⟨_, adds_merge interpretation⟩ ?_
  rintro m ⟨added, h⟩ proposal -
  rw [turn]
  cases hspan : locate interpretation proposal.evidence with
  | none => exact ⟨added, h⟩
  | some span => exact h.take hspan proposal

theorem perm_sortByStart {β : Type*} (span : β → Span) (items : List β) :
    (sortByStart span items).Perm items :=
  List.perm_insertionSort _ _

/-- An interpretation as it is has nothing more. -/
theorem conservative_none (unicode : Unicode) {text : JsString}
    (interpretation : Interpretation text) :
    Conservative unicode interpretation interpretation Added.none where
  locale := rfl
  price := rfl
  preferences := rfl
  purpose := Option.or_none.symm
  purpose_new := nofun
  rooms := Option.or_none.symm
  rooms_new := nofun
  bedrooms := Option.or_none.symm
  bedrooms_new := nofun
  propertyTypes := by rw [Added.none, List.append_nil]
  propertyTypes_new := ⟨List.nodup_nil, nofun⟩
  places := by rw [Added.none, List.append_nil]
  places_new := ⟨List.nodup_nil, nofun⟩
  mustHave := by rw [Added.none, List.append_nil]
  mustHave_new := ⟨List.nodup_nil, nofun⟩
  questions := by rw [Added.none, List.map_nil, List.append_nil]; rfl
  purpose_questions := nofun
  quotes := nofun
  words := fun u hu t ht _ _ => ⟨u, hu, (within_of_mem_tokens ht).2⟩

/-- **Whatever is proposed, the result is the interpretation with some chips more**: everything
is kept, the new chips quote what was not understood, and no other word of that is lost. -/
theorem mergeAssistProposals_conservative (unicode : Unicode) {text : JsString}
    (interpretation : Interpretation text) (proposals : List AssistProposal)
    (knownPlaceIds : JsString → Bool) :
    ∃ added, Conservative unicode interpretation
      (mergeAssistProposals unicode interpretation proposals knownPlaceIds) added := by
  rw [mergeAssistProposals]
  split_ifs with hempty
  · exact ⟨_, conservative_none unicode interpretation⟩
  · obtain ⟨added, h⟩ := exists_adds interpretation proposals knownPlaceIds
    refine ⟨added, { h with
      locale := rfl
      price := rfl
      preferences := rfl
      propertyTypes := h.propertyTypes ▸ perm_sortByStart _ _
      places := h.places ▸ perm_sortByStart _ _
      mustHave := h.mustHave ▸ perm_sortByStart _ _
      questions := h.questions ▸ perm_sortByStart _ _
      words := fun u hu t ht hstop hchips => ?_ }⟩
    -- A word that no new chip quotes is not covered.
    have hcovered : (proposals.foldl (turn interpretation knownPlaceIds)
        interpretation.merge).spans.any t.span.overlaps = false := by
      refine List.any_eq_false.mpr fun span hspan => ?_
      obtain ⟨chip, hchip, rfl⟩ := (h.spans span).mp hspan
      rw [hchips chip hchip]
      exact Bool.false_ne_true
    obtain ⟨run, hrun, hwithin⟩ := exists_run_of_mem
      (fun span => (proposals.foldl (turn interpretation knownPlaceIds)
        interpretation.merge).spans.any span.overlaps) ht hcovered hstop
    exact ⟨run, List.mem_flatMap.mpr ⟨u, hu, hrun⟩, hwithin⟩

end Intent
