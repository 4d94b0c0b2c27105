import MsRealty.PlainDecimal
import MsRealty.SearchInput
import MsRealty.Submissions

/-!
# Drafts of listings

The working draft of a listing (`src/server/inventory/contracts.ts`), what
freezing records of it (`src/server/inventory/commands.ts`), and the draft that
is shown for a frozen revision (`src/server/inventory/working-draft.ts`).

A draft keeps amounts as texts. Freezing reads them: a known fact has the value
of its text, a conflicting one the values between the bars of its text, and
every other fact has none. The projection writes the texts again.

Numbers are the rationals they denote. What a member access of the source
answers for a missing member, `undefined`, is `none`.
-/

namespace Inventory

open PlainDecimal Binary64 Search

/-! ## JSON of the source -/

/-- `record(value)[key]`. -/
def field (key : String) (value : Option JsonValue) : Option JsonValue :=
  value.bind (JsonValue.get? key)

/-- `text`. -/
def text (value : Option JsonValue) : String := (value.bind JsonValue.asString?).getD ""

/-- `nonempty`. -/
def nonempty (value : Option JsonValue) : String :=
  if trim (text value) = "" then "" else text value

/-- `a || b` of two strings. -/
def orElse (a b : String) : String := if a = "" then b else a

/-- `member`: the value that has the name; none stands for the empty string. -/
def member {α : Type} (name : α → String) (all : List α) (value : Option JsonValue) : Option α :=
  (value.bind JsonValue.asString?).bind (fun s => all.find? (fun a => name a = s))

/-- A string, or `null`. -/
def nullable (value : Option String) : JsonValue :=
  match value with
  | some s => .str s
  | none => .null

/-- The largest integer up to which all are numbers. -/
def maxSafeInteger : ℕ := 2 ^ 53 - 1

/-! ## The schema of a draft -/

/-- The languages of a source. -/
def sourceLanguages : List PublicLocale := [.bg, .en, .ru, .de, .nl, .el, .he]

/-- **A draft**, as its schema leaves it. -/
structure ListingDraft where
  title : String
  description : String
  /-- Private; never copied into public text. -/
  brokerNote : String
  priceState : FactState
  price : String
  areaState : FactState
  area : String
  areaBasis : AreaBasis
  bedroomsState : FactState
  bedrooms : String
  sourceReference : String
  sourceClass : SourceClass
  sourceLanguage : PublicLocale

/-- A character of `[\s\u0085]`. -/
def isBreak (c : Char) : Bool := isSpace c || c.val == 0x85

/-- `replace(/[\s\u0085]+/g, " ")`; `inRun` says that the last character was a
break. -/
def collapse (inRun : Bool) : List Char → List Char
  | [] => []
  | c :: rest =>
    if isBreak c then
      if inRun then collapse true rest else ' ' :: collapse true rest
    else c :: collapse false rest

/-- The title, as the schema leaves it. -/
def titleOf (value : String) : String := trim (String.ofList (collapse false value.toList))

/-- A string between two lengths. -/
def within (least most : ℕ) (value : String) : Option String :=
  if Tx.textWithin least most value then some value else none

/-- A trimmed string of at most so many characters. -/
def trimmed (least most : ℕ) (value : Option JsonValue) : Option String :=
  (value.bind JsonValue.asString?).bind (fun s => within least most (trim s))

/-- The note of a draft, empty if there is none. -/
def brokerNoteOf : Option JsonValue → Option String
  | none => some ""
  | some note => (JsonValue.asString? note).bind (within 0 4000)

/-- **`draftSchema`.** -/
def draftSchema (value : JsonValue) : Option ListingDraft := do
  let raw := some value
  let title ← (field "title" raw).bind JsonValue.asString?
  let title ← within 0 180 (titleOf title)
  let description ← trimmed 0 12000 (field "description" raw)
  let brokerNote ← brokerNoteOf (field "brokerNote" raw)
  let priceState ← member FactState.name FactState.all (field "priceState" raw)
  let price ← trimmed 0 160 (field "price" raw)
  let areaState ← member FactState.name FactState.all (field "areaState" raw)
  let area ← trimmed 0 160 (field "area" raw)
  let areaBasis ← member AreaBasis.name AreaBasis.all (field "areaBasis" raw)
  let bedroomsState ← member FactState.name FactState.all (field "bedroomsState" raw)
  let bedrooms ← trimmed 0 160 (field "bedrooms" raw)
  let sourceReference ← trimmed 1 1000 (field "sourceReference" raw)
  let sourceClass ← member SourceClass.name SourceClass.all (field "sourceClass" raw)
  let sourceLanguage ← member PublicLocale.name sourceLanguages (field "sourceLanguage" raw)
  some ⟨title, description, brokerNote, priceState, price, areaState, area, areaBasis,
    bedroomsState, bedrooms, sourceReference, sourceClass, sourceLanguage⟩

/-! ## Reading amounts -/

/-- A validation error of a field. -/
def invalid (key message : String) : Thrown JsonValue := Tx.fieldError .validationFailed key message

/-- `Math.round`. -/
def mathRound (q : ℚ) : ℤ := ⌊q + 1 / 2⌋

/-- Whether the hundredths of a number are a safe integer:
`Number.isSafeInteger(Math.round(n * 100))`. -/
def hundredthsSafe (n : ℚ) : Bool := mathRound (nearest (n * 100)) ≤ maxSafeInteger

/-- The cents of a plain decimal. -/
def minorUnits (d : Digits) : ℕ :=
  Nat.ofDigitChars 10 d.whole 0 * 100
    + Nat.ofDigitChars 10 (d.fraction ++ List.replicate (2 - d.fraction.length) '0') 0

/-- **`scalar`.** -/
def scalar (value : String) (key : String) (integer : Bool) : Tx ℚ := do
  let digits ← Tx.found (ofText? value.toList)
    (invalid key "Use a non-negative number, with at most two decimal places.")
  if key = "price" then
    Tx.demand (minorUnits digits ≤ maxSafeInteger) (invalid "price" "Amount is too large.")
    .ok (minorUnits digits)
  else
    let n := digits.toNumber
    Tx.demand (key = "area" → 0 < n) (invalid "area" "Area must be positive.")
    Tx.demand (hundredthsSafe n = true ∧ (integer = true → n.den = 1))
      (invalid key "Use a valid whole number.")
    .ok n

/-- `raw.split("|").map((s) => s.trim())`. -/
def splitBars (raw : String) : List String :=
  (raw.toList.splitOn '|').map (fun part => trim (String.ofList part))

/-- **`factValue`.** -/
def factValue (state : FactState) (raw key : String) (transform : ℚ → JsonValue) :
    Tx (Option JsonValue) := do
  if state ≠ .known ∧ state ≠ .conflicting then .ok none
  else
    let parts := if state = .conflicting then splitBars raw else [raw]
    Tx.demand (state = .conflicting → 2 ≤ parts.length)
      (invalid key "Record at least two conflicting values separated by |.")
    let values ← parts.mapM (fun part =>
      (scalar part key (key = "bedrooms")).map transform)
    .ok (if state = .conflicting then some (.arr values) else values.head?)

/-! ## Freezing -/

/-- What a fact of a revision says. -/
structure RecordedFact where
  fieldKey : String
  state : FactState
  value : Option JsonValue
  unit : Option String
  basis : Option String
  sourceClass : SourceClass
  sourceReference : Option String
  sourceLanguage : Option String

/-- The place of a property that freezing records. -/
structure Place where
  country : String
  region : String
  settlement : String

/-- The value of a location. -/
def Place.toJson (place : Place) : JsonValue :=
  .obj [("country", .str place.country), ("region", .str place.region),
    ("settlement", .str place.settlement), ("precision", .str "settlement")]

/-- The value of an area. -/
def areaValue (basis : AreaBasis) (n : ℚ) : JsonValue :=
  .obj [("value", .num n), ("unit", .str "m2"), ("basis", .str basis.name)]

/-- A fact of a draft, with the source of the draft. -/
def ListingDraft.fact (draft : ListingDraft) (fieldKey : String) (state : FactState)
    (value : Option JsonValue) (unit basis : Option String) : RecordedFact where
  fieldKey := fieldKey
  state := state
  value := value
  unit := unit
  basis := basis
  sourceClass := draft.sourceClass
  sourceReference := some draft.sourceReference
  sourceLanguage := some draft.sourceLanguage.name

/-- The facts of a draft, with the values that were read. -/
def factRows (draft : ListingDraft) (place : Place) (area bedrooms : Option JsonValue) :
    List RecordedFact :=
  [draft.fact "location" .known (some place.toJson) none none,
    draft.fact ("area." ++ draft.areaBasis.name) draft.areaState area (some "m2")
      (some draft.areaBasis.name),
    draft.fact "bedrooms" draft.bedroomsState bedrooms none none]

/-- **`factsOf`.** -/
def factsOf (draft : ListingDraft) (place : Place) : Tx (List RecordedFact) := do
  let area ← factValue draft.areaState draft.area "area" (areaValue draft.areaBasis)
  let bedrooms ← factValue draft.bedroomsState draft.bedrooms "bedrooms" .num
  .ok (factRows draft place area bedrooms)

/-- The value of a price. -/
def priceValue (purpose : ListingPurpose) (n : ℚ) : JsonValue :=
  .obj [("amountMinor", .num n), ("currency", .str "EUR"),
    ("period", .str (if purpose = .sale then "total" else "month")), ("basis", .str "asking")]

/-- The price fact of the terms. -/
def priceFact (draft : ListingDraft) (value : Option JsonValue) : JsonValue :=
  .obj [("state", .str draft.priceState.name), ("value", value.getD .null),
    ("sourceClass", .str draft.sourceClass.name), ("sourceReference", .str draft.sourceReference)]

/-- The terms with the price that was read. -/
def termsRow (draft : ListingDraft) (purpose : ListingPurpose) (price : Option JsonValue) :
    JsonValue :=
  .obj [("purpose", .str purpose.name), ("facts", .obj [("price", priceFact draft price)])]

/-- The terms of a revision. -/
def termsOf (draft : ListingDraft) (purpose : ListingPurpose) : Tx JsonValue := do
  let price ← factValue draft.priceState draft.price "price" (priceValue purpose)
  .ok (termsRow draft purpose price)

/-- The copy of a revision. -/
def sourceCopyOf (draft : ListingDraft) : JsonValue :=
  .obj [("locale", .str "bg"),
    ("text", .obj [("title", .str draft.title), ("description", .str draft.description)])]

/-- **What freezing records** of a draft. -/
structure Frozen where
  facts : List RecordedFact
  terms : JsonValue
  sourceCopy : JsonValue

/-- The error of a value that the schema refuses. -/
def schemaError (issues : FieldErrors) : Thrown JsonValue :=
  .appError ⟨.validationFailed, ErrorCode.validationFailed.outcome, some issues, none⟩

/-- **Freezing a draft**: it must pass its schema and have a title and a
description. `issues` are those of the schema. -/
def freeze (issues : FieldErrors) (value : JsonValue) (place : Place)
    (purpose : ListingPurpose) : Tx Frozen := do
  let draft ← Tx.found (draftSchema value) (schemaError issues)
  Tx.demand (draft.title ≠ "" ∧ draft.description ≠ "")
    (invalid "title" "Title and description are required for a review candidate.")
  let facts ← factsOf draft place
  let terms ← termsOf draft purpose
  .ok ⟨facts, terms, sourceCopyOf draft⟩

/-! ## The projection -/

/-- A fact as the record the projection reads. -/
def RecordedFact.toJson (fact : RecordedFact) : JsonValue :=
  .obj [("fieldKey", .str fact.fieldKey), ("state", .str fact.state.name),
    ("value", fact.value.getD .null), ("unit", nullable fact.unit),
    ("basis", nullable fact.basis), ("sourceClass", .str fact.sourceClass.name),
    ("sourceReference", nullable fact.sourceReference),
    ("sourceLanguage", nullable fact.sourceLanguage)]

/-- `formatted.join("|")`. -/
def joinBars (formatted : List String) : String :=
  String.ofList (['|'].intercalate (formatted.map String.toList))

/-- **`editableFact`**: the state of a fact and the text of its values. -/
def editableFact (input : Option JsonValue) (format : Option JsonValue → Option String) :
    FactState × String :=
  match member FactState.name FactState.all (field "state" input) with
  | none => (.unknown, "")
  | some .known =>
    match format (field "value" input) with
    | some formatted => (.known, formatted)
    | none => (.unknown, "")
  | some .conflicting =>
    match field "value" input with
    | some (.arr values) =>
      match values.mapM (fun value => format (some value)) with
      | some formatted =>
        if values.length < 2 then (.unknown, "") else (.conflicting, joinBars formatted)
      | none => (.unknown, "")
    | _ => (.unknown, "")
  | some state => (state, "")

/-- The purpose a JSON string names. -/
def purposeOf (value : Option JsonValue) : Option ListingPurpose :=
  member ListingPurpose.name [.sale, .longTermRent] value

/-- A number of the source that is a whole one and not negative. -/
def wholeNumber? : Option JsonValue → Option ℕ
  | some (.num n) => if n.den = 1 ∧ 0 ≤ n ∧ n ≤ maxSafeInteger then some n.num.toNat else none
  | _ => none

/-- The text of an amount in cents. -/
def centsText (minor : ℕ) : String :=
  String.ofList (Nat.toDigits 10 (minor / 100) ++ '.' :: DecimalText.zeroPad 2 (minor % 100))

/-- **`priceText`.** -/
def priceText (value purpose : Option JsonValue) : Option String := do
  let purpose ← purposeOf purpose
  let minor ← wholeNumber? (field "amountMinor" value)
  if text (field "currency" value) = "EUR"
      ∧ (member PriceBasis.name PriceBasis.all (field "basis" value)).isSome
      ∧ text (field "period" value) = (pricePeriodByPurpose purpose).name then
    some (centsText minor)
  else none

/-- **`scalarText`.** -/
def scalarText (value : Option JsonValue) (integer : Bool) : Option String :=
  match value with
  | some (.num n) =>
    if 0 ≤ n ∧ hundredthsSafe n = true ∧ (integer = true → n.den = 1)
        ∧ (ofText? (numberString n)).isSome then some (String.ofList (numberString n))
    else none
  | _ => none

/-- The basis an area fact names. -/
def basisOf (fieldKey : String) : Option AreaBasis :=
  AreaBasis.all.find? (fun basis => fieldKey = "area." ++ basis.name)

/-- The text of the area of a fact with a basis. -/
def areaText (fact : RecordedFact) (basis : AreaBasis) (value : Option JsonValue) : Option String :=
  match field "value" value with
  | some (.num n) =>
    if text (field "unit" value) = "m2" ∧ text (field "basis" value) = basis.name
        ∧ fact.unit.all (· = "m2") = true ∧ fact.basis.all (· = basis.name) = true ∧ 0 < n then
      scalarText (some (.num n)) false
    else none
  | _ => none

/-- **A working draft**: what is not there to be shown is empty. -/
structure WorkingDraft where
  title : String
  description : String
  brokerNote : String
  priceState : FactState
  price : String
  areaState : FactState
  area : String
  areaBasis : Option AreaBasis
  bedroomsState : FactState
  bedrooms : String
  sourceReference : String
  sourceClass : Option SourceClass
  sourceLanguage : String

/-- The working draft as the value of the form. -/
def WorkingDraft.toJson (draft : WorkingDraft) : JsonValue :=
  .obj [("title", .str draft.title), ("description", .str draft.description),
    ("brokerNote", .str draft.brokerNote), ("priceState", .str draft.priceState.name),
    ("price", .str draft.price), ("areaState", .str draft.areaState.name),
    ("area", .str draft.area), ("areaBasis", .str ((draft.areaBasis.map AreaBasis.name).getD "")),
    ("bedroomsState", .str draft.bedroomsState.name), ("bedrooms", .str draft.bedrooms),
    ("sourceReference", .str draft.sourceReference),
    ("sourceClass", .str ((draft.sourceClass.map SourceClass.name).getD "")),
    ("sourceLanguage", .str draft.sourceLanguage)]

/-- A source names more than one value of a key. -/
def mixed (sources : List JsonValue) (key : String) : Bool :=
  1 < ((sources.map (fun source => nonempty (field key (some source)))).filter (· ≠ "")).dedup.length

/-- The class of a source. -/
def classOf (source : Option JsonValue) : Option SourceClass :=
  member SourceClass.name SourceClass.all (field "sourceClass" source)

/-- Where the values of a working draft come from. -/
structure Provenance where
  sourceReference : String
  sourceClass : Option SourceClass
  sourceLanguage : String

/-- The provenance of a working draft: that of its sources, if they agree. -/
def provenanceOf (sources : List JsonValue) (sourceCopy : Option JsonValue) : Provenance :=
  let copyText := field "text" sourceCopy
  let source := (sources.find? (fun fact => nonempty (field "sourceReference" (some fact)) ≠ "")).or
    (sources.find? (fun fact =>
      (classOf (some fact)).isSome || nonempty (field "sourceLanguage" (some fact)) ≠ ""))
  let legacyUrl := nonempty (field "sourceUrl" copyText)
  let sourceReference := orElse (nonempty (field "sourceReference" source)) legacyUrl
  let related := if sourceReference = "" then [] else
    sources.filter (fun fact => nonempty (field "sourceReference" (some fact)) = sourceReference)
  -- a working translation is not evidence of the language of its source
  let legacyLanguage := if sourceReference ≠ "" ∧ sourceReference = legacyUrl then
      orElse (nonempty (field "locale" (field "legacySource" sourceCopy)))
        (if text (field "origin" copyText) = "legacy_source" then
          nonempty (field "locale" sourceCopy) else "")
    else ""
  if mixed sources "sourceReference" || mixed sources "sourceClass"
      || mixed sources "sourceLanguage" then ⟨"", none, ""⟩
  else
    { sourceReference := sourceReference
      sourceClass := (classOf source).or
        (classOf (related.find? (fun fact => (classOf (some fact)).isSome)))
      sourceLanguage := orElse (nonempty (field "sourceLanguage" source))
        (orElse (nonempty (field "sourceLanguage"
            (related.find? (fun fact => nonempty (field "sourceLanguage" (some fact)) ≠ ""))))
          legacyLanguage) }

/-- The area of a working draft: the basis, the state and the text of the one
area fact. Two bases need a choice. -/
def areaDraftOf (facts : List RecordedFact) : Option AreaBasis × FactState × String :=
  match facts.filter (fun fact => (basisOf fact.fieldKey).isSome) with
  | [fact] => (basisOf fact.fieldKey, editableFact (some fact.toJson) (fun value =>
      (basisOf fact.fieldKey).bind (fun basis => areaText fact basis value)))
  | _ => (none, .unknown, "")

/-- **`workingDraftFrom`**: the terms and the copy of a revision, and its facts. -/
def workingDraftFrom (terms sourceCopy : Option JsonValue) (facts : List RecordedFact) :
    WorkingDraft :=
  let price := field "price" (field "facts" terms)
  let copyText := field "text" sourceCopy
  let priceDraft := editableFact price (fun value => priceText value (field "purpose" terms))
  let areaDraft := areaDraftOf facts
  let bedrooms := editableFact
    ((facts.find? (fun fact => fact.fieldKey = "bedrooms")).map RecordedFact.toJson)
    (fun value => scalarText value true)
  let provenance := provenanceOf (price.getD (.obj []) :: facts.map RecordedFact.toJson) sourceCopy
  { title := text (field "title" copyText)
    description := text (field "description" copyText)
    brokerNote := ""
    priceState := priceDraft.fst
    price := priceDraft.snd
    areaState := areaDraft.snd.fst
    area := areaDraft.snd.snd
    areaBasis := areaDraft.fst
    bedroomsState := bedrooms.fst
    bedrooms := bedrooms.snd
    sourceReference := provenance.sourceReference
    sourceClass := provenance.sourceClass
    sourceLanguage := provenance.sourceLanguage }

/-- The working draft of what was frozen. -/
def Frozen.workingDraft (frozen : Frozen) (facts : List RecordedFact) : WorkingDraft :=
  workingDraftFrom (some frozen.terms) (some frozen.sourceCopy) facts

end Inventory
