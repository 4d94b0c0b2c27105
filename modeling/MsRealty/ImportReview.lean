import MsRealty.CanonicalJson
import MsRealty.Editorial
import MsRealty.ImportPreview
import MsRealty.ListingReferences

/-!
# Reviewed imports

How a row of a previewed document becomes a plan (`planRow`), what a reviewer may choose
of it (`validateSelection`), and the draft that is written for the choice (`chosenDraft` in
`src/server/import-review/commands.ts`).

The stored draft of a listing is any JSON. It is compared with what its schema makes of it
by the hashes of their canonical texts; the hash is a parameter. Drafts are put together
member by member, so a draft is also an object: what each of its keys holds (`DraftObject`).
-/

namespace ImportReview

open Inventory Search

/-! ## Context and choices -/

/-- **How the source is read**: nothing of it is inferred. -/
structure ImportContext where
  country : String
  region : String
  propertyType : PropertyType
  purpose : ListingPurpose
  areaBasis : AreaBasis
  sourceLanguage : PublicLocale

/-- `choiceFields`. -/
inductive ChoiceField where
  | title
  | price
  | area
  | bedrooms
  | sourceUrl
  deriving DecidableEq

/-- Every field a reviewer chooses, in the order of the source. -/
def choiceFields : List ChoiceField := [.title, .price, .area, .bedrooms, .sourceUrl]

/-- The field of the document. -/
def ChoiceField.toField : ChoiceField → ImportField
  | .title => .title
  | .price => .price
  | .area => .area
  | .bedrooms => .bedrooms
  | .sourceUrl => .sourceUrl

/-- `FieldChoice`. -/
inductive FieldChoice where
  | keep
  | source
  deriving DecidableEq

/-- **What a reviewer chose** for a row. -/
structure ImportSelection where
  number : ℕ
  choices : ChoiceField → Option FieldChoice

/-! ## Drafts as objects -/

/-- The keys of a draft. -/
inductive DraftKey where
  | title
  | description
  | brokerNote
  | priceState
  | price
  | areaState
  | area
  | areaBasis
  | bedroomsState
  | bedrooms
  | sourceReference
  | sourceClass
  | sourceLanguage
  deriving DecidableEq

/-- The name of a key. -/
def DraftKey.name : DraftKey → String
  | .title => "title"
  | .description => "description"
  | .brokerNote => "brokerNote"
  | .priceState => "priceState"
  | .price => "price"
  | .areaState => "areaState"
  | .area => "area"
  | .areaBasis => "areaBasis"
  | .bedroomsState => "bedroomsState"
  | .bedrooms => "bedrooms"
  | .sourceReference => "sourceReference"
  | .sourceClass => "sourceClass"
  | .sourceLanguage => "sourceLanguage"

/-- **A draft as an object**: what its keys hold. -/
abbrev DraftObject : Type := DraftKey → Option JsonValue

/-- What a JSON value holds under the keys of a draft. -/
def objectOf (value : JsonValue) : DraftObject := fun key => value.get? key.name

/-! ## Records -/

/-- **A stored JSON value**: its numbers are decimals, and its members have names of their
own. -/
structure StoredJson where
  value : JsonValue
  plain : JsonText.Plain value
  distinct : ∀ members, value = .obj members → (members.map Prod.fst).Nodup

/-- **A listing.** -/
structure Listing where
  id : Uuid
  reference : String
  propertyId : Uuid
  version : ℕ
  purpose : ListingPurpose
  draft : StoredJson
  commercialState : CommercialState
  editorialState : Editorial.EditorialState
  latestRevisionNumber : ℕ
  approvedRevisionId : Option Uuid
  publicationGeneration : ℕ

/-- **A property.** -/
structure Property where
  id : Uuid
  version : ℕ
  settlement : String

/-- **What a plan is about**, as it was when it was made. -/
structure Target where
  id : Uuid
  propertyId : Uuid
  version : ℕ
  propertyVersion : ℕ
  draft : StoredJson
  commercialState : CommercialState
  editorialState : Editorial.EditorialState
  latestRevisionNumber : ℕ
  approvedRevisionId : Option Uuid
  publicationGeneration : ℕ

/-- `snapshot`. -/
def snapshot (listing : Listing) (property : Property) : Target where
  id := listing.id
  propertyId := property.id
  version := listing.version
  propertyVersion := property.version
  draft := listing.draft
  commercialState := listing.commercialState
  editorialState := listing.editorialState
  latestRevisionNumber := listing.latestRevisionNumber
  approvedRevisionId := listing.approvedRevisionId
  publicationGeneration := listing.publicationGeneration

/-- What a reviewer is asked for. -/
inductive ListingCapability where
  | read
  | edit

/-- **What a row is planned against**: the tables, and what the reviewer may do with a
listing, or with listings at all. -/
structure Records where
  listings : List Listing
  properties : List Property
  can : ListingCapability → Option Listing → Bool

/-- `ImportFieldDiff`. -/
structure ImportFieldDiff where
  field : ImportField
  current : Option String
  incoming : Option String
  proposed : Option String
  decision : Bool

/-- **A plan.** -/
structure Plan where
  number : ℕ
  values : ImportField → Option String
  issues : List String
  fields : List ImportFieldDiff
  target : Option Target
  proposedDraft : Option ListingDraft

/-! ## Planning a row -/

/-- A text whose first comma is a point. -/
def pointed : List Char → List Char
  | [] => []
  | c :: rest => if c = ',' then '.' :: rest else c :: pointed rest

/-- `amount`. -/
def amount (value : Option String) : String :=
  (value.map fun s => String.ofList (pointed (trim s).toList)).getD ""

/-- An issue of a row, under a condition. -/
def issueIf (condition : Bool) (issue : String) : List String := if condition then [issue] else []

/-- The text of an issue of the preview. -/
def RowIssue.text (issue : RowIssue) : String :=
  issue.code.name ++ ":"
    ++ ((issue.field.map ImportField.name).orElse fun _ => issue.column.map toString).getD "row"

/-- `emptyDraft`. -/
def emptyDraft : ListingDraft where
  title := ""
  description := ""
  brokerNote := ""
  priceState := .unknown
  price := ""
  areaState := .unknown
  area := ""
  areaBasis := .living
  bedroomsState := .unknown
  bedrooms := ""
  sourceReference := ""
  sourceClass := .sourceSupplied
  sourceLanguage := .bg

/-- **The stored draft, if the schema leaves it as it is.** -/
def recordedDraft (sha256 : List Char → String) (stored : StoredJson) : Option ListingDraft :=
  (draftSchema stored.value).filter fun parsed =>
    sha256 (JsonText.canonicalJson parsed.working.toJson)
      = sha256 (JsonText.canonicalJson stored.value)

/-- **The proposed draft**, before its schema. Blank cells erase nothing. -/
def proposedOf (original : Option ListingDraft) (row : PreviewRow) (context : ImportContext)
    (digest : String) : ListingDraft :=
  let kept := original.getD emptyDraft
  { kept with
    sourceClass := .sourceSupplied
    sourceLanguage := context.sourceLanguage
    title := (row.values .title).getD ""
    price := if supplied (row.values .price) then amount (row.values .price) else kept.price
    priceState := if supplied (row.values .price) then .known else kept.priceState
    area := if supplied (row.values .area) then amount (row.values .area) else kept.area
    areaState := if supplied (row.values .area) then .known else kept.areaState
    areaBasis := if supplied (row.values .area) then context.areaBasis else kept.areaBasis
    bedrooms :=
      if supplied (row.values .bedrooms) then amount (row.values .bedrooms) else kept.bedrooms
    bedroomsState := if supplied (row.values .bedrooms) then .known else kept.bedroomsState
    sourceReference :=
      if supplied (row.values .sourceUrl) then (row.values .sourceUrl).getD ""
      else orElse ((original.map ListingDraft.sourceReference).getD "")
        ("csv:" ++ digest ++ "#row=" ++ toString row.number) }

/-- How a field of a draft is shown. -/
def display (draft : ListingDraft) (field : ImportField) : String :=
  match field with
  | .sourceUrl => draft.sourceReference
  | .price => draft.priceState.name ++ ": " ++ orElse draft.price "—" ++ " EUR"
  | .area => draft.areaState.name ++ ": " ++ orElse draft.area "—" ++ " m² ("
      ++ draft.areaBasis.name ++ ")"
  | .bedrooms => draft.bedroomsState.name ++ ": " ++ orElse draft.bedrooms "—"
  | _ => draft.title

/-- **A field of a plan**: what is there, and what is proposed. -/
def fieldDiff (found : Option (Listing × Property)) (original candidate : Option ListingDraft)
    (row : PreviewRow) (field : ImportField) : ImportFieldDiff :=
  let current :=
    match field with
    | .reference => found.map fun f => f.1.reference
    | .location => found.map fun f => f.2.settlement
    | .currency => original.map fun _ => "EUR"
    | field => original.map fun draft => display draft field
  let proposed :=
    match field with
    | .reference => some ((row.values .reference).getD "")
    | .location => row.values .location
    | .currency => row.values .currency
    | field => candidate.map fun draft => display draft field
  { field := field
    current := current
    incoming := row.values field
    proposed := proposed
    decision := original.isSome && (choiceFields.map ChoiceField.toField).contains field
      && supplied (row.values field) && current ≠ proposed }

/-- The issues of the amounts of a row. -/
def amountIssues (row : PreviewRow) : List String :=
  issueIf (supplied (row.values .price) && (row.values .currency ≠ some "EUR"
      || notPositive (amount (row.values .price)).toList)) "price_eur_positive"
    ++ issueIf (supplied (row.values .area) && notPositive (amount (row.values .area)).toList)
      "area_positive"

/-- **The plan of a row** whose listing and draft have been looked up. -/
def planWith (row : PreviewRow) (context : ImportContext) (digest : String)
    (found : Option (Listing × Property)) (original : Option ListingDraft)
    (issues : List String) : Plan :=
  let candidate := draftSchema (proposedOf original row context digest).working.toJson
  { number := row.number
    values := row.values
    issues := issues ++ amountIssues row ++ issueIf candidate.isNone "draft_limits"
    fields := importFields.map (fieldDiff found original candidate row)
    target := found.map fun f => snapshot f.1 f.2
    proposedDraft := candidate }

/-- The issues of a row by itself. -/
def ownIssues (row : PreviewRow) : List String :=
  row.issues.map RowIssue.text
    ++ issueIf (!ListingReferences.referenceFormat ((row.values .reference).getD ""))
      "reference_format"

/-- Its issues with the listing it is about. -/
def listingIssues (row : PreviewRow) (context : ImportContext) (listing : Listing)
    (property : Property) (original : Option ListingDraft) : List String :=
  issueIf original.isNone "draft_manual"
    ++ issueIf (supplied (row.values .location)
      && row.values .location ≠ some property.settlement) "location_manual"
    ++ issueIf (supplied (row.values .price) && context.purpose ≠ listing.purpose) "purpose_manual"

/-- **`planRow`.** It throws if the property of a listing is missing. -/
def planRow (sha256 : List Char → String) (records : Records) (row : PreviewRow)
    (context : ImportContext) (digest : String) : Option Plan :=
  let reference := (row.values .reference).getD ""
  match records.listings.find? fun listing => listing.reference = reference with
  | some listing =>
    if !records.can .read (some listing) || !records.can .edit (some listing) then
      some { number := row.number, values := row.values,
             issues := ownIssues row ++ ["target_unavailable"], fields := [], target := none,
             proposedDraft := none }
    else do
      let property ← records.properties.find? fun property => property.id = listing.propertyId
      let original := recordedDraft sha256 listing.draft
      some (planWith row context digest (some (listing, property)) original
        (ownIssues row ++ listingIssues row context listing property original))
  | none =>
    some (planWith row context digest none none
      (ownIssues row ++ issueIf (!records.can .edit none) "target_unavailable"
        ++ issueIf (!supplied (row.values .location)
          || 150 < utf16Length ((row.values .location).getD "").toList) "location_required"))

/-! ## Choosing -/

/-- **A row of a review**, with its plan. -/
structure ReviewRow where
  rowNumber : ℕ
  plan : Plan

/-- The fields of a plan that must be decided. -/
def Plan.required (plan : Plan) : List ImportField :=
  (plan.fields.filter ImportFieldDiff.decision).map ImportFieldDiff.field

/-- Whether the choices are those a plan asks for. -/
def Plan.accepts (plan : Plan) (selected : ImportSelection) : Bool :=
  plan.issues = [] && plan.proposedDraft.isSome
    && plan.required.all (fun field => choiceFields.any fun choice =>
      choice.toField = field && (selected.choices choice).isSome)
    && choiceFields.all fun choice =>
      (selected.choices choice).isNone || plan.required.contains choice.toField

/-- **`validateSelection`.** -/
def validateSelection (rows : List ReviewRow) (selection : List ImportSelection) : Bool :=
  selection.all fun selected =>
    (rows.find? fun row => row.rowNumber = selected.number).any fun row => row.plan.accepts selected

/-- What is kept with a field that is not chosen. -/
def ChoiceField.kept : ChoiceField → List DraftKey
  | .sourceUrl => [.sourceReference]
  | .title => [.title]
  | .price => [.price, .priceState]
  | .area => [.area, .areaState, .areaBasis]
  | .bedrooms => [.bedrooms, .bedroomsState]

/-- A draft with some of its members as they were before. -/
def DraftObject.keep (draft before : DraftObject) (keys : List DraftKey) : DraftObject :=
  fun key => if key ∈ keys then before key else draft key

/-- **`chosenDraft`.** It throws if the plan has no draft. -/
def chosenDraft (plan : Plan) (selected : ImportSelection) : Option DraftObject := do
  let proposed ← plan.proposedDraft
  let draft := objectOf proposed.working.toJson
  match plan.target with
  | none => some draft
  | some target =>
    if !target.draft.value.truthy then some draft
    else
      let before := objectOf target.draft.value
      if choiceFields.all fun field => selected.choices field ≠ some .source then some before
      else
        let kept := choiceFields.foldl (fun draft field =>
          if selected.choices field = some .source then draft
          else draft.keep before field.kept) draft
        some fun key =>
          if key = .sourceClass then some (.str SourceClass.sourceSupplied.name) else kept key

end ImportReview
