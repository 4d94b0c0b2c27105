import MsRealty.IsoInstant
import MsRealty.SearchInput
import MsRealty.Submissions

/-!
# The inquiry form

What a visitor submits (`src/server/inquiries/intake.ts`) and the checks that
read nothing but the form and the clock: the schema's refinements, the viewing
times and the service date that have passed, and the identity of a submission,
whose hash leaves out the key itself and the honeypot.

`Site` is what the deployment and the runtime settle: the keyed hash under the
authentication secret, the hash of a canonical body, the wall clocks of the time
zones, and the case mapping of texts.
-/

namespace Intake

/-! ## The form -/

/-- `inquiryPurposes`. -/
inductive InquiryPurpose where
  | question
  | callback
  | viewingRequest
  | sellerConsultation
  | landlordConsultation
  | serviceConsultation
  deriving DecidableEq

/-- The name of a purpose in the database. -/
def InquiryPurpose.name : InquiryPurpose → String
  | .question => "question"
  | .callback => "callback"
  | .viewingRequest => "viewing_request"
  | .sellerConsultation => "seller_consultation"
  | .landlordConsultation => "landlord_consultation"
  | .serviceConsultation => "service_consultation"

/-- The kinds of contact methods. -/
inductive ContactKind where
  | email
  | phone
  deriving DecidableEq

/-- One reachable contact method; its kind is the preferred channel. -/
structure Contact where
  kind : ContactKind
  value : String

/-- A listing of a comparison, and the manifest the visitor saw. -/
structure SelectedListing where
  reference : String
  observedManifestId : Uuid

/-- Which of two local times a clock change made. -/
inductive Occurrence where
  | earlier
  | later

/-- A window a visitor would like to view in. -/
structure ViewingWindow where
  startsAtLocal : String
  endsAtLocal : String
  startOccurrence : Option Occurrence
  endOccurrence : Option Occurrence

/-- `viewingPreferencesSchema`. -/
structure ViewingPreferences where
  timezone : String
  windows : List ViewingWindow
  inPerson : Bool
  accessNeeds : Option String

/-- The kinds of approved content. -/
inductive ContentKind where
  | area
  | service
  | help
  deriving DecidableEq

/-- The name of a kind in the database. -/
def ContentKind.name : ContentKind → String
  | .area => "area"
  | .service => "service"
  | .help => "help"

/-- `contentReferenceSchema`. -/
structure ContentReference where
  kind : ContentKind
  slug : String
  versionId : Uuid

/-- `serviceIntakeTopics`. -/
inductive ServiceTopic where
  | shortStay
  | management
  deriving DecidableEq

/-- The name of a topic in the database. -/
def ServiceTopic.name : ServiceTopic → String
  | .shortStay => "short_stay_consultation"
  | .management => "management_consultation"

/-- `serviceRequestSchema`; a date is its text. -/
structure ServiceRequest where
  topic : ServiceTopic
  scopeVersionId : Uuid
  regionId : Uuid
  location : String
  needs : String
  requestedFrom : Option String
  requestedUntil : Option String

/-- What an owner wants done. -/
inductive OwnerTransaction where
  | sale
  | longTermRent
  | unknown
  deriving DecidableEq

/-- The name of a transaction. -/
def OwnerTransaction.name : OwnerTransaction → String
  | .sale => "sale"
  | .longTermRent => "long_term_rent"
  | .unknown => "unknown"

/-- `ownerInquirySchema`. -/
structure OwnerInquiry where
  locality : Option String
  transaction : Option OwnerTransaction
  documentArea : Option String
  propertyStatus : Option String
  documentSource : Option String

/-- **The payload of an inquiry**: everything that is submitted, without the key
and the honeypot. `C` is the form of the search the visitor asked from. -/
structure InquiryPayload (C : Type) where
  purpose : InquiryPurpose
  locale : PublicLocale
  name : Option String
  contact : Contact
  message : Option String
  listingReference : Option String
  selectedListings : Option (List SelectedListing)
  comparisonReferences : Option (List String)
  ownerInput : Option OwnerInquiry
  viewingPreferences : Option ViewingPreferences
  contentReference : Option ContentReference
  serviceRequest : Option ServiceRequest
  observedManifestId : Option Uuid
  criteria : Option C
  callbackWindow : Option String
  marketingOptIn : Bool

/-- The form as its fields are parsed. -/
structure InquiryInput where
  submissionKey : String
  /-- The honeypot, which people never see. -/
  website : Option String
  payload : InquiryPayload Search.SearchInput

/-- The payload with its filters as applied, a page position left out. -/
abbrev NormalizedPayload := InquiryPayload Search.NormalizedSearch

inductive LocalTimeResolution where
  | resolved (instant : Instant)
  | nonexistent
  | ambiguous (earlier later : Instant)

/-- **What the deployment and the runtime settle.** -/
structure Site where
  schemas : Tx.Schemas
  toLowerCase : String → String
  /-- `keyedHash` under the authentication secret. -/
  keyedHash : String → String
  /-- `hashRequest` of a payload. -/
  hashRequest : NormalizedPayload → String
  /-- `wallClockAsUtc`: the wall clock of a zone at an instant. -/
  wallClockAsUtc : Instant → String → ℤ
  canonicalOrigin : String
  /-- Which locales are indexable. -/
  indexable : PublicLocale → Bool

variable (site : Site)

/-! ## Submission keys and references -/

/-- A lower-case hexadecimal digit. -/
def isLowerHex (c : Char) : Bool := c.isDigit || 'a' ≤ c && c ≤ 'f'

/-- A character of a random token. -/
def isTokenChar (c : Char) : Bool := c.isAlphanum || c = '_' || c = '-'

def submissionKeyPattern (value : List Char) : Bool :=
  value.length = 76 && (value.take 43).all isTokenChar && value[43]? = some '.'
    && (value.drop 44).all isLowerHex

/-- **`isIssuedSubmissionKey`**: only keys this server issued count. -/
def isIssuedSubmissionKey (value : String) : Bool :=
  let nonce := String.ofList (value.toList.take 43)
  submissionKeyPattern value.toList
    && (site.keyedHash ("inquiry-submission:" ++ nonce)).toList.take 32 = value.toList.drop 44

def receiptSessionHash (token : String) : String :=
  site.keyedHash ("inquiry-receipt-session:" ++ token)

def listingReferencePattern (value : List Char) : Bool :=
  value.take 3 = ['M', 'S', '-'] && (value.drop 3).all Char.isDigit && 5 ≤ (value.drop 3).length

/-- `parseReference`, of the reference of a listing. -/
def parseListingReference (value : String) : Option String :=
  let normalized := site.schemas.toUpperCase (site.schemas.trim value)
  if listingReferencePattern normalized.toList then some normalized else none

/-! ## The refinements of the schema -/

/-- `emailPattern`. -/
def isEmail (value : List Char) : Bool :=
  value.all (fun c => !Search.isSpace c) && value.count '@' = 1
    && !(value.takeWhile (· ≠ '@')).isEmpty
    && (((value.dropWhile (· ≠ '@')).drop 1).dropLast.drop 1).any (· = '.')

/-- `e164Pattern`. -/
def isE164 : List Char → Bool
  | '+' :: first :: rest =>
    first.isDigit && first ≠ '0' && rest.all Char.isDigit && 7 ≤ rest.length && rest.length ≤ 14
  | _ => false

/-- **`normalizePhone`**: international format only. -/
def normalizePhone (value : String) : Option String :=
  let kept := value.toList.filter (fun c => !(Search.isSpace c || c ∈ ['(', ')', '.', '-']))
  let phone := if kept.take 2 = ['0', '0'] then '+' :: kept.drop 2 else kept
  if isE164 phone then some (String.ofList phone) else none

/-- An issue at a path, where a condition holds. -/
def issueIf (condition : Prop) [Decidable condition] (path code : String) : List Search.Issue :=
  if condition then [(path, code)] else []

/-- The purpose an owner's transaction belongs to. -/
def transactionOf (purpose : InquiryPurpose) : OwnerTransaction :=
  if purpose = .sellerConsultation then .sale else .longTermRent

/-- The issues of an owner's description. -/
def ownerIssues (payload : InquiryPayload Search.SearchInput) : List Search.Issue :=
  match payload.ownerInput with
  | none => []
  | some owner =>
    issueIf (payload.purpose ∉ [.sellerConsultation, .landlordConsultation]) "ownerInput"
        "owner_purpose_required"
      ++ issueIf (payload.listingReference.isSome ∨ payload.selectedListings.isSome) "ownerInput"
        "ambiguous_listing_context"
      ++ issueIf (owner.transaction.any (fun t =>
          t ≠ .unknown && t ≠ transactionOf payload.purpose)) "ownerInput.transaction"
        "purpose_mismatch"

/-- The listing a form names, parsed. -/
def parsedListing (payload : InquiryPayload Search.SearchInput) : Option String :=
  payload.listingReference.bind (parseListingReference site)

/-- **The refinements of `inquirySchema`.** -/
def refinementIssues (input : InquiryInput) : List Search.Issue :=
  let payload := input.payload
  issueIf (isIssuedSubmissionKey site input.submissionKey = false) "submissionKey" "invalid"
    ++ issueIf (payload.contact.kind = .email ∧ isEmail payload.contact.value.toList = false)
      "contact.value" "invalid_email"
    ++ issueIf (payload.contact.kind = .phone ∧ normalizePhone payload.contact.value = none)
      "contact.value" "phone_international_format"
    ++ issueIf (payload.purpose = .callback ∧ payload.contact.kind ≠ .phone) "contact.kind"
      "phone_required_for_callback"
    ++ issueIf (payload.purpose = .question ∧ payload.message = none) "message" "required"
    ++ issueIf (payload.purpose = .viewingRequest ∧ payload.listingReference = none)
      "listingReference" "required"
    ++ issueIf (payload.listingReference.isSome ∧ parsedListing site payload = none)
      "listingReference" "invalid_reference"
    ++ issueIf (payload.selectedListings.isSome
        ∧ (payload.listingReference.isSome ∨ payload.observedManifestId.isSome))
      "selectedListings" "ambiguous_listing_context"
    ++ issueIf (payload.selectedListings.isSome ∧ payload.purpose ≠ .question) "purpose"
      "selection_requires_question"
    ++ issueIf (payload.comparisonReferences.any (fun references =>
        payload.selectedListings.isSome
          || !(parsedListing site payload).any (fun reference => references.elem reference)))
      "comparisonReferences" "invalid_comparison_context"
    ++ issueIf (payload.observedManifestId.isSome ∧ payload.listingReference = none)
      "listingReference" "required"
    ++ issueIf (payload.viewingPreferences.isSome ∧ payload.purpose ≠ .viewingRequest)
      "viewingPreferences" "viewing_purpose_required"
    ++ ownerIssues payload
    ++ issueIf (payload.purpose = .serviceConsultation
        ∧ payload.contentReference.map ContentReference.kind ≠ some .service)
      "contentReference" "approved_service_context_required"
    ++ issueIf (payload.purpose = .serviceConsultation ∧ payload.serviceRequest = none)
      "serviceRequest" "approved_service_scope_required"
    ++ issueIf (payload.serviceRequest.isSome ∧ payload.purpose ≠ .serviceConsultation)
      "serviceRequest" "service_purpose_required"

/-! ## The identity of a submission -/

/-- An error that names fields. -/
def fieldErrors (errors : FieldErrors) : Thrown JsonValue :=
  .appError ⟨.validationFailed, ErrorCode.validationFailed.outcome, some errors, none⟩

/-- The filters a visitor asked from, read in the locale of the page. -/
def normalizedCriteria (payload : InquiryPayload Search.SearchInput) :
    Tx (Option Search.NormalizedSearch) :=
  match payload.criteria with
  | none => .ok none
  | some criteria =>
    match Search.normalizeSearch { criteria with locale := payload.locale } with
    | .ok search => .ok (some { search with cursor := none })
    | .error error => .error (fieldErrors (error.fieldErrors.getD []))

/-- The payload that is hashed. -/
def InquiryPayload.withCriteria {C D : Type} (payload : InquiryPayload C)
    (criteria : Option D) : InquiryPayload D where
  purpose := payload.purpose
  locale := payload.locale
  name := payload.name
  contact := payload.contact
  message := payload.message
  listingReference := payload.listingReference
  selectedListings := payload.selectedListings
  comparisonReferences := payload.comparisonReferences
  ownerInput := payload.ownerInput
  viewingPreferences := payload.viewingPreferences
  contentReference := payload.contentReference
  serviceRequest := payload.serviceRequest
  observedManifestId := payload.observedManifestId
  criteria := criteria
  callbackWindow := payload.callbackWindow
  marketingOptIn := payload.marketingOptIn

structure IntakeContext where
  ip : String
  receiptSession : String
  correlationId : Option String
  /-- The instant a caller fixes; otherwise the clock is read. -/
  now : Option Instant

/-- **A submission as it runs**: what was parsed of it, and its context. -/
structure Request where
  submissionKey : String
  website : Option String
  payload : NormalizedPayload
  context : IntakeContext

/-- **The part of `submitInquiry` that reads no table**: the form is parsed and
its filters are normalised. -/
def acceptRequest (input : InquiryInput) (context : IntakeContext) : Tx Request := do
  let issues := refinementIssues site input
  Tx.demand (issues = []) (fieldErrors (Search.fieldErrorsOf issues))
  let criteria ← normalizedCriteria input.payload
  .ok ⟨input.submissionKey, input.website, input.payload.withCriteria criteria, context⟩

/-- The clock as a submission reads it. -/
def Request.clock (request : Request) (reading : Instant) : Instant :=
  request.context.now.getD reading

/-- The hash of the payload. -/
def Request.hash (request : Request) : String := site.hashRequest request.payload

/-- The hash of the receipt session. -/
def Request.session (request : Request) : String :=
  receiptSessionHash site request.context.receiptSession

/-! ## The checks against the clock -/

/-- **`resolveLocalTime`**: the instants at which the wall clock of a zone shows
a time, among those that the offsets of the days around it give. -/
def resolveLocalTime (localTime timezone : String) (choose : Option Occurrence) :
    LocalTimeResolution :=
  match IsoInstant.parseISO (localTime.toList ++ ":00.000Z".toList) with
  | none => .nonexistent
  | some wall =>
    let offsets := ([wall - IsoInstant.msPerDay, wall + IsoInstant.msPerDay].map
      (fun t => site.wallClockAsUtc t timezone - t)).eraseDups
    let instants := ((offsets.map (wall - ·)).filter
      (fun t => site.wallClockAsUtc t timezone = wall)).insertionSort (· ≤ ·)
    match instants, choose with
    | [], _ => .nonexistent
    | [instant], _ => .resolved instant
    | earlier :: _ :: _, some .earlier => .resolved earlier
    | _ :: later :: _, some .later => .resolved later
    | earlier :: later :: _, none => .ambiguous earlier later

/-- `pastViewingWindows`: the windows that have started. -/
def pastViewingWindows (preferences : ViewingPreferences) (now : Instant) : List ℕ :=
  (preferences.windows.zipIdx.filter (fun w =>
    match resolveLocalTime site w.fst.startsAtLocal preferences.timezone w.fst.startOccurrence with
    | .resolved start => start ≤ now
    | _ => false)).map Prod.snd

/-- The field of a window. -/
def windowField (index : ℕ) : String :=
  "viewingPreferences.windows." ++ toString index ++ ".startsAtLocal"

/-- **`requireFutureViewingPreferences`.** -/
def requireFutureViewingPreferences (payload : NormalizedPayload) (now : Instant) : Tx Unit :=
  let past := (payload.viewingPreferences.map (fun p => pastViewingWindows site p now)).getD []
  Tx.demand (past = []) (fieldErrors (past.map (fun index => (windowField index, ["past_time"]))))

/-- The date of an instant, as `toISOString().slice(0, 10)` writes it. -/
def isoDate (now : Instant) : String := String.ofList ((IsoInstant.toISOText now).take 10)

/-- **`requireFutureServiceRequest`.** -/
def requireFutureServiceRequest (payload : NormalizedPayload) (now : Instant) : Tx Unit :=
  Tx.demand (¬ (payload.serviceRequest.bind ServiceRequest.requestedFrom).any (· < isoDate now))
    (fieldErrors [("serviceRequest.requestedFrom", ["future_required"])])

end Intake
