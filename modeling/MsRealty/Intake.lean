import MsRealty.CaseMachines
import MsRealty.IntakeForm
import MsRealty.Presentation
import MsRealty.RateLimit

/-!
# Inquiry intake

How an inquiry is accepted (`src/server/inquiries/intake.ts`): the checks before
the operation, the transaction that runs it, and the receipt that answers. The
same key with the same payload reconciles to the same inquiry; another payload
is refused; the receipt is readable only with the session that submitted it.

The operation is nested in a transaction of its own. An error that the visitor
can correct – a source that changed, a preferred time that has passed – rolls
that transaction back, so that no outcome is stored under the key; every other
error that is an outcome is stored by it.

`Sources` is what the reads of publication, content and service coverage find at
a moment; other commands replace it at any time.
-/

namespace Intake

open Runs

/-! ## What is public -/

/-- What `readApprovedContent` finds of an edition. -/
structure ApprovedContent where
  title : String
  locale : PublicLocale
  versionId : Uuid
  contentHash : String

/-- A service that is offered. -/
structure OfferedService where
  topic : ServiceTopic
  regionId : Uuid
  ownerId : Uuid
  publicSlug : String

/-- A decision about a topic in a region. -/
inductive ScopeDecision where
  | unknown (topic : ServiceTopic) (regionId : Uuid)
  | notOffered (topic : ServiceTopic) (regionId : Uuid) (reason : String)
  | offered (service : OfferedService)

/-- Whether a decision is about a topic in a region. -/
def ScopeDecision.isFor (topic : ServiceTopic) (regionId : Uuid) : ScopeDecision → Bool
  | .unknown t r => t = topic && r = regionId
  | .notOffered t r _ => t = topic && r = regionId
  | .offered service => service.topic = topic && service.regionId = regionId

/-- `currentScope`: the latest approved version of the services. -/
structure CurrentScope where
  id : Uuid
  scopeVersion : ℕ
  contentHash : String
  decisions : List ScopeDecision

/-- **What is public at a moment.** -/
structure Sources where
  /-- `loadPublishedListings`, of one reference in a locale. -/
  published : String → PublicLocale → Option Search.PublishedListing
  /-- `readApprovedContent`. -/
  approved : ContentKind → String → PublicLocale → Option ApprovedContent
  /-- `currentScope`. -/
  scope : Option CurrentScope
  /-- `validateOffering`. -/
  validateOffering : OfferedService → Tx Unit
  /-- `captureOperatingPolicy`. -/
  operatingPolicy : Instant → JsonValue

/-! ## What an inquiry keeps of its sources -/

/-- A listing as it was shown. -/
structure ListingSnapshot where
  reference : String
  manifestId : Uuid
  title : Option String
  locale : PublicLocale
  sourceUrl : String

/-- `inquiryContentSnapshotSchema`. -/
structure ContentSnapshot where
  reference : ContentReference
  title : String
  locale : PublicLocale
  sourceUrl : String

/-- `serviceBindingSchema`. -/
structure ServiceBinding where
  scopeVersionId : Uuid
  scopeVersion : ℕ
  scopeHash : String
  offering : OfferedService
  responsibleId : Uuid
  sourceUrl : String
  observedVersionId : Uuid
  observedHash : String
  locale : PublicLocale

/-- What the checks of a submission resolve. -/
structure Subjects where
  content : Option ContentSnapshot
  service : Option ServiceBinding
  selection : List ListingSnapshot
  listing : Option (Uuid × ListingSnapshot)

/-! ## The checks against the sources -/

/-- A source that changed since the visitor saw it. -/
def sourceChanged (reason : String) : Thrown JsonValue :=
  .appError ⟨.versionConflict, ErrorCode.versionConflict.outcome, none,
    some (.obj [("reason", .str reason)])⟩

/-- The error of a listing that is not public. -/
def listingNotFound : Thrown JsonValue := fieldErrors [("listingReference", ["not_found"])]

variable (site : Site)

def contentRoute (kind : ContentKind) (slug : String) : String :=
  if kind = .service ∧ slug ∈ ["sell", "let"] then "/" ++ slug
  else if kind = .help ∧ slug = "contact" then "/contact"
  else
    match kind with
    | .area => "/areas/" ++ slug
    | .service => "/services/" ++ slug
    | .help => "/help/" ++ slug

/-- The address of a page of approved content. -/
def contentUrl (locale : PublicLocale) (reference : ContentReference) : String :=
  site.canonicalOrigin ++ "/" ++ locale.name ++ contentRoute reference.kind reference.slug

/-- The address of a listing. -/
def listingUrl (locale : PublicLocale) (reference : String) : String :=
  site.canonicalOrigin ++ "/" ++ locale.name ++ "/properties/" ++ reference ++ "/"
    ++ site.toLowerCase reference

/-- **`readInquiryContent`.** -/
def readInquiryContent (sources : Sources) (locale : PublicLocale)
    (reference : ContentReference) : Tx ContentSnapshot :=
  match sources.approved reference.kind reference.slug locale with
  | none => .error (sourceChanged "content_changed")
  | some content =>
    if content.versionId = reference.versionId then
      .ok ⟨reference, content.title, content.locale, contentUrl site locale reference⟩
    else .error (sourceChanged "content_changed")

/-- What an application error of a check becomes. -/
def whenRefused (reason : String) : Tx Unit → Tx Unit
  | .ok () => .ok ()
  | .error (.appError _) => .error (sourceChanged reason)
  | .error .other => .error .other

/-- The offering a request asks for, in the version it saw. -/
def requestedOffering (sources : Sources) (request : ServiceRequest) :
    Option (CurrentScope × OfferedService) :=
  match sources.scope with
  | none => none
  | some scope =>
    match scope.decisions.find? (ScopeDecision.isFor request.topic request.regionId) with
    | some (.offered service) =>
      if scope.id = request.scopeVersionId then some (scope, service) else none
    | _ => none

/-- **`bindServiceRequest`.** -/
def bindServiceRequest (sources : Sources) (locale : PublicLocale) (request : ServiceRequest)
    (reference : ContentReference) : Tx ServiceBinding := do
  let (scope, offering) ← Tx.found (requestedOffering sources request)
    (sourceChanged "service_scope_changed")
  whenRefused "service_scope_changed" (sources.validateOffering offering)
  let content ← Tx.found (sources.approved .service offering.publicSlug locale)
    (sourceChanged "content_changed")
  Tx.demand (reference.kind = .service ∧ reference.slug = offering.publicSlug
    ∧ reference.versionId = content.versionId) (sourceChanged "content_changed")
  .ok {
    scopeVersionId := scope.id
    scopeVersion := scope.scopeVersion
    scopeHash := scope.contentHash
    offering := offering
    responsibleId := offering.ownerId
    sourceUrl := contentUrl site locale reference
    observedVersionId := content.versionId
    observedHash := content.contentHash
    locale := locale }

/-- The action a visitor is invited to on the page of a listing. -/
def primaryAction (listing : Search.PublishedListing) (now : Instant) : PrimaryAction :=
  (Search.presentationOf site.indexable listing now).primaryAction

/-- A listing as it is shown now. -/
def snapshotOf (locale : PublicLocale) (listing : Search.PublishedListing) : ListingSnapshot where
  reference := listing.reference
  manifestId := listing.manifestId
  title := listing.title
  locale := listing.locale
  sourceUrl := listingUrl site locale listing.reference

/-- One listing of a selection: public, unchanged and still an offer. -/
def selectListing (sources : Sources) (locale : PublicLocale) (now : Instant)
    (selected : SelectedListing) : Tx ListingSnapshot := do
  let listing ← Tx.found (sources.published selected.reference locale)
    (sourceChanged "selection_changed")
  Tx.demand (listing.manifestId = selected.observedManifestId
    ∧ primaryAction site listing now ≠ .viewSimilar) (sourceChanged "selection_changed")
  .ok (snapshotOf site locale listing)

/-- **`resolveListing`**: the public listing a request may be about. -/
def resolveListing (sources : Sources) (locale : PublicLocale) (reference : String) :
    Tx Search.PublishedListing :=
  Tx.found (sources.published ((parseListingReference site reference).getD "") locale)
    listingNotFound

/-- The listing of a submission, within the operation: where the visitor told
which manifest they saw, its absence is a change like any other. -/
def resolveReviewed (sources : Sources) (payload : NormalizedPayload) (reference : String) :
    Tx Search.PublishedListing :=
  match resolveListing site sources payload.locale reference with
  | .ok listing => .ok listing
  | .error error =>
    if payload.observedManifestId.isSome then .error (sourceChanged "listing_changed")
    else .error error

/-- Whether the purpose of a submission needs a listing that is still an offer. -/
def needsOffer (payload : NormalizedPayload) : Bool :=
  payload.observedManifestId.isSome || payload.comparisonReferences.isSome
    || payload.purpose = .viewingRequest

/-- The listing a submission is about. -/
def inquiryListing (sources : Sources) (payload : NormalizedPayload) (now : Instant)
    (reference : String) : Tx (Uuid × ListingSnapshot) := do
  let listing ← resolveReviewed site sources payload reference
  Tx.demand (¬ (payload.observedManifestId.any (· ≠ listing.manifestId)
    ∨ needsOffer payload ∧ primaryAction site listing now = .viewSimilar))
    (sourceChanged "listing_changed")
  .ok (listing.listingId, snapshotOf site listing.locale listing)

/-- A check of something a payload need not have. -/
def whenGiven {α β : Type} (value : Option α) (check : α → Tx β) : Tx (Option β) :=
  match value with
  | none => .ok none
  | some a => (check a).map some

/-- What a run of the operation reads of the clock: once for each check, and once
for the instant it records. -/
structure Readings where
  viewing : Instant
  service : Instant
  recorded : Instant

/-- **The checks of an execution**, in their order. -/
def review (sources : Sources) (request : Request) (readings : Readings) : Tx Subjects := do
  let payload := request.payload
  let now := request.clock readings.recorded
  requireFutureViewingPreferences site payload (request.clock readings.viewing)
  requireFutureServiceRequest payload (request.clock readings.service)
  let content ← whenGiven payload.contentReference
    (readInquiryContent site sources payload.locale)
  let service ← whenGiven (payload.serviceRequest.bind (fun asked =>
      payload.contentReference.map (asked, ·)))
    (fun asked => bindServiceRequest site sources payload.locale asked.fst asked.snd)
  let selection ← (payload.selectedListings.getD []).mapM
    (selectListing site sources payload.locale now)
  let listing ← whenGiven payload.listingReference (inquiryListing site sources payload now)
  .ok ⟨content, service, selection, listing⟩

/-! ## The tables -/

/-- A party. -/
structure PartyRow where
  id : Uuid
  displayName : String
  preferredLocale : PublicLocale
  channel : ContactKind
  callbackWindow : Option String

/-- A contact method. -/
structure ContactMethodRow where
  id : Uuid
  partyId : Uuid
  kind : ContactKind
  value : String
  normalizedValue : String

/-- What an inquiry keeps of what it was submitted from. -/
structure InquiryContext where
  listing : Option ListingSnapshot
  selection : List ListingSnapshot
  comparisonReferences : Option (List String)
  criteria : Option Search.NormalizedSearch
  content : Option ContentSnapshot
  service : Option (ServiceRequest × ServiceBinding)
  ownerInput : Option OwnerInquiry
  viewingPreferences : Option ViewingPreferences

/-- **An inquiry.** -/
structure InquiryRow where
  id : Uuid
  reference : String
  state : CaseWork.InquiryState
  purpose : InquiryPurpose
  submissionKey : String
  payloadDigest : String
  operatingPolicySnapshot : JsonValue
  receiptSessionHash : String
  listingId : Option Uuid
  context : InquiryContext
  preferredName : Option String
  contactMethodId : Uuid
  partyId : Uuid
  preferredLocale : PublicLocale
  preferredChannel : ContactKind
  callbackWindow : Option String
  message : Option String
  marketingOptIn : Bool
  coverageQueue : String
  dispositionReason : Option String
  createdAt : Instant

/-- An event for the outbox. -/
structure OutboxEvent where
  eventType : String
  subjectId : Uuid
  reference : String
  purpose : InquiryPurpose
  coverageQueue : String
  operationId : Uuid

/-- An entry of the business timeline. -/
structure ActivityEntry where
  recordId : Uuid
  reference : String
  messageKey : String
  purpose : InquiryPurpose
  listingReference : Option String
  selectedListingReferences : List String
  summary : String
  actor : Actor
  operationId : Uuid
  occurredAt : Instant

/-- An entry of the audit trail. -/
structure AuditEntry where
  action : String
  actor : Actor
  capability : Capability
  recordId : Uuid
  operationId : Uuid
  correlationId : Option String
  purpose : InquiryPurpose
  contactKind : ContactKind
  listingId : Option Uuid
  state : CaseWork.InquiryState
  occurredAt : Instant

/-- **What an execution reads and writes.** The submission key of an inquiry is
unique. -/
structure IntakeData where
  sources : Sources
  parties : Table Uuid PartyRow PartyRow.id
  contactMethods : Table Uuid ContactMethodRow ContactMethodRow.id
  inquiries : Table String InquiryRow InquiryRow.submissionKey
  /-- The last number of the inquiries of a year. -/
  lastNumber : ℤ → ℕ
  outbox : List OutboxEvent
  activity : List ActivityEntry
  audit : List AuditEntry

/-! ## Recording an inquiry -/

def inquiryCoverageQueue : String := "intake"

def operationType : String := "inquiry.receive"

/-- The actor of a submission. -/
def visitor (submissionKey : String) : Actor := ⟨.visitor, "submission:" ++ submissionKey⟩

/-- What the database draws for an execution. -/
structure Drawn where
  operationId : Uuid
  partyId : Uuid
  methodId : Uuid
  inquiryId : Uuid

/-- The year of an instant. -/
def utcYear (now : Instant) : ℤ := CivilDate.yearOfDay (now / IsoInstant.msPerDay)

/-- The largest number of a yearly sequence. -/
def lastSequence : ℕ := 2147483647

/-- `formatReference`, of an inquiry. -/
def inquiryReference (year : ℤ) (number : ℕ) : String :=
  "RQ-" ++ toString year ++ "-" ++ String.ofList (DecimalText.zeroPad 6 number)

/-- A filled honeypot is held for human review. -/
def Request.automated (request : Request) : Bool :=
  request.website.any (fun website => site.schemas.trim website ≠ "")

/-- The value a contact method is compared by. -/
def normalizedContact (contact : Contact) : String :=
  match contact.kind with
  | .phone => (normalizePhone contact.value).getD ""
  | .email => site.toLowerCase contact.value

/-- The new party: matching it to another one is a human decision. -/
def newParty (request : Request) (drawn : Drawn) : PartyRow where
  id := drawn.partyId
  displayName := request.payload.name.getD "Website visitor"
  preferredLocale := request.payload.locale
  channel := request.payload.contact.kind
  callbackWindow := request.payload.callbackWindow

/-- The contact method of the new party. -/
def newMethod (request : Request) (drawn : Drawn) : ContactMethodRow where
  id := drawn.methodId
  partyId := drawn.partyId
  kind := request.payload.contact.kind
  value := match request.payload.contact.kind with
    | .phone => normalizedContact site request.payload.contact
    | .email => request.payload.contact.value
  normalizedValue := normalizedContact site request.payload.contact

/-- **The new inquiry.** -/
def newInquiry (sources : Sources) (request : Request) (subjects : Subjects) (drawn : Drawn)
    (now : Instant) (number : ℕ) : InquiryRow where
  id := drawn.inquiryId
  reference := inquiryReference (utcYear now) number
  state := if request.automated site then .suspectedSpam else .received
  purpose := request.payload.purpose
  submissionKey := request.submissionKey
  payloadDigest := request.hash site
  operatingPolicySnapshot := sources.operatingPolicy now
  receiptSessionHash := request.session site
  listingId := subjects.listing.map Prod.fst
  context := {
    listing := subjects.listing.map Prod.snd
    selection := subjects.selection
    comparisonReferences := request.payload.comparisonReferences
    criteria := request.payload.criteria
    content := subjects.content
    service := request.payload.serviceRequest.bind (fun asked => subjects.service.map (asked, ·))
    ownerInput := request.payload.ownerInput
    viewingPreferences := request.payload.viewingPreferences }
  preferredName := request.payload.name
  contactMethodId := drawn.methodId
  partyId := drawn.partyId
  preferredLocale := request.payload.locale
  preferredChannel := request.payload.contact.kind
  callbackWindow := request.payload.callbackWindow
  message := request.payload.message
  marketingOptIn := request.payload.marketingOptIn
  coverageQueue := inquiryCoverageQueue
  dispositionReason := if request.automated site then some "automated_submission_signal" else none
  createdAt := now

/-- What an inquiry is about, in words. -/
def aboutText (subjects : Subjects) : String :=
  if subjects.selection.isEmpty then
    (subjects.listing.map (fun listing => " about " ++ listing.snd.reference)).getD ""
  else " about " ++ ", ".intercalate (subjects.selection.map ListingSnapshot.reference)

/-- The timeline entry of an inquiry. -/
def receivedActivity (row : InquiryRow) (subjects : Subjects) (operationId : Uuid) :
    ActivityEntry where
  recordId := row.id
  reference := row.reference
  messageKey := "activity.inquiry.received"
  purpose := row.purpose
  listingReference := subjects.listing.map (fun listing => listing.snd.reference)
  selectedListingReferences := subjects.selection.map ListingSnapshot.reference
  summary := "Inquiry " ++ row.reference ++ " received from the website ("
    ++ row.purpose.name ++ aboutText subjects ++ ")."
  actor := visitor row.submissionKey
  operationId := operationId
  occurredAt := row.createdAt

/-- The outbox event of an inquiry: identifiers only. -/
def receivedEvent (row : InquiryRow) (operationId : Uuid) : OutboxEvent where
  eventType := "inquiry.received"
  subjectId := row.id
  reference := row.reference
  purpose := row.purpose
  coverageQueue := row.coverageQueue
  operationId := operationId

/-- The audit entry of an inquiry. -/
def receivedAudit (row : InquiryRow) (correlationId : Option String) (operationId : Uuid) :
    AuditEntry where
  action := operationType
  actor := visitor row.submissionKey
  capability := .inquirySubmit
  recordId := row.id
  operationId := operationId
  correlationId := correlationId
  purpose := row.purpose
  contactKind := row.preferredChannel
  listingId := row.listingId
  state := row.state
  occurredAt := row.createdAt

/-- A row whose key, number or id is taken is refused by the database. -/
def insertInquiry (inquiries : Table String InquiryRow InquiryRow.submissionKey)
    (row : InquiryRow) : Option (Table String InquiryRow InquiryRow.submissionKey) :=
  if inquiries.rows.any (fun other => other.id = row.id || other.reference = row.reference) then
    none
  else inquiries.insert? row

/-- **The writes of an execution**, once its checks have passed. -/
def recordInquiry (data : IntakeData) (request : Request) (subjects : Subjects) (drawn : Drawn)
    (now : Instant) : Tx (InquiryRow × IntakeData) := do
  let number := data.lastNumber (utcYear now) + 1
  let row := newInquiry site data.sources request subjects drawn now number
  let parties ← Tx.found (data.parties.insert? (newParty request drawn)) .other
  let methods ← Tx.found (data.contactMethods.insert? (newMethod site request drawn)) .other
  Tx.demand (number ≤ lastSequence) .other
  let inquiries ← Tx.found (insertInquiry data.inquiries row) .other
  .ok (row, { data with
    parties := parties
    contactMethods := methods
    inquiries := inquiries
    lastNumber := Function.update data.lastNumber (utcYear now) number
    outbox := receivedEvent row drawn.operationId :: data.outbox
    activity := receivedActivity row subjects drawn.operationId :: data.activity
    audit := receivedAudit row request.context.correlationId drawn.operationId :: data.audit })

/-! ## The receipt -/

/-- `inquiryListingReceiptSchema`. -/
structure ListingReceipt where
  reference : String
  title : Option String
  locale : Option PublicLocale
  sourceUrl : Option String
  /-- Whether it is public now, where that can be checked. -/
  publicNow : Option Bool

/-- The service of a receipt. -/
structure ServiceReceipt where
  topic : ServiceTopic
  regionId : Uuid
  scopeVersionId : Uuid
  scopeVersion : ℕ
  sourceUrl : String

/-- What a receipt shows of an owner's description: no broad location and no
free text about it. -/
structure OwnerReceipt where
  transaction : Option OwnerTransaction
  documentArea : Option String

/-- **`InquiryReceipt`**: the acceptance, without contact details or message. -/
structure InquiryReceipt where
  service : Option ServiceReceipt
  content : Option ContentSnapshot
  receiptId : String
  ownerInput : Option OwnerReceipt
  reference : String
  acceptedAt : Instant
  purpose : InquiryPurpose
  locale : PublicLocale
  listing : Option ListingReceipt
  selectedListings : List ListingReceipt
  comparisonReferences : List String

/-- A reference that can still be checked. -/
def isCanonical (reference : String) : Bool := parseListingReference site reference = some reference

/-- `receiptListing`: a saved link is shown only where it is the expected one. -/
def receiptListing (snapshot : ListingSnapshot) : ListingReceipt :=
  if isCanonical site snapshot.reference then
    { reference := snapshot.reference
      title := snapshot.title
      locale := some snapshot.locale
      sourceUrl := some snapshot.sourceUrl |>.filter
        (· = listingUrl site snapshot.locale snapshot.reference)
      publicNow := none }
  else ⟨snapshot.reference, none, none, none, none⟩

/-- The service a binding shows on a receipt. -/
def ServiceBinding.receipt (binding : ServiceBinding) : ServiceReceipt where
  topic := binding.offering.topic
  regionId := binding.offering.regionId
  scopeVersionId := binding.scopeVersionId
  scopeVersion := binding.scopeVersion
  sourceUrl := binding.sourceUrl

/-- **`toReceipt`.** -/
def toReceipt (row : InquiryRow) : InquiryReceipt where
  service := row.context.service.map (fun service => service.snd.receipt)
  content := row.context.content
  receiptId := row.submissionKey
  ownerInput := row.context.ownerInput.map (fun o => ⟨o.transaction, o.documentArea⟩)
  reference := row.reference
  acceptedAt := row.createdAt
  purpose := row.purpose
  locale := row.preferredLocale
  listing := row.context.listing.map (receiptListing site)
  selectedListings := row.context.selection.map (receiptListing site)
  comparisonReferences := row.context.comparisonReferences.getD []

/-- Whether a listing of a receipt is public now. -/
def marked (sources : Sources) (item : ListingReceipt) : ListingReceipt :=
  { item with
    publicNow :=
      if isCanonical site item.reference then
        item.locale.map (fun locale => (sources.published item.reference locale).isSome)
      else none }

/-- **`withCurrentPublication`**: nothing that was saved is refreshed. -/
def withCurrentPublication (sources : Sources) (receipt : InquiryReceipt) : InquiryReceipt :=
  { receipt with
    listing := receipt.listing.map (marked site sources)
    selectedListings := receipt.selectedListings.map (marked site sources) }

/-- **`readInquiryReceipt`**: readable only with the key and the session that
submitted it; every mismatch is the same `not_found`. -/
def readInquiryReceipt (data : IntakeData) (submissionKey receiptSession : String) :
    Tx InquiryReceipt :=
  if receiptSession = "" ∨ isIssuedSubmissionKey site submissionKey = false then
    .error (Tx.ofCode .notFound)
  else
    match data.inquiries.get? submissionKey with
    | none => .error (Tx.ofCode .notFound)
    | some row =>
      if row.receiptSessionHash = receiptSessionHash site receiptSession then
        .ok (withCurrentPublication site data.sources (toReceipt site row))
      else .error (Tx.ofCode .notFound)

/-! ## The stored outcome -/

/-- A text, or `null`. -/
def textOrNull (value : Option String) : JsonValue := (value.map JsonValue.str).getD .null

/-- The JSON of a listing on a receipt. -/
def ListingReceipt.toJson (item : ListingReceipt) : JsonValue :=
  .obj [("reference", .str item.reference), ("title", textOrNull item.title),
    ("locale", textOrNull (item.locale.map PublicLocale.name)),
    ("sourceUrl", textOrNull item.sourceUrl),
    ("publicNow", (item.publicNow.map JsonValue.bool).getD .null)]

/-- The JSON of a service on a receipt. -/
def ServiceReceipt.toJson (service : ServiceReceipt) : JsonValue :=
  .obj [("topic", .str service.topic.name), ("regionId", .str service.regionId),
    ("scopeVersionId", .str service.scopeVersionId),
    ("scopeVersion", .num service.scopeVersion), ("sourceUrl", .str service.sourceUrl)]

/-- The JSON of a content snapshot. -/
def ContentSnapshot.toJson (content : ContentSnapshot) : JsonValue :=
  .obj [("kind", .str content.reference.kind.name), ("slug", .str content.reference.slug),
    ("versionId", .str content.reference.versionId), ("title", .str content.title),
    ("locale", .str content.locale.name), ("sourceUrl", .str content.sourceUrl)]

/-- The JSON of an owner's description on a receipt. -/
def OwnerReceipt.toJson (owner : OwnerReceipt) : JsonValue :=
  .obj ([("version", .num 1), ("provenance", .str "self_declared")]
    ++ optionalMember "transaction" (owner.transaction.map (fun t => .str t.name))
    ++ optionalMember "documentArea" (owner.documentArea.map .str))

/-- **The outcome the operation stores.** -/
def InquiryReceipt.toJson (receipt : InquiryReceipt) : JsonValue :=
  .obj (optionalMember "service" (receipt.service.map ServiceReceipt.toJson)
    ++ optionalMember "content" (receipt.content.map ContentSnapshot.toJson)
    ++ [("receiptId", .str receipt.receiptId)]
    ++ optionalMember "ownerInput" (receipt.ownerInput.map OwnerReceipt.toJson)
    ++ [("status", .str "accepted"), ("reference", .str receipt.reference),
      ("acceptedAt", .str (String.ofList (IsoInstant.toISOText receipt.acceptedAt))),
      ("purpose", .str receipt.purpose.name), ("locale", .str receipt.locale.name),
      ("listing", (receipt.listing.map ListingReceipt.toJson).getD .null),
      ("selectedListings", .arr (receipt.selectedListings.map ListingReceipt.toJson)),
      ("listingReference", textOrNull (receipt.listing.map ListingReceipt.reference)),
      ("selectedListingReferences",
        .arr (receipt.selectedListings.map (fun item => .str item.reference))),
      ("comparisonReferences", .arr (receipt.comparisonReferences.map .str))])

/-! ## The operation -/

/-- What a run of the transaction meets: whether the lock of the key was free,
the ids the database draws, and the clock. -/
structure Met where
  locked : Bool
  drawn : Drawn
  readings : Readings
  /-- The clock of the database, when the receipt is settled. -/
  completedAt : Instant

/-- **The callback of the operation.** -/
def receive (request : Request) (met : Met) (data : IntakeData) :
    Tx (JsonValue × IntakeData) := do
  let subjects ← review site data.sources request met.readings
  let (row, data) ← recordInquiry site data request subjects met.drawn
    (request.clock met.readings.recorded)
  .ok ((toReceipt site row).toJson, data)

/-- The command a submission runs its operation under. -/
def Request.input (request : Request) : OperationInput where
  actor := visitor request.submissionKey
  type := operationType
  idempotencyKey := request.submissionKey
  requestHash := request.hash site
  expectedVersion := none
  subject := none
  butlerAuthorization := false

/-- The key of the operation of a submission key. -/
def intakeKey (submissionKey : String) : OperationKey where
  actorKind := .visitor
  actorId := "submission:" ++ submissionKey
  operationType := operationType
  idempotencyKey := submissionKey

/-- The call of `runOperation`. -/
def operationCall (request : Request) (met : Met) : Call IntakeData JsonValue where
  input := request.input site
  fn := fun _ data => Tx.effect (receive site request met data)
  butlerCheck := fun _ _ => .error .other
  locked := met.locked
  freshId := met.drawn.operationId
  now := met.completedAt

/-- The fields whose errors a visitor can correct before acceptance. -/
def isElapsedField (field : String) : Bool :=
  startsWith field "viewingPreferences.windows." || field = "serviceRequest.requestedFrom"

/-- **The errors that roll the operation back.** -/
def rollsBack : Thrown JsonValue → Bool
  | .other => false
  | .appError error =>
    error.code = .versionConflict
      || error.code = .validationFailed
        && (error.fieldErrors.getD []).any (fun e => isElapsedField e.fst)

/-- What an answer of the operation is thrown as. -/
def thrownBy : Answer JsonValue → Tx OperationSuccess
  | .success value => .ok value
  | .failed error => .error (.appError error)
  | .rolledBack error => .error error

/-- **The outer transaction**: it keeps what the operation stored, unless the
visitor can correct the error. -/
def transact (request : Request) (met : Met) (db : Db IntakeData) :
    Db IntakeData × Tx OperationSuccess :=
  let r := runOperation some db (operationCall site request met)
  match thrownBy r.snd with
  | .ok value => (r.fst, .ok value)
  | .error error => (if rollsBack error then db else r.fst, .error error)

/-! ## Submissions in flight -/

structure SubmittedInquiry where
  receipt : InquiryReceipt
  /-- Whether this answers a retry of an accepted submission. -/
  replayed : Bool
  operationId : Uuid

/-- Where a submission stands. -/
inductive Phase where
  /-- No operation was found: the checks before it are next. -/
  | checking
  /-- The transaction is next. -/
  | ready
  /-- The transaction succeeded: the receipt is next. -/
  | settled (value : OperationSuccess)
  | answered

/-- A submission in flight. -/
structure Flight where
  request : Request
  phase : Phase

/-- **The system**: the database, the buckets of the rate limit, and the
submissions in flight, by the number of their call. -/
structure World where
  db : Db IntakeData
  buckets : RateLimit.Buckets
  flights : ℕ → Option Flight

/-- **What happens**: publication changes, or a submission makes its next step. -/
inductive Event where
  /-- Another command changes what is public. -/
  | publish (sources : Sources)
  /-- A call arrives: its form is parsed, and its operation is looked up. -/
  | arrive (id : ℕ) (input : InquiryInput) (context : IntakeContext)
  /-- The checks before the operation, with the clock each of them reads. -/
  | check (id : ℕ) (viewing service limited : Instant)
  /-- The transaction. -/
  | transact (id : ℕ) (met : Met)
  /-- The receipt is read. -/
  | respond (id : ℕ)

/-- What a step answers its caller, if it ends the call. -/
abbrev Answered := Option (Tx SubmittedInquiry)

/-- A submission moves to a phase. -/
def World.move (w : World) (id : ℕ) (request : Request) (phase : Phase) : World :=
  { w with flights := Function.update w.flights id (some ⟨request, phase⟩) }

/-- A call arrives. -/
def arrive (w : World) (id : ℕ) (input : InquiryInput) (context : IntakeContext) :
    World × Answered :=
  match w.flights id, acceptRequest site input context with
  | some _, _ => (w, none)
  | none, .error error => (w, some (.error error))
  | none, .ok request =>
    match w.db.operations.find (intakeKey request.submissionKey) with
    | none => (w.move id request .checking, none)
    | some _ => (w.move id request .ready, none)

/-- `enforceRateLimit`, of the address of a submission. -/
def enforceRateLimit (buckets : RateLimit.Buckets) (ip : String) (now : Instant) :
    RateLimit.Buckets × Tx Unit :=
  let r := RateLimit.consumeRateLimit site.keyedHash buckets ⟨.inquiryIp, ip, none, none, now⟩
  (r.fst, Tx.demand (r.snd.allowed = true) (Tx.ofCode .rateLimited))

/-- **The checks before the operation**: a correctable mistake is found before
anything is stored. -/
def precheck (buckets : RateLimit.Buckets) (sources : Sources) (request : Request)
    (viewing service limited : Instant) : RateLimit.Buckets × Tx Unit :=
  let clock := do
    requireFutureViewingPreferences site request.payload (request.clock viewing)
    requireFutureServiceRequest request.payload (request.clock service)
  match clock with
  | .error error => (buckets, .error error)
  | .ok () =>
    let (buckets, limit) := enforceRateLimit site buckets request.context.ip limited
    (buckets, do
      limit
      match request.payload.listingReference with
      | some reference =>
        Tx.demand (request.payload.observedManifestId.isSome
            ∨ (sources.published ((parseListingReference site reference).getD "")
              request.payload.locale).isSome)
          listingNotFound
      | none => .ok ())

/-- The checks before the operation, of a submission in flight. -/
def check (w : World) (id : ℕ) (viewing service limited : Instant) : World × Answered :=
  match w.flights id with
  | some ⟨request, .checking⟩ =>
    let r := precheck site w.buckets w.db.data.sources request viewing service limited
    match r.snd with
    | .ok () => ({ w with buckets := r.fst }.move id request .ready, none)
    | .error error => ({ w with buckets := r.fst }.move id request .answered, some (.error error))
  | _ => (w, none)

/-- The transaction, of a submission in flight. -/
def commit (w : World) (id : ℕ) (met : Met) : World × Answered :=
  match w.flights id with
  | some ⟨request, .ready⟩ =>
    let r := transact site request met w.db
    match r.snd with
    | .ok value => ({ w with db := r.fst }.move id request (.settled value), none)
    | .error error => ({ w with db := r.fst }.move id request .answered, some (.error error))
  | _ => (w, none)

/-- The receipt, of a submission in flight. -/
def respond (w : World) (id : ℕ) : World × Answered :=
  match w.flights id with
  | some ⟨request, .settled value⟩ =>
    (w.move id request .answered,
      some ((readInquiryReceipt site w.db.data request.submissionKey
        request.context.receiptSession).map (⟨·, value.replayed, value.operationId⟩)))
  | _ => (w, none)

/-- **One step of the system.** -/
def step (w : World) : Event → World × Answered
  | .publish sources => ({ w with db.data.sources := sources }, none)
  | .arrive id input context => arrive site w id input context
  | .check id viewing service limited => check site w id viewing service limited
  | .transact id met => commit site w id met
  | .respond id => respond site w id

end Intake
