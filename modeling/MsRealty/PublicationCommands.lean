import MsRealty.Publication
import MsRealty.Submissions
import MsRealty.Table

/-!
# Publication commands

The commands that prepare and activate a manifest, restrict and withdraw a
listing (`src/server/publication/commands.ts`) and record a seller's
instruction (`src/server/inventory/commands.ts`), over the tables they
write: the listings, the immutable manifests, the pointers, the search
documents, the deliveries and the outbox.

A command reads under the lock of its listing, so it is a function of the
tables it meets. What it reads elsewhere – approvals, media, evidence of the
seller's consent, the caller's grants – is a *finding* of the call, and may
be anything. It runs through `runOperation`, whose savepoint undoes a command
that throws; a transaction that a database error rolls back, the overflow of
an integer column included, is one that did not happen.
-/

/-! ## The tables -/

/-- What the commands read and write of a listing. -/
structure Listing where
  id : Uuid
  /-- The reference shown to people; unique. -/
  reference : String
  commercialState : CommercialState
  availabilityBasis : Option String
  availabilityConfirmedAt : Option Instant
  publicationGeneration : ℕ
  version : ℕ

/-- **A manifest**: the snapshot a publication shows. Rows are only ever
inserted. -/
structure Manifest where
  id : Uuid
  listingId : Uuid
  locale : PublicLocale
  destination : PublicationDestination
  /-- The listing's publication generation when the manifest was prepared. -/
  generation : ℕ
  listingRevisionId : Uuid
  factRevisionId : Uuid
  localizedRevisionId : Option Uuid
  media : JsonValue
  disclosure : JsonValue
  availabilityBasis : JsonValue
  policyRevision : String
  decisions : JsonValue
  contentDigest : String
  createdById : Uuid
  createdAt : Instant

/-- **The publication pointer** of a listing, locale and destination. -/
structure Pointer where
  listingId : Uuid
  locale : PublicLocale
  destination : PublicationDestination
  manifestId : Uuid
  state : PointerState
  /-- The generation the manifest was activated under. -/
  generation : ℕ
  activatedAt : Instant
  activatedById : Uuid
  restrictedAt : Option Instant
  withdrawnAt : Option Instant
  reason : Option String
  version : ℕ

/-- The columns of the unique index on the pointers. -/
def Pointer.key (p : Pointer) : Uuid × PublicLocale × PublicationDestination :=
  (p.listingId, p.locale, p.destination)

/-- A row of the search projection: its key, and the manifest it was
projected from. -/
structure SearchRow where
  listingId : Uuid
  locale : PublicLocale
  manifestId : Uuid
  deriving DecidableEq

/-- The primary key of the search projection. -/
def SearchRow.key (row : SearchRow) : Uuid × PublicLocale := (row.listingId, row.locale)

/-- The outcome of one publish or withdraw at one destination. -/
structure Delivery where
  manifestId : Uuid
  listingId : Uuid
  locale : PublicLocale
  destination : PublicationDestination
  kind : DeliveryKind
  generation : ℕ
  state : DeliveryState
  acknowledgedAt : Option Instant
  verifiedAt : Option Instant
  evidence : JsonValue

/-- An event of the outbox. -/
structure PublicationEvent where
  eventType : String
  subjectId : Uuid
  payload : JsonValue
  sourceGeneration : ℕ
  operationId : Uuid

/-- **The publication tables.** -/
structure PublicationData where
  listings : Table Uuid Listing Listing.id
  manifests : Table Uuid Manifest Manifest.id
  pointers : Table (Uuid × PublicLocale × PublicationDestination) Pointer Pointer.key
  documents : Table (Uuid × PublicLocale) SearchRow SearchRow.key
  deliveries : List Delivery
  outbox : List PublicationEvent

namespace Publication

/-! ## Transactions that throw -/

/-- A part of a transaction: it throws, or goes on with a value. -/
abbrev Tx (α : Type) := Except (Thrown JsonValue) α

/-- Throws unless the condition holds. -/
def require (condition : Bool) (error : Thrown JsonValue) : Tx Unit :=
  if condition then .ok () else .error error

/-- The value, or the error that its absence is. -/
def orThrow {α : Type} (value : Option α) (error : Thrown JsonValue) : Tx α :=
  match value with
  | some a => .ok a
  | none => .error error

/-- Throws what a check found to refuse, if anything. -/
def refuse (refusal : Option (Thrown JsonValue)) : Tx Unit :=
  match refusal with
  | none => .ok ()
  | some error => .error error

section Peeling

variable {α β : Type} {r : β}

/-- **A transaction that goes on past a check** passed it. -/
@[simp] theorem require_bind {condition : Bool} {error : Thrown JsonValue}
    {f : Unit → Tx β} :
    (require condition error >>= f) = .ok r ↔ condition = true ∧ f () = .ok r :=
  Tx.demand_bind

/-- **A transaction that goes on past a lookup** found a value. -/
@[simp] theorem orThrow_bind {value : Option α} {error : Thrown JsonValue}
    {f : α → Tx β} :
    (orThrow value error >>= f) = .ok r ↔ ∃ a, value = some a ∧ f a = .ok r :=
  Tx.found_bind

@[simp] theorem refuse_bind {refusal : Option (Thrown JsonValue)} {f : Unit → Tx β} :
    (refuse refusal >>= f) = .ok r ↔ refusal = none ∧ f () = .ok r :=
  Tx.refuse_bind

end Peeling

/-- The effect of a transaction on the tables. -/
def effect (tx : Tx (JsonValue × PublicationData)) : Effect PublicationData JsonValue :=
  match tx with
  | .ok (value, data) => .returned (some value) data
  | .error error => .threw error

theorem effect_returned {tx : Tx (JsonValue × PublicationData)}
    {value : Option JsonValue} {data : PublicationData}
    (h : effect tx = .returned value data) :
    ∃ v, value = some v ∧ tx = .ok (v, data) := by
  cases tx with
  | error error => cases h
  | ok r =>
    obtain ⟨hvalue, rfl⟩ := Effect.returned.inj h
    exact ⟨r.fst, hvalue.symm, rfl⟩

/-! ## Errors -/

/-- An application error with field errors. -/
def fieldError (code : ErrorCode) (field message : String) : Thrown JsonValue :=
  .appError ⟨code, code.outcome, some [(field, [message])], none⟩

def ineligible (code : String) : Thrown JsonValue :=
  fieldError .publicationIneligible "publication" code

def conflict (current : JsonValue) : Thrown JsonValue :=
  .appError ⟨.versionConflict, ErrorCode.versionConflict.outcome, none, some current⟩

/-- A record that is not there. -/
def notFound : Thrown JsonValue := .appError (AppError.ofCode .notFound)

/-! ## What a command finds elsewhere -/

/-- The functions of the runtime the commands use. -/
structure Runtime where
  /-- `manifestDigest`, from the canonical JSON of the content. -/
  sha256Hex : JsonValue → String
  /-- The hash of a request. -/
  hashRequest : JsonValue → String
  /-- `Date.prototype.toISOString`. -/
  toISOString : Instant → String
  /-- `String.prototype.trim`. -/
  trim : String → String
  /-- `String.prototype.toUpperCase`. -/
  toUpperCase : String → String

/-- **The evidence for a publication**: the approved revision of a listing
and what is valid for it now. Of each decision the approval's id. -/
structure Evidence where
  listingRevisionId : Uuid
  listingRevisionDigest : String
  factRevisionId : Uuid
  factRevisionDigest : String
  factual : Option Uuid
  editorial : Option Uuid
  /-- The seller instruction, if it is valid. -/
  sellerInstruction : Option Uuid
  /-- The localized revision that is approved for its source, and its digest. -/
  localized : Option (Uuid × String)
  language : Option Uuid
  mediaEligible : Bool
  media : JsonValue
  /-- Whether the copy makes regulated claims. -/
  makesClaims : Bool
  claimReview : Option Uuid
  disclosure : JsonValue

/-- What the public presentation reads outside the publication tables. -/
structure PublicReads where
  /-- Whether the instruction is current evidence of consent for a listing. -/
  consent : Uuid → Uuid → Bool
  /-- Whether the localized revision is approved for its source. -/
  approvedForSource : Uuid → Bool

/-- **What a command meets** outside the publication tables. -/
structure Findings where
  /-- What the checks before the transaction refuse, if anything. -/
  early : Option (Thrown JsonValue)
  /-- What the check of the caller's authority under the lock refuses. -/
  authority : Option (Thrown JsonValue)
  /-- The evidence, if the listing has an approved revision. -/
  evidence : Option Evidence
  /-- What the verification of the media refuses. -/
  media : Option (Thrown JsonValue)
  /-- What the review of an instruction's evidence refuses. -/
  review : Option (Thrown JsonValue)
  reads : PublicReads
  /-- The id the database draws for a new row. -/
  freshId : Uuid
  /-- The reference a new instruction gets. -/
  instructionReference : String
  now : Instant

/-- **A command's envelope.** -/
structure CommandEnvelope where
  actor : Actor
  /-- The logical operation id, shared by every retry. -/
  operationId : String
  /-- The revision the person decided on. -/
  expectedRevision : ℤ

/-! ## Reading the tables -/

/-- The listing of a reference. -/
def findListing (data : PublicationData) (reference : String) : Option Listing :=
  data.listings.rows.find? (fun l => l.reference = reference)

theorem mem_of_findListing {data : PublicationData} {reference : String}
    {listing : Listing} (h : findListing data reference = some listing) :
    listing ∈ data.listings.rows :=
  List.mem_of_find?_eq_some h

/-- The seller instruction a manifest was decided on. -/
def consentOf (manifest : Manifest) : Option Uuid :=
  (manifest.decisions.get? "sellerInstruction").bind JsonValue.asString?

/-- A listing that is public in a locale. -/
structure EligiblePublication where
  listingId : Uuid
  manifestId : Uuid
  activatedAt : Instant

/-- **`eligiblePublications`**, for one listing: the manifest its website
pointer shows, if the pointer is active under the listing's current
generation and consent and translation still hold. -/
def eligiblePublication (reads : PublicReads) (data : PublicationData)
    (listingId : Uuid) (locale : PublicLocale) : Option EligiblePublication := do
  let pointer ← data.pointers.get? (listingId, locale, publicDestination)
  let listing ← data.listings.get? pointer.listingId
  let manifest ← data.manifests.get? pointer.manifestId
  if listing.publicationGeneration = pointer.generation
      && (consentOf manifest).any (fun i => reads.consent i listing.id)
      && manifest.localizedRevisionId.all reads.approvedForSource
      && pointer.state = .active then
    some ⟨pointer.listingId, pointer.manifestId, pointer.activatedAt⟩
  else none

/-- What a publication shows: a listing in a locale, from a manifest. -/
structure PublishedListing where
  listing : Listing
  locale : PublicLocale
  manifest : Manifest
  activatedAt : Instant

/-- **`loadPublishedListings`**, for the id of one listing. -/
def loadPublishedListing (reads : PublicReads) (data : PublicationData)
    (listingId : Uuid) (locale : PublicLocale) : Option PublishedListing := do
  let eligible ← eligiblePublication reads data listingId locale
  let listing ← data.listings.get? eligible.listingId
  let manifest ← data.manifests.get? eligible.manifestId
  some ⟨listing, locale, manifest, eligible.activatedAt⟩

def writeSearchDocument (data : PublicationData) (shown : PublishedListing) :
    PublicationData :=
  { data with
    documents := data.documents.put ⟨shown.listing.id, shown.locale, shown.manifest.id⟩ }

/-! ## Eligibility -/

/-- The content of a manifest, before it is stored. -/
structure ManifestContent where
  listingId : Uuid
  locale : PublicLocale
  destination : PublicationDestination
  generation : ℕ
  listingRevisionId : Uuid
  listingRevisionDigest : String
  factRevisionId : Uuid
  factRevisionDigest : String
  localizedRevisionId : Option Uuid
  localizedRevisionDigest : Option String
  media : JsonValue
  disclosure : JsonValue
  availabilityBasis : JsonValue
  policyRevision : String
  decisions : JsonValue

/-- A string or `null`. -/
def nullable (value : Option String) : JsonValue :=
  match value with
  | none => .null
  | some s => .str s

/-- The JSON of a manifest's content. -/
def ManifestContent.toJson (content : ManifestContent) : JsonValue :=
  .obj [("listingId", .str content.listingId), ("locale", .str content.locale.name),
    ("destination", .str content.destination.name),
    ("generation", .num content.generation),
    ("listingRevisionId", .str content.listingRevisionId),
    ("listingRevisionDigest", .str content.listingRevisionDigest),
    ("factRevisionId", .str content.factRevisionId),
    ("factRevisionDigest", .str content.factRevisionDigest),
    ("localizedRevisionId", nullable content.localizedRevisionId),
    ("localizedRevisionDigest", nullable content.localizedRevisionDigest),
    ("media", content.media), ("disclosure", content.disclosure),
    ("availabilityBasis", content.availabilityBasis),
    ("policyRevision", .str content.policyRevision), ("decisions", content.decisions)]

/-- The publication policy a manifest was evaluated under. -/
def publicationPolicyRevision : String := "architecture-1.0/publication-2026-09-27"

variable (env : Runtime)

def manifestDigest (content : ManifestContent) : String := env.sha256Hex content.toJson

/-- **`currentEligibility`**: what a publication needs, and the content it
would have; everything is missing without an approved revision. -/
def currentEligibility (listing : Listing) (locale : PublicLocale) (generation : ℕ)
    (evidence : Option Evidence) : ActivationInput × Option ManifestContent :=
  match evidence with
  | none =>
    ({ locale := locale
       manifestGeneration := generation
       currentGeneration := listing.publicationGeneration
       commercial := listing.commercialState
       factReviewValid := false
       revisionApprovalValid := false
       sellerInstructionValid := false
       localeApprovedForSource := false
       mediaEligible := false
       regulatedClaimsReviewed := some false }, none)
  | some e =>
    -- only a translation has a localized revision
    let localized := if locale = sourceLocale then none else e.localized
    let language := localized.bind (fun _ => e.language)
    let claimReview := if e.makesClaims then e.claimReview else none
    ({ locale := locale
       manifestGeneration := generation
       currentGeneration := listing.publicationGeneration
       commercial := listing.commercialState
       factReviewValid := e.factual.isSome
       revisionApprovalValid := e.editorial.isSome
       sellerInstructionValid := e.sellerInstruction.isSome
       localeApprovedForSource :=
         locale = sourceLocale || (localized.isSome && language.isSome)
       mediaEligible := e.mediaEligible
       regulatedClaimsReviewed :=
         if e.makesClaims then some claimReview.isSome else none },
      some
        { listingId := listing.id
          locale := locale
          destination := publicDestination
          generation := generation
          listingRevisionId := e.listingRevisionId
          listingRevisionDigest := e.listingRevisionDigest
          factRevisionId := e.factRevisionId
          factRevisionDigest := e.factRevisionDigest
          localizedRevisionId := localized.map Prod.fst
          localizedRevisionDigest := localized.map Prod.snd
          media := e.media
          disclosure := e.disclosure
          availabilityBasis := .obj
            [("state", .str listing.commercialState.name),
              ("basis", nullable listing.availabilityBasis),
              ("confirmedAt",
                nullable (listing.availabilityConfirmedAt.map env.toISOString))]
          policyRevision := publicationPolicyRevision
          decisions := .obj
            [("factual", nullable e.factual), ("editorial", nullable e.editorial),
              ("language", nullable language),
              ("legalProcessClaim", nullable claimReview),
              ("sellerInstruction", nullable e.sellerInstruction)] })

/-! ## Preparing -/

def checkGeneration (listing : Listing) (expected : ℤ) : Tx Unit :=
  require (listing.publicationGeneration = expected)
    (conflict (.obj [("generation", .num listing.publicationGeneration),
      ("version", .num listing.version)]))

/-- The row of a manifest. -/
def newManifest (content : ManifestContent) (command : CommandEnvelope)
    (found : Findings) : Manifest where
  id := found.freshId
  listingId := content.listingId
  locale := content.locale
  destination := content.destination
  generation := content.generation
  listingRevisionId := content.listingRevisionId
  factRevisionId := content.factRevisionId
  localizedRevisionId := content.localizedRevisionId
  media := content.media
  disclosure := content.disclosure
  availabilityBasis := content.availabilityBasis
  policyRevision := content.policyRevision
  decisions := content.decisions
  contentDigest := manifestDigest env content
  createdById := command.actor.id
  createdAt := found.now

/-- The check constraint `publication_manifests_locale_copy`. -/
def localeCopy (manifest : Manifest) : Bool :=
  decide (manifest.locale = sourceLocale) == manifest.localizedRevisionId.isNone

/-- Throws the error of a denied decision. -/
def refuseDenied (decision : Decision) (error : String → Thrown JsonValue) : Tx Unit :=
  match decision with
  | .allowed => .ok ()
  | .denied code => .error (error code)

@[simp] theorem refuseDenied_bind {β : Type} {r : β} {decision : Decision}
    {error : String → Thrown JsonValue} {f : Unit → Tx β} :
    (refuseDenied decision error >>= f) = .ok r
      ↔ decision = .allowed ∧ f () = .ok r :=
  Tx.allow_bind

/-- **`prepareManifest`**, in its transaction. -/
def prepareManifest (command : CommandEnvelope) (reference : String)
    (locale : PublicLocale) (found : Findings) (data : PublicationData) :
    Tx (JsonValue × PublicationData) := do
  let listing ← orThrow
    (findListing data (env.toUpperCase (env.trim reference))) notFound
  refuse found.authority
  checkGeneration listing command.expectedRevision
  let eligibility := currentEligibility env listing locale
    listing.publicationGeneration found.evidence
  refuseDenied (checkActivation eligibility.fst command.actor) ineligible
  let content ← orThrow eligibility.snd (ineligible "approval_stale")
  refuse found.media
  let manifest := newManifest env content command found
  require (localeCopy manifest) .other
  let manifests ← orThrow (data.manifests.insert? manifest) .other
  .ok (.obj [("manifestId", .str manifest.id), ("reference", .str listing.reference),
      ("locale", .str content.locale.name), ("generation", .num content.generation),
      ("contentDigest", .str manifest.contentDigest)],
    { data with manifests := manifests })

/-! ## Activating -/

/-- The error a manifest that may not be activated is refused with. -/
def activationError (code : String) : Thrown JsonValue :=
  if code = "generation_superseded" ∨ code = "approval_stale" then
    fieldError .approvalStale "publication" code
  else ineligible code

/-- The pointer an activation leaves. -/
def activePointer (manifest : Manifest) (listing : Listing) (command : CommandEnvelope)
    (found : Findings) (existing : Option Pointer) : Pointer where
  listingId := listing.id
  locale := manifest.locale
  destination := manifest.destination
  manifestId := manifest.id
  state := .active
  generation := listing.publicationGeneration
  activatedAt := found.now
  activatedById := command.actor.id
  restrictedAt := none
  withdrawnAt := none
  reason := none
  version := (existing.map (fun p => p.version + 1)).getD 1

/-- **`activateManifest`**, in its transaction. -/
def activateManifest (context : OperationContext) (command : CommandEnvelope)
    (manifestId : Uuid) (found : Findings) (data : PublicationData) :
    Tx (JsonValue × PublicationData) := do
  let manifest ← orThrow (data.manifests.get? manifestId) notFound
  let listing ← orThrow (data.listings.get? manifest.listingId) notFound
  refuse found.authority
  checkGeneration listing command.expectedRevision
  require (manifest.destination = publicDestination)
    (ineligible "destination_not_supported")
  let eligibility := currentEligibility env listing manifest.locale
    manifest.generation found.evidence
  refuseDenied (checkActivation eligibility.fst command.actor) activationError
  -- anything that changed since preparation makes the manifest stale
  require (eligibility.snd.any
      (fun content => manifestDigest env content = manifest.contentDigest))
    (fieldError .approvalStale "publication" "manifest_superseded")
  refuse found.media
  let existing := data.pointers.get? (listing.id, manifest.locale, manifest.destination)
  let switched := { data with
    pointers := data.pointers.put (activePointer manifest listing command found existing) }
  -- the website shows exactly this manifest, or nothing is switched
  let shown ← orThrow
    ((loadPublishedListing found.reads switched listing.id manifest.locale).filter
      (fun shown => shown.manifest.id = manifest.id)) .other
  let projected := writeSearchDocument switched shown
  .ok (.obj [("reference", .str listing.reference),
      ("locale", .str manifest.locale.name), ("manifestId", .str manifest.id),
      ("generation", .num listing.publicationGeneration),
      ("approvalId", .str found.freshId), ("pointerState", .str "active")],
    { projected with
      deliveries :=
        ⟨manifest.id, listing.id, manifest.locale, manifest.destination, .publish,
          listing.publicationGeneration, .verified, some found.now, some found.now,
          .obj [("method", .str "read_back"),
            ("manifestDigest", .str manifest.contentDigest)]⟩ :: projected.deliveries
      outbox :=
        ⟨"publication.activated", listing.id,
          .obj [("locale", .str manifest.locale.name), ("manifestId", .str manifest.id)],
          listing.publicationGeneration, context.operationId⟩ :: projected.outbox })

/-! ## Removing exposure -/

/-- Which removal a person decided on. -/
inductive Removal where
  | restrict
  | withdraw

/-- The state a removal leaves a pointer in. -/
def Removal.state : Removal → PointerState
  | .restrict => .restricted
  | .withdraw => .withdrawn

/-- The command type of a removal. -/
def Removal.action : Removal → String
  | .restrict => "publication.restrict"
  | .withdraw => "publication.withdraw"

/-- The outbox event of a removal. -/
def Removal.eventType : Removal → String
  | .restrict => "publication.restricted"
  | .withdraw => "publication.withdrawn"

/-- Gives the selected listings a generation and a version. -/
def advance (selected : Listing → Bool) (generation version : ℕ) (l : Listing) :
    Listing :=
  if selected l then { l with publicationGeneration := generation, version := version }
  else l

@[simp] theorem advance_id (selected : Listing → Bool) (generation version : ℕ)
    (l : Listing) : (advance selected generation version l).id = l.id := by
  unfold advance
  split <;> rfl

/-- Takes the pointers of some keys out of exposure. -/
def retire (keys : List (Uuid × PublicLocale × PublicationDestination))
    (state : PointerState) (reason : String) (now : Instant) (versions : ℕ)
    (p : Pointer) : Pointer :=
  if p.key ∈ keys then
    { p with
      state := state
      reason := some reason
      restrictedAt := if state = .restricted then some now else p.restrictedAt
      withdrawnAt := if state = .withdrawn then some now else p.withdrawnAt
      version := p.version + versions }
  else p

@[simp] theorem retire_key (keys : List (Uuid × PublicLocale × PublicationDestination))
    (state : PointerState) (reason : String) (now : Instant) (versions : ℕ)
    (p : Pointer) : (retire keys state reason now versions p).key = p.key := by
  unfold retire
  split <;> rfl

/-- **The three writes of every removal**: the listing gets a new generation,
the affected pointers leave exposure, and the listing's search documents are
deleted. -/
def removePresentation (data : PublicationData) (listing : Listing)
    (selected : Listing → Bool) (affected : List Pointer) (state : PointerState)
    (reason : String) (now : Instant) (versions : ℕ) : PublicationData :=
  { data with
    listings := data.listings.update
      (advance selected (listing.publicationGeneration + 1) (listing.version + 1))
      (advance_id selected (listing.publicationGeneration + 1) (listing.version + 1))
    pointers := data.pointers.update
      (retire (affected.map Pointer.key) state reason now versions)
      (retire_key (affected.map Pointer.key) state reason now versions)
    documents := data.documents.keep (fun row => row.listingId ≠ listing.id) }

/-- Whether no affected locale is still shown on the website. -/
def readBackEmpty (reads : PublicReads) (data : PublicationData) (listing : Listing)
    (affected : List Pointer) : Bool :=
  affected.all (fun p => p.destination ≠ publicDestination
    || (loadPublishedListing reads data listing.id p.locale).isNone)

/-- The delivery that records the removal of a pointer: the website is
verified by read-back, any other destination is manual work. -/
def withdrawal (listing : Listing) (now : Instant) (evidence : JsonValue)
    (p : Pointer) : Delivery where
  manifestId := p.manifestId
  listingId := listing.id
  locale := p.locale
  destination := p.destination
  kind := .withdraw
  generation := listing.publicationGeneration + 1
  state := if p.destination = publicDestination then .withdrawn else .queued
  acknowledgedAt := none
  verifiedAt := if p.destination = publicDestination then some now else none
  evidence := if p.destination = publicDestination then evidence else .obj []

/-- The locales of pointers, as JSON. -/
def localesJson (pointers : List Pointer) : JsonValue :=
  .arr (pointers.map (fun p => .str p.locale.name))

/-- What a plan knows of a pointer. -/
def dependency (p : Pointer) : PointerDependency :=
  ⟨p.locale, p.destination, p.state, false⟩

/-- The pointers a removal affects. -/
def affectedBy (kind : Removal) (pointers : List Pointer) (generation : ℕ) :
    List PointerDependency :=
  match kind with
  | .restrict => (planMaterialRestriction (pointers.map dependency) generation).restrict
  | .withdraw => (planWithdrawal (pointers.map dependency) generation).withdraw

/-- The generation a removal leaves. -/
def nextGeneration (kind : Removal) (pointers : List Pointer) (generation : ℕ) : ℕ :=
  match kind with
  | .restrict =>
    (planMaterialRestriction (pointers.map dependency) generation).nextGeneration
  | .withdraw => (planWithdrawal (pointers.map dependency) generation).nextGeneration

/-- **`removeExposure`**, in its transaction. -/
def removeExposure (context : OperationContext) (kind : Removal)
    (command : CommandEnvelope) (reference reason : String) (found : Findings)
    (data : PublicationData) : Tx (JsonValue × PublicationData) := do
  let reason := env.trim reason
  require (reason ≠ "") (fieldError .validationFailed "reason" "required")
  let listing ← orThrow
    (findListing data (env.toUpperCase (env.trim reference))) notFound
  refuse found.authority
  checkGeneration listing command.expectedRevision
  let pointers := data.pointers.rows.filter (fun p => p.listingId = listing.id)
  let plan := affectedBy kind pointers listing.publicationGeneration
  let generation := nextGeneration kind pointers listing.publicationGeneration
  let affected := pointers.filter (fun p =>
    plan.any (fun a => a.locale = p.locale && a.destination = p.destination))
  let removed := removePresentation data listing
    (fun l => l.id = listing.id && l.version = listing.version) affected kind.state
    reason found.now 0
  require (readBackEmpty found.reads removed listing affected) .other
  .ok (.obj [("reference", .str listing.reference), ("generation", .num generation),
      ("affected", .arr (affected.map (fun p => .obj [("locale", .str p.locale.name),
        ("destination", .str p.destination.name), ("state", .str kind.state.name)])))],
    { removed with
      deliveries := affected.map (withdrawal listing found.now
        (.obj [("method", .str "read_back")])) ++ removed.deliveries
      outbox :=
        ⟨kind.eventType, listing.id, .obj [("locales", localesJson affected)],
          generation, context.operationId⟩ :: removed.outbox })

/-! ## Seller instructions -/

/-- **`recordSellerInstruction`**, in its transaction. The instruction itself
is evidence, which later calls find. -/
def recordSellerInstruction (context : OperationContext) (command : CommandEnvelope)
    (reference : String) (found : Findings) (data : PublicationData) :
    Tx (JsonValue × PublicationData) := do
  let listing ← orThrow (findListing data (env.toUpperCase reference)) notFound
  refuse found.authority
  require (listing.version = command.expectedRevision)
    (conflict (.obj [("version", .num listing.version)]))
  refuse found.review
  let reason := "Seller instruction replaced by " ++ found.instructionReference
  let pointers := data.pointers.rows.filter (fun p =>
    p.listingId = listing.id && p.state = .active)
  let removed := removePresentation data listing (fun l => l.id = listing.id) pointers
    .restricted reason found.now 1
  require (readBackEmpty found.reads removed listing pointers) .other
  .ok (.obj [("reference", .str listing.reference),
      ("instructionId", .str found.freshId),
      ("version", .num (listing.version + 1 : ℕ)),
      ("generation", .num (listing.publicationGeneration + 1 : ℕ))],
    { removed with
      deliveries := pointers.map (withdrawal listing found.now
        (.obj [("method", .str "read_back"), ("instructionId", .str found.freshId)]))
        ++ removed.deliveries
      outbox :=
        ⟨"publication.restricted", listing.id,
          .obj [("locales", localesJson pointers), ("instructionId", .str found.freshId)],
          listing.publicationGeneration + 1, context.operationId⟩ :: removed.outbox })

/-! ## Commands -/

/-- **A command**, as it is submitted. -/
inductive Command where
  | prepareManifest (reference : String) (locale : PublicLocale)
  | activateManifest (manifestId : Uuid)
  | removeExposure (kind : Removal) (reference reason : String)
  | recordSellerInstruction (reference : String) (input : JsonValue)

/-- The operation type of a command. -/
def Command.type : Command → String
  | .prepareManifest _ _ => "publication.manifest.prepare"
  | .activateManifest _ => "publication.activate"
  | .removeExposure kind _ _ => kind.action
  | .recordSellerInstruction _ _ => "inventory.instruction.record"

/-- The canonical body the request hash is computed from. -/
def Command.body (command : CommandEnvelope) : Command → JsonValue
  | .prepareManifest reference locale =>
    .obj [("reference", .str reference), ("locale", .str locale.name),
      ("expectedRevision", .num command.expectedRevision)]
  | .activateManifest manifestId =>
    .obj [("manifestId", .str manifestId),
      ("expectedRevision", .num command.expectedRevision)]
  | .removeExposure _ reference reason =>
    .obj [("reference", .str reference), ("reason", .str (env.trim reason)),
      ("expectedRevision", .num command.expectedRevision)]
  | .recordSellerInstruction reference input =>
    .obj [("input", input), ("reference", .str reference),
      ("expectedRevision", .num command.expectedRevision)]

/-- The version an operation records; an instruction records none. -/
def Command.expectedVersion (command : CommandEnvelope) : Command → Option ℤ
  | .recordSellerInstruction _ _ => none
  | _ => some command.expectedRevision

/-- The transaction of a command. -/
def Command.run (command : CommandEnvelope) (found : Findings)
    (context : OperationContext) (data : PublicationData) :
    Command → Tx (JsonValue × PublicationData)
  | .prepareManifest reference locale =>
    Publication.prepareManifest env command reference locale found data
  | .activateManifest manifestId =>
    Publication.activateManifest env context command manifestId found data
  | .removeExposure kind reference reason =>
    Publication.removeExposure env context kind command reference reason found data
  | .recordSellerInstruction reference _ =>
    Publication.recordSellerInstruction env context command reference found data

/-- What a call meets in `runOperation`. -/
structure OperationFindings where
  /-- Whether the advisory lock of the key was free. -/
  locked : Bool
  /-- The id the database draws for the receipt. -/
  freshId : Uuid
  now : Instant

/-- The call of `runOperation` a command makes. -/
def Command.call (c : Command) (command : CommandEnvelope) (found : Findings)
    (operation : OperationFindings) : Call PublicationData JsonValue where
  input :=
    { actor := command.actor
      type := c.type
      idempotencyKey := command.operationId
      requestHash := env.hashRequest (c.body env command)
      expectedVersion := c.expectedVersion command
      subject := none
      butlerAuthorization := false }
  fn := fun context data => effect (c.run env command found context data)
  butlerCheck := fun _ _ => .error .other
  locked := operation.locked
  freshId := operation.freshId
  now := operation.now

/-- **A command**: only staff, only with authority, and then the operation. -/
def submit (db : Db PublicationData) (c : Command) (command : CommandEnvelope)
    (found : Findings) (operation : OperationFindings) :
    Db PublicationData × Answer JsonValue :=
  if command.actor.kind ≠ .staff then
    (db, .rolledBack (.appError (AppError.ofCode .forbidden)))
  else
    match found.early with
    | some error => (db, .rolledBack error)
    | none => runOperation some db (c.call env command found operation)

end Publication
