import MsRealty.CanonicalJson
import MsRealty.Editorial
import MsRealty.PublicationCommands
import MsRealty.RowLocks

/-!
# Facts under publication

The commands by which facts are reviewed and published, statement by statement
(`src/server/publication/commands.ts`): the approval of a fact revision of a
property, that of a revision of a listing, the preparation and the activation of
a manifest, and its removal. One property may have many listings, whose commands
interleave; they lock the rows of the listing, of the property and of pointers.

What a command reads elsewhere – the caller's grants, the seller's instruction,
translations, media – is a finding of the call, and may be anything; media are
locked too, which is left out, as are search documents, deliveries and events,
which these commands only write. A call that is refused or replayed before its
transaction performs no statement.
-/

namespace FactFence

open Publication RowLocks

/-! ## Approvals -/

/-- `approvalStates`. -/
inductive ApprovalState where
  | pending
  | approved
  | rejected
  | invalidated
  | expired
  | withdrawn
  deriving DecidableEq

/-- `approvalKinds`. -/
inductive ApprovalKind where
  | factual
  | editorial
  | language
  | legalProcessClaim
  | ownerAcknowledgment
  | publication
  | messageSend
  | proposalTerms
  | localeIndexability
  | importApply
  | legacySourceAsIs
  | legacyContentApproval
  deriving DecidableEq

/-- **An approval** of the digest of a subject. -/
structure ApprovalRow where
  id : Uuid
  kind : ApprovalKind
  state : ApprovalState
  subjectType : String
  subjectId : Uuid
  subjectVersion : ℕ
  subjectHash : String
  scope : JsonValue
  decidedBy : Actor
  decidedWithCapability : Capability
  decidedAt : Instant
  decisionNote : Option String
  expiresAt : Option Instant

/-- `isApprovalValid`. -/
def ApprovalRow.isValid (approval : ApprovalRow) (currentHash : String) (now : Instant) : Bool :=
  approval.state = .approved && approval.subjectHash = currentHash
    && approval.expiresAt.all (fun expiry => now < expiry)

/-! ## The tables -/

/-- A property. -/
structure PropertyRow where
  id : Uuid
  reference : String
  approvedFactRevisionId : Option Uuid
  version : ℕ

/-- **A listing**, with what is read of it beside its publication. -/
structure ListingRow extends Listing where
  propertyId : Uuid
  editorialState : Editorial.EditorialState
  latestRevisionNumber : ℕ
  approvedRevisionId : Option Uuid

/-- **The tables.** -/
structure FenceData where
  properties : Table Uuid PropertyRow PropertyRow.id
  factRevisions : Table Uuid Editorial.FactRevision Editorial.FactRevision.id
  listings : Table Uuid ListingRow (fun l => l.id)
  revisions : Table Uuid Editorial.ListingRevision Editorial.ListingRevision.id
  approvals : Table Uuid ApprovalRow ApprovalRow.id
  manifests : Table Uuid Manifest Manifest.id
  pointers : Table (Uuid × PublicLocale × PublicationDestination) Pointer Pointer.key

/-- A row that is locked. -/
inductive Row where
  | listing (id : Uuid)
  | property (id : Uuid)
  | pointer (key : Uuid × PublicLocale × PublicationDestination)
  deriving DecidableEq

/-- A command, as statements. -/
abbrev Statements (α : Type) : Type := Transaction FenceData Row α

/-- **What a command finds** outside its tables. -/
structure Findings where
  /-- What the check of the caller's authority refuses. -/
  authority : Option (Thrown JsonValue)
  /-- The grants of the caller, for a transition of a listing. -/
  capabilities : List CapabilityGrant
  /-- The seller instruction, if it is valid. -/
  sellerInstruction : Option Uuid
  /-- The localized revision that is approved for its source, and its digest. -/
  localized : Option (Uuid × String)
  language : Option Uuid
  mediaEligible : Bool
  media : JsonText.PlainJson
  /-- What the verification of the media refuses. -/
  mediaVerified : Option (Thrown JsonValue)
  /-- Whether the copy makes regulated claims. -/
  makesClaims : Bool
  claimReview : Option Uuid
  disclosure : JsonText.PlainJson
  reads : PublicReads
  operationId : Uuid
  approvalId : Uuid
  manifestId : Uuid
  now : Instant

/-- Refuses what a check found to refuse. -/
def refuse (refusal : Option (Thrown JsonValue)) : Statements Unit :=
  Prog.demand (refusal.isNone = true)

/-- A listing that is locked, and read under the lock. -/
def lockListing (isIt : ListingRow → Bool) : Statements ListingRow := do
  let data ← reading
  let listing ← Prog.required (data.listings.rows.find? isIt)
  let data ← locking (.listing listing.id) .update
  Prog.required ((data.listings.get? listing.id).filter isIt)

/-! ## Approving -/

/-- `insertApproval`. -/
def insertApproval (approval : ApprovalRow) : Statements Unit :=
  writing (fun data =>
    { data with approvals := (data.approvals.insert? approval).getD data.approvals })

/-- The approval a command records. -/
def newApproval (command : CommandEnvelope) (found : Findings) (kind : ApprovalKind)
    (subjectType : String) (subjectId : Uuid) (subjectVersion : ℕ) (subjectHash : String)
    (capability : Capability) (scope : JsonValue) (note : Option String) : ApprovalRow where
  id := found.approvalId
  kind := kind
  state := .approved
  subjectType := subjectType
  subjectId := subjectId
  subjectVersion := subjectVersion
  subjectHash := subjectHash
  scope := scope
  decidedBy := command.actor
  decidedWithCapability := capability
  decidedAt := found.now
  decisionNote := Authz.present note
  expiresAt := none

/-- **`validApprovalId`**: the newest approval of a kind that is valid for the
digest. -/
def validApprovalId (data : FenceData) (kind : ApprovalKind) (subjectType : String)
    (subjectId : Uuid) (currentHash : String) (now : Instant) : Option Uuid :=
  (((data.approvals.rows.filter (fun a => a.kind = kind && a.subjectType = subjectType
      && a.subjectId = subjectId && a.state = .approved)).insertionSort
    (fun a b => b.decidedAt ≤ a.decidedAt)).find? (fun a => a.isValid currentHash now)).map
    ApprovalRow.id

/-- The pointers by which a property is shown: active ones of its listings. -/
def FenceData.exposures (data : FenceData) (propertyId : Uuid) : List Pointer :=
  data.pointers.rows.filter (fun pointer => pointer.state = .active
    && (data.listings.get? pointer.listingId).any (fun l => l.propertyId = propertyId))

/-- The update of a property whose facts are approved. -/
def approveFacts (property : PropertyRow) (revisionId : Uuid) (data : FenceData) : FenceData :=
  { data with
    properties := data.properties.update (fun p =>
      if p.id = property.id ∧ p.version = property.version then
        { p with approvedFactRevisionId := some revisionId, version := property.version + 1 }
      else p) (fun p => by split_ifs <;> rfl) }

variable (env : Runtime)

/-- **`approveFactRevision`.** -/
def approveFactRevision (command : CommandEnvelope) (factRevisionId : Uuid) (scope : String)
    (found : Findings) : Statements Unit := do
  let scope := env.trim scope
  Prog.demand (scope ≠ "")
  let data ← reading
  let revision ← Prog.required (data.factRevisions.get? factRevisionId)
  let data ← locking (.property revision.propertyId) .update
  let property ← Prog.required (data.properties.get? revision.propertyId)
  refuse found.authority
  Prog.demand (property.version = command.expectedRevision)
  (if property.approvedFactRevisionId = some revision.id then pure ()
    else do
      let data ← reading
      Prog.demand ((data.exposures property.id).isEmpty = true))
  insertApproval (newApproval command found .factual "property_fact_revision" revision.id
    revision.revisionNumber revision.contentDigest .listingReviewFacts
    (.obj [("reviewScope", .str scope)]) none)
  writing (approveFacts property revision.id)

/-- A listing as its transitions are checked. -/
def ListingRow.record (listing : ListingRow) :
    Transition.TableRecord Editorial.EditorialState :=
  ⟨listing.id, some listing.reference, listing.editorialState, listing.version, none, none,
    some listing.propertyId, none⟩

/-- Updates the listings of an id that satisfy a condition. -/
def updateListing (id : Uuid) (isIt : ListingRow → Bool) (f : ListingRow → ListingRow)
    (hf : ∀ l, (f l).id = l.id) (data : FenceData) : FenceData :=
  { data with
    listings := data.listings.update (fun l => if l.id = id ∧ isIt l then f l else l)
      (fun l => by split_ifs; exacts [hf l, rfl]) }

/-- The request of an approval of a listing's revision. -/
def approvalRequest (command : CommandEnvelope) (revisionId : Uuid) (found : Findings) :
    Transition.TransitionRequest Editorial.EditorialState Editorial.EditorialEvidence where
  actor := command.actor
  capabilities := found.capabilities
  expectedVersion := command.expectedRevision
  target := .approvedRevision
  evidence := ⟨some revisionId, none, some true, none⟩
  operationId := found.operationId
  time := found.now
  reason := none

/-- Whether a transition is applied. -/
def isApplied {S E : Type} : Transition.TransitionResult S E → Bool
  | .applied _ _ _ => true
  | _ => false

/-- **`approveListingRevision`.** -/
def approveListingRevision (command : CommandEnvelope) (reference : String) (revisionId : Uuid)
    (note : Option String) (found : Findings) : Statements Unit := do
  let reference := env.toUpperCase (env.trim reference)
  let listing ← lockListing (fun l => l.reference = reference)
  let data ← reading
  let revision ← Prog.required ((data.revisions.get? revisionId).filter
    (fun r => r.listingId = listing.id))
  Prog.demand (revision.revisionNumber = listing.latestRevisionNumber)
  Prog.demand (isApplied (Transition.applyTransition Editorial.editorialTransitions listing.record
    (approvalRequest command revision.id found)) = true)
  writing (updateListing listing.id (fun l => l.version = listing.version)
    (fun l => { l with editorialState := .approvedRevision, version := listing.version + 1 })
    (fun _ => rfl))
  insertApproval (newApproval command found .editorial "listing_revision" revision.id
    revision.revisionNumber revision.contentDigest .listingReviewFacts (.obj []) note)
  writing (updateListing listing.id (fun _ => true)
    (fun l => { l with approvedRevisionId := some revision.id }) (fun _ => rfl))

/-! ## Manifests -/

/-- The evidence for a publication, of the revisions that are approved. -/
def evidenceOf (property : PropertyRow) (revision : Editorial.ListingRevision)
    (factRevision : Editorial.FactRevision) (editorial factual : Option Uuid) (found : Findings) :
    Evidence where
  listingRevisionId := revision.id
  listingRevisionDigest := revision.contentDigest
  factRevisionId := factRevision.id
  factRevisionDigest := factRevision.contentDigest
  factual := if property.approvedFactRevisionId = some factRevision.id then factual else none
  editorial := editorial
  sellerInstruction := found.sellerInstruction
  localized := found.localized
  language := found.language
  mediaEligible := found.mediaEligible
  media := found.media.val
  makesClaims := found.makesClaims
  claimReview := found.claimReview
  disclosure := found.disclosure.val

/-- The evidence that is read: the property is locked, to share it. -/
def readEvidence (listing : ListingRow) (found : Findings) : Statements (Option Evidence) := do
  match listing.approvedRevisionId with
  | none => pure none
  | some revisionId =>
    let before ← reading
    let data ← locking (.property listing.propertyId) .share
    match before.revisions.get? revisionId, data.properties.get? listing.propertyId with
    | some revision, some property =>
      let data ← reading
      match data.factRevisions.get? revision.factRevisionId with
      | none => pure none
      | some factRevision =>
        let data ← reading
        let editorial := validApprovalId data .editorial "listing_revision" revision.id
          revision.contentDigest found.now
        let data ← reading
        let factual := validApprovalId data .factual "property_fact_revision" factRevision.id
          factRevision.contentDigest found.now
        pure (some (evidenceOf property revision factRevision editorial factual found))
    | _, _ => pure none

/-- **`currentEligibility`.** -/
def currentEligibility (listing : ListingRow) (locale : PublicLocale) (generation : ℕ)
    (found : Findings) : Statements (ActivationInput × Option ManifestContent) := do
  let evidence ← readEvidence listing found
  pure (Publication.currentEligibility env listing.toListing locale generation evidence)

/-- The row of a manifest. -/
def newManifest (content : ManifestContent) (command : CommandEnvelope) (found : Findings) :
    Manifest where
  id := found.manifestId
  listingId := content.listingId
  locale := content.locale
  destination := content.destination
  generation := content.generation
  listingRevisionId := content.listingRevisionId
  factRevisionId := content.factRevisionId
  localizedRevisionId := content.localizedRevisionId
  media := content.media
  disclosure := content.disclosure
  availabilityBasis := content.availabilityBasis
  policyRevision := content.policyRevision
  decisions := content.decisions
  contentDigest := manifestDigest env content
  createdById := command.actor.id
  createdAt := found.now

/-- Inserts a manifest: its id is new. -/
def addManifest (manifest : Manifest) (data : FenceData) : FenceData :=
  { data with manifests := (data.manifests.insert? manifest).getD data.manifests }

/-- **`prepareManifest`.** -/
def prepareManifest (command : CommandEnvelope) (reference : String) (locale : PublicLocale)
    (found : Findings) : Statements Unit := do
  let reference := env.toUpperCase (env.trim reference)
  let listing ← lockListing (fun l => l.reference = reference)
  refuse found.authority
  Prog.demand (listing.publicationGeneration = command.expectedRevision)
  let eligibility ← currentEligibility env listing locale listing.publicationGeneration found
  Prog.demand (checkActivation eligibility.fst command.actor = .allowed)
  let content ← Prog.required eligibility.snd
  refuse found.mediaVerified
  let manifest := newManifest env content command found
  Prog.demand (localeCopy manifest = true)
  let data ← reading
  Prog.demand ((data.manifests.get? manifest.id).isNone = true)
  writing (addManifest manifest)

/-! ## Pointers -/

/-- The pointer an activation leaves. -/
def activePointer (manifest : Manifest) (listing : ListingRow) (command : CommandEnvelope)
    (found : Findings) (existing : Option Pointer) : Pointer where
  listingId := listing.id
  locale := manifest.locale
  destination := manifest.destination
  manifestId := manifest.id
  state := .active
  generation := listing.publicationGeneration
  activatedAt := found.now
  activatedById := command.actor.id
  restrictedAt := none
  withdrawnAt := none
  reason := none
  version := (existing.map (fun p => p.version + 1)).getD 1

/-- Writes a pointer. -/
def putPointer (pointer : Pointer) (data : FenceData) : FenceData :=
  { data with pointers := data.pointers.put pointer }

/-- The manifest a listing is shown from, in a locale: that of its active pointer
of the current generation, while consent and translation hold. -/
def shownManifest (reads : PublicReads) (data : FenceData) (listingId : Uuid)
    (locale : PublicLocale) : Option Manifest := do
  let pointer ← data.pointers.get? (listingId, locale, publicDestination)
  let listing ← data.listings.get? pointer.listingId
  let manifest ← data.manifests.get? pointer.manifestId
  if listing.publicationGeneration = pointer.generation
      && (consentOf manifest).any (fun i => reads.consent i listing.id)
      && manifest.localizedRevisionId.all reads.approvedForSource
      && pointer.state = .active then
    some manifest
  else none

/-- **`activateManifest`.** -/
def activateManifest (command : CommandEnvelope) (manifestId : Uuid) (found : Findings) :
    Statements Unit := do
  let data ← reading
  let manifest ← Prog.required (data.manifests.get? manifestId)
  let listing ← lockListing (fun l => l.id = manifest.listingId)
  refuse found.authority
  Prog.demand (listing.publicationGeneration = command.expectedRevision)
  Prog.demand (manifest.destination = publicDestination)
  let eligibility ← currentEligibility env listing manifest.locale manifest.generation found
  Prog.demand (checkActivation eligibility.fst command.actor = .allowed)
  let content ← Prog.required eligibility.snd
  Prog.demand (manifestDigest env content = manifest.contentDigest)
  refuse found.mediaVerified
  insertApproval (newApproval command found .publication "publication_manifest" manifest.id
    manifest.generation manifest.contentDigest .publicationRelease
    (.obj [("locale", .str manifest.locale.name),
      ("destination", .str manifest.destination.name)]) none)
  let data ← locking (.pointer (listing.id, manifest.locale, manifest.destination)) .update
  let existing := data.pointers.get? (listing.id, manifest.locale, manifest.destination)
  writing (putPointer (activePointer manifest listing command found existing))
  -- the website shows exactly this manifest, or nothing is switched
  let data ← reading
  Prog.demand ((shownManifest found.reads data listing.id manifest.locale).any
    (fun shown => shown.id = manifest.id) = true)

/-- Locks some pointers. -/
def lockPointers : List Pointer → Statements Unit
  | [] => pure ()
  | pointer :: pointers => do
    let _ ← locking (.pointer pointer.key) .update
    lockPointers pointers

/-- Takes pointers out of exposure. -/
def retirePointers (pointers : List Pointer) (kind : Removal) (reason : String) (now : Instant)
    (data : FenceData) : FenceData :=
  { data with
    pointers := data.pointers.update (retire (pointers.map Pointer.key) kind.state reason now 0)
      (retire_key (pointers.map Pointer.key) kind.state reason now 0) }

/-- **`removeExposure`**: `restrictPublication` and `withdrawPublication`. -/
def removeExposure (kind : Removal) (command : CommandEnvelope) (reference reason : String)
    (found : Findings) : Statements Unit := do
  let reason := env.trim reason
  Prog.demand (reason ≠ "")
  let reference := env.toUpperCase (env.trim reference)
  let listing ← lockListing (fun l => l.reference = reference)
  refuse found.authority
  Prog.demand (listing.publicationGeneration = command.expectedRevision)
  let data ← reading
  lockPointers (data.pointers.rows.filter (fun p => p.listingId = listing.id))
  let data ← reading
  let pointers := data.pointers.rows.filter (fun p => p.listingId = listing.id)
  let plan := affectedBy kind pointers listing.publicationGeneration
  let generation := nextGeneration kind pointers listing.publicationGeneration
  let affected := pointers.filter (fun p =>
    plan.any (fun a => a.locale = p.locale && a.destination = p.destination))
  writing (updateListing listing.id (fun l => l.version = listing.version)
    (fun l => { l with publicationGeneration := generation, version := listing.version + 1 })
    (fun _ => rfl))
  writing (retirePointers affected kind reason found.now)
  let data ← reading
  Prog.demand (affected.all (fun p => p.destination ≠ publicDestination
    || (shownManifest found.reads data listing.id p.locale).isNone) = true)

/-! ## Commands -/

/-- **A command.** -/
inductive Command where
  | approveFactRevision (factRevisionId : Uuid) (scope : String)
  | approveListingRevision (reference : String) (revisionId : Uuid) (note : Option String)
  | prepareManifest (reference : String) (locale : PublicLocale)
  | activateManifest (manifestId : Uuid)
  | removeExposure (kind : Removal) (reference reason : String)

/-- The statements of a command. -/
def Command.statements (command : CommandEnvelope) (found : Findings) :
    Command → Statements Unit
  | .approveFactRevision factRevisionId scope =>
    FactFence.approveFactRevision env command factRevisionId scope found
  | .approveListingRevision reference revisionId note =>
    FactFence.approveListingRevision env command reference revisionId note found
  | .prepareManifest reference locale =>
    FactFence.prepareManifest env command reference locale found
  | .activateManifest manifestId => FactFence.activateManifest env command manifestId found
  | .removeExposure kind reference reason =>
    FactFence.removeExposure env kind command reference reason found

end FactFence
