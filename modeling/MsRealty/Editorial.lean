import MsRealty.DraftTexts
import MsRealty.Transition

/-!
# The editorial life of listings

A listing is drafted, frozen as a revision, submitted for review and approved.
Its editorial state has a machine (`src/domain/listing.ts`); what it is written
by are the commands of the inventory (`src/server/inventory/commands.ts`) and of
the publication (`src/server/publication/commands.ts`): submitting and approving
go through the transitions of the machine, freezing sets the column.

The authorization rows a command reads in its transaction, the clock, digests
and what the database draws are *findings* of the call, and may be anything.
Timestamps nothing reads are left out. A transaction that a constraint of the
database rolls back is one that throws.
-/

namespace Editorial

open Inventory

/-! ## The machine -/

/-- `editorialStates`. -/
inductive EditorialState where
  | draft
  | needsFacts
  | inReview
  | approvedRevision
  | changesRequested
  deriving DecidableEq

/-- The name of a state in the database. -/
def EditorialState.name : EditorialState → String
  | .draft => "draft"
  | .needsFacts => "needs_facts"
  | .inReview => "in_review"
  | .approvedRevision => "approved_revision"
  | .changesRequested => "changes_requested"

/-- **`editorialMachine`.** -/
def editorialMachine : Machine EditorialState where
  states := [.draft, .needsFacts, .inReview, .approvedRevision, .changesRequested]
  transitions
    | .draft => [.needsFacts, .inReview]
    | .needsFacts => [.draft, .inReview]
    | .inReview => [.approvedRevision, .changesRequested, .needsFacts]
    | .changesRequested => [.draft, .inReview]
    | .approvedRevision => [.draft]

/-- What a step of the machine is taken on. -/
structure EditorialEvidence where
  revisionId : Option Uuid
  missingRequiredFacts : Option ℕ
  approvalValid : Option Bool
  reason : Option String

/-- **`guardEditorialTransition`.** -/
def guardEditorialTransition (_source target : EditorialState) (evidence : EditorialEvidence)
    (actor : Actor) : Decision :=
  match target with
  | .inReview =>
    .firstDenial [
      .need (Authz.present evidence.revisionId).isSome "revision_required",
      .need (evidence.missingRequiredFacts.getD 0 = 0) "required_facts_missing"]
  | .approvedRevision =>
    .firstDenial [
      .need (actor.kind = .staff) "human_required",
      .need (Authz.present evidence.revisionId).isSome "revision_required",
      .need (evidence.approvalValid.getD false) "approval_required"]
  | .changesRequested => .need (Authz.present evidence.reason).isSome "reason_required"
  | _ => .allowed

/-- **`editorialTransitions`.** -/
def editorialTransitions : Transition.TransitionSpec EditorialState EditorialEvidence where
  recordType := "listing"
  machine := editorialMachine
  stateName := EditorialState.name
  capabilityFor _ target _ :=
    if target = .approvedRevision ∨ target = .changesRequested then .listingReviewFacts
    else .listingEdit
  guard := guardEditorialTransition

/-! ## Readiness -/

/-- A fact, as readiness is judged by: rows have the names of the enumerations,
terms what their JSON says. -/
structure FactRecord where
  fieldKey : String
  state : String
  sourceClass : Option String
  /-- A human review is recorded. -/
  reviewed : Bool

/-- Why a required fact is missing. -/
inductive ReadinessProblem where
  | absent
  | undecided
  | unreviewed

def ReadinessProblem.name : ReadinessProblem → String
  | .absent => "absent"
  | .undecided => "undecided"
  | .unreviewed => "unreviewed"

/-- `decidedFactStates`. -/
def decidedFactStates : List FactState := [.known, .notApplicable, .withheld]

/-- **`requiredFactKeys`**: the facts a public listing must state. -/
def requiredFactKeys (propertyType : PropertyType) : List String :=
  ["price", "location", "area"] ++
    if propertyType ∈ [PropertyType.apartment, .house] then ["bedrooms"] else []

/-- `factsForKey`: the area has a fact for each basis. -/
def factsForKey (key : String) (facts : List FactRecord) : List FactRecord :=
  if key = "area" then
    facts.filter (fun f => f.fieldKey = "area" || "area.".isPrefixOf f.fieldKey)
  else facts.filter (fun f => f.fieldKey = key)

/-- `needsHumanReview`: an imported decided value no person has confirmed. -/
def needsHumanReview (fact : FactRecord) : Bool :=
  fact.sourceClass = some SourceClass.legacyImport.name && !fact.reviewed
    && fact.state ∈ decidedFactStates.map FactState.name

/-- `mustBeDecided`: the states in which a fact of the key may be published. -/
def mustBeDecided (key : String) : Option (List FactState) :=
  if key = "price" then some [.known, .withheld]
  else if key = "location" then some [.known]
  else none

/-- What is missing of one recorded fact. -/
def problemOf (accepted : Option (List FactState)) (fact : FactRecord) :
    Option (String × ReadinessProblem) :=
  if accepted.any (fun states => fact.state ∉ states.map FactState.name) then
    some (fact.fieldKey, .undecided)
  else if needsHumanReview fact then some (fact.fieldKey, .unreviewed)
  else none

/-- **`missingRequiredFacts`**, with the key and the problem of each. -/
def missingRequiredFacts (propertyType : PropertyType) (facts : List FactRecord) :
    List (String × ReadinessProblem) :=
  (requiredFactKeys propertyType).flatMap (fun key =>
    let recorded := factsForKey key facts
    if recorded = [] then [(key, .absent)]
    else recorded.filterMap (problemOf (mustBeDecided key)))

/-- The facts the terms of a revision record, as readiness reads them. -/
def termsFacts (terms : JsonValue) : List FactRecord :=
  match field "facts" (some terms) with
  | some (.obj members) => members.filterMap (fun m => do
      let state ← (field "state" (some m.snd)).bind JsonValue.asString?
      let sourceClass := match field "sourceClass" (some m.snd) with
        | none | some .null => some SourceClass.sourceSupplied.name
        | some value => value.asString?
      some ⟨m.fst, state, sourceClass, false⟩)
  | _ => []

/-! ## The tables -/

/-- **A listing.** -/
structure ListingRow where
  id : Uuid
  reference : String
  propertyId : Uuid
  purpose : ListingPurpose
  editorialState : EditorialState
  /-- The working copy. -/
  draft : JsonValue
  version : ℕ
  latestRevisionNumber : ℕ
  approvedRevisionId : Option Uuid

/-- A property. -/
structure PropertyRow where
  id : Uuid
  reference : String
  propertyType : PropertyType
  place : Place
  exactAddress : Option String
  publicPrecision : String

/-- A revision of the facts of a property. -/
structure FactRevision where
  id : Uuid
  propertyId : Uuid
  revisionNumber : ℕ
  basedOnRevisionId : Option Uuid
  contentDigest : String
  materialChange : String
  note : Option String
  createdBy : Actor

/-- A fact of a revision. -/
structure PropertyFact where
  factRevisionId : Uuid
  fact : RecordedFact
  reviewedAt : Option Instant

/-- **A revision of a listing**: what is reviewed and approved. -/
structure ListingRevision where
  id : Uuid
  listingId : Uuid
  revisionNumber : ℕ
  factRevisionId : Uuid
  terms : JsonValue
  sourceCopy : JsonValue
  disclosure : JsonValue
  contentDigest : String
  createdBy : Actor

/-- A medium of a listing. -/
structure MediaRelation where
  id : Uuid
  listingId : Uuid
  mediaAssetId : Uuid
  position : ℕ
  hidden : Bool
  removedAt : Option Instant

/-- A medium of a revision. -/
structure RevisionMedia where
  listingRevisionId : Uuid
  mediaRelationId : Uuid
  mediaAssetId : Uuid
  position : ℕ

/-- An approval of a revision of a listing. -/
structure EditorialApproval where
  id : Uuid
  subjectId : Uuid
  subjectVersion : ℕ
  subjectHash : String
  decidedBy : Actor
  decidedWithCapability : Capability
  decidedAt : Instant
  note : Option String

/-- What is recorded of a command of the inventory. -/
structure HistoryEntry where
  actor : Actor
  operationId : Uuid
  listingId : Uuid
  reference : String
  action : String
  payload : JsonValue

/-- **The tables of the editorial commands**, what is recorded newest first. -/
structure EditorialData where
  listings : Table Uuid ListingRow ListingRow.id
  properties : Table Uuid PropertyRow PropertyRow.id
  factRevisions : Table Uuid FactRevision FactRevision.id
  facts : List PropertyFact
  revisions : Table Uuid ListingRevision ListingRevision.id
  media : List MediaRelation
  revisionMedia : List RevisionMedia
  approvals : List EditorialApproval
  history : List HistoryEntry
  activity : List Transition.ActivityDescription
  audit : List (Transition.AuditPayload EditorialState EditorialEvidence)

/-- Writes the row of a listing. -/
def writeListing (data : EditorialData) (row : ListingRow) : EditorialData :=
  { data with listings := data.listings.put row }

/-! ## What a command finds elsewhere -/

/-- **What a transaction finds** outside its tables: the rows of authorization,
the clock, digests, and what the database draws. -/
structure Findings where
  authz : Authz.AuthzData
  now : Instant
  /-- `sha256Hex(canonicalJson(value))`. -/
  digest : JsonValue → String
  /-- What the sequence of the listing references gives. -/
  lotNumber : ℕ
  propertyReference : String
  listingId : Uuid
  propertyId : Uuid
  factRevisionId : Uuid
  revisionId : Uuid
  approvalId : Uuid

/-- The resource a listing is checked as. -/
def ListingRow.resource (row : ListingRow) : Resource :=
  ⟨"listing", some row.id, none, none, some row.propertyId, none⟩

/-- `formatListingReference`. -/
def formatListingReference (lotNumber : ℕ) : String :=
  "MS-" ++ String.ofList (DecimalText.zeroPad 5 lotNumber)

/-- The entry of a command. -/
def ListingRow.entry (row : ListingRow) (context : OperationContext) (action : String)
    (payload : List (String × JsonValue)) : HistoryEntry :=
  ⟨context.actor, context.operationId, row.id, row.reference, action, .obj payload⟩

/-- `edited`: the listing of a reference, if the actor may read and edit it. -/
def edited (schemas : Tx.Schemas) (found : Findings) (actor : Actor) (data : EditorialData)
    (reference : String) : Tx ListingRow := do
  let row ← Tx.found (data.listings.rows.find?
    (fun row => row.reference = schemas.toUpperCase reference)) (Tx.ofCode .notFound)
  Tx.demand (Authz.can found.authz actor .listingRead (some row.resource) found.now = true)
    (Tx.ofCode .notFound)
  Tx.demand (Authz.can found.authz actor .listingEdit (some row.resource) found.now = true)
    (Tx.ofCode .forbidden)
  .ok row

/-! ## Drafting -/

/-- The input of `createListingDraft`, as its schema leaves it. -/
structure CreateListing where
  propertyType : PropertyType
  purpose : ListingPurpose
  place : Place
  exactAddress : String
  draft : ListingDraft

/-- **`createListingSchema`.** -/
def createListingSchema (value : JsonValue) : Option CreateListing := do
  let raw := some value
  let propertyType ← member PropertyType.name
    [.apartment, .house, .plot, .commercial, .hotel, .development, .other]
    (field "propertyType" raw)
  let purpose ← purposeOf (field "purpose" raw)
  let country ← member id ["BG", "GR"] (field "country" raw)
  let region ← trimmed 1 150 (field "region" raw)
  let settlement ← trimmed 1 150 (field "settlement" raw)
  let exactAddress ← trimmed 0 500 (field "exactAddress" raw)
  let draft ← (field "draft" raw).bind draftSchema
  some ⟨propertyType, purpose, ⟨country, region, settlement⟩, exactAddress, draft⟩

/-- The property of a new listing. -/
def CreateListing.property (input : CreateListing) (found : Findings) : PropertyRow where
  id := found.propertyId
  reference := found.propertyReference
  propertyType := input.propertyType
  place := input.place
  exactAddress := Authz.present (some input.exactAddress)
  publicPrecision := "settlement"

/-- The row of a new listing. -/
def CreateListing.listing (input : CreateListing) (found : Findings) : ListingRow where
  id := found.listingId
  reference := formatListingReference found.lotNumber
  propertyId := found.propertyId
  purpose := input.purpose
  editorialState := .draft
  draft := input.draft.working.toJson
  version := 1
  latestRevisionNumber := 0
  approvedRevisionId := none

/-- **`createListingDraft`**, in its transaction. -/
def createListingDraft (input : CreateListing) (expectedRevision : ℕ) (found : Findings)
    (context : OperationContext) (data : EditorialData) : Tx (JsonValue × EditorialData) := do
  Tx.demand (Authz.can found.authz context.actor .listingEdit none found.now = true)
    (Tx.ofCode .forbidden)
  Tx.demand (0 = expectedRevision) (Tx.versionConflict 0)
  let properties ← Tx.found (data.properties.insert? (input.property found)) .other
  let row := input.listing found
  Tx.demand (∀ other ∈ data.listings.rows, other.reference ≠ row.reference) .other
  let listings ← Tx.found (data.listings.insert? row) .other
  .ok (.obj [("reference", .str row.reference), ("version", .num row.version)],
    { data with
      properties := properties
      listings := listings
      history := row.entry context "listing.draft.created"
        [("propertyId", .str row.propertyId)] :: data.history })

/-! ## Freezing -/

/-- The latest fact revision of a property. -/
def latestFactRevision (data : EditorialData) (propertyId : Uuid) : Option FactRevision :=
  (data.factRevisions.rows.filter (fun r => r.propertyId = propertyId)).argmax
    FactRevision.revisionNumber

/-- The media a revision has: those that are shown, in their order. -/
def mediaOf (data : EditorialData) (listingId : Uuid) : List MediaRelation :=
  (data.media.filter (fun m => m.listingId = listingId && !m.hidden && m.removedAt.isNone))
    |>.insertionSort (fun m n => m.position ≤ n.position)

/-- The fact revision of a frozen draft. -/
def factRevisionOf (property : PropertyRow) (draft : ListingDraft) (facts : List RecordedFact)
    (latest : Option FactRevision) (found : Findings) (actor : Actor) : FactRevision where
  id := found.factRevisionId
  propertyId := property.id
  revisionNumber := (latest.map FactRevision.revisionNumber).getD 0 + 1
  basedOnRevisionId := latest.map FactRevision.id
  contentDigest := found.digest (.arr (facts.map RecordedFact.toJson))
  materialChange := if latest.isSome then "material" else "initial"
  note := Authz.present (some draft.brokerNote)
  createdBy := actor

/-- `disclosure`. -/
def disclosureOf : JsonValue := .obj [("publicPrecision", .str "settlement")]

/-- The content a revision is identified by. -/
def contentOf (factRevisionId : Uuid) (terms sourceCopy : JsonValue) (media : List MediaRelation) :
    JsonValue :=
  .obj [("factRevisionId", .str factRevisionId), ("terms", terms), ("sourceCopy", sourceCopy),
    ("disclosure", disclosureOf),
    ("media", .arr (media.map (fun m => .obj [("id", .str m.id), ("assetId", .str m.mediaAssetId),
      ("position", .num m.position)])))]

/-- The revision of a frozen draft. -/
def revisionOf (listing : ListingRow) (terms sourceCopy : JsonValue) (media : List MediaRelation)
    (found : Findings) (actor : Actor) : ListingRevision where
  id := found.revisionId
  listingId := listing.id
  revisionNumber := listing.latestRevisionNumber + 1
  factRevisionId := found.factRevisionId
  terms := terms
  sourceCopy := sourceCopy
  disclosure := disclosureOf
  contentDigest := found.digest (contentOf found.factRevisionId terms sourceCopy media)
  createdBy := actor

/-- **The row of a frozen listing**: a draft again, whatever it was. -/
def ListingRow.frozen (listing : ListingRow) : ListingRow :=
  { listing with
    latestRevisionNumber := listing.latestRevisionNumber + 1
    editorialState := .draft
    version := listing.version + 1 }

/-- **`freezeListingDraft`**, in its transaction; `issues` are those of the
schema of the draft. -/
def freezeListingDraft (schemas : Tx.Schemas) (reference : String) (expectedRevision : ℕ)
    (issues : FieldErrors) (found : Findings) (context : OperationContext)
    (data : EditorialData) : Tx (JsonValue × EditorialData) := do
  let listing ← edited schemas found context.actor data reference
  Tx.demand (listing.version = expectedRevision) (Tx.versionConflict listing.version)
  let draft ← Tx.found (draftSchema listing.draft) (schemaError issues)
  Tx.demand (draft.title ≠ "" ∧ draft.description ≠ "")
    (invalid "title" "Title and description are required for a review candidate.")
  let property ← Tx.found (data.properties.get? listing.propertyId) (Tx.ofCode .notFound)
  let facts ← factsOf draft property.place
  let factRevision := factRevisionOf property draft facts
    (latestFactRevision data property.id) found context.actor
  let factRevisions ← Tx.found (data.factRevisions.insert? factRevision) .other
  let terms ← termsOf draft listing.purpose
  let media := mediaOf data listing.id
  let revision := revisionOf listing terms (sourceCopyOf draft) media found context.actor
  let revisions ← Tx.found (data.revisions.insert? revision) .other
  let row := listing.frozen
  .ok (.obj [("reference", .str row.reference), ("revisionId", .str revision.id),
      ("factRevisionId", .str factRevision.id), ("version", .num row.version)],
    { writeListing data row with
      factRevisions := factRevisions
      facts := data.facts ++ facts.map (fun fact => ⟨factRevision.id, fact, none⟩)
      revisions := revisions
      revisionMedia := data.revisionMedia ++ media.zipIdx.map
        (fun m => ⟨revision.id, m.fst.id, m.fst.mediaAssetId, m.snd⟩)
      history := row.entry context "listing.revision.created"
        [("revisionId", .str revision.id), ("factRevisionId", .str factRevision.id)]
        :: data.history })

/-! ## Reviewing -/

/-- The error of a listing that changed since. -/
def conflict (current : List (String × JsonValue)) : Thrown JsonValue :=
  .appError ⟨.versionConflict, ErrorCode.versionConflict.outcome, none, some (.obj current)⟩

/-- `lockListing`, by its reference. -/
def lockListing (schemas : Tx.Schemas) (data : EditorialData) (reference : String) :
    Tx ListingRow :=
  Tx.found (data.listings.rows.find?
    (fun row => row.reference = schemas.toUpperCase (schemas.trim reference)))
    (Tx.ofCode .notFound)

/-- **`latestRevision`**: review binds the newest candidate only. -/
def latestRevision (data : EditorialData) (listing : ListingRow) (revisionId : Uuid) :
    Tx ListingRevision := do
  let revision ← Tx.found ((data.revisions.get? revisionId).filter
    (fun revision => revision.listingId = listing.id)) (Tx.ofCode .notFound)
  Tx.demand (revision.revisionNumber = listing.latestRevisionNumber)
    (conflict [("version", .num listing.version),
      ("latestRevisionNumber", .num listing.latestRevisionNumber)])
  .ok revision

/-- A listing as the store of its transitions loads it. -/
def ListingRow.record (row : ListingRow) : Transition.TableRecord EditorialState :=
  ⟨row.id, some row.reference, row.editorialState, row.version, none, none, some row.propertyId,
    none⟩

/-- **`editorialStep`**: the row with its new state and version is written. -/
def editorialStep (found : Findings) (context : OperationContext) (expectedRevision : ℕ)
    (data : EditorialData) (listing : ListingRow) (target : EditorialState)
    (evidence : EditorialEvidence) : Tx (ListingRow × EditorialData) :=
  let request : Transition.TransitionRequest EditorialState EditorialEvidence :=
    { actor := context.actor
      capabilities := Authz.grantsFor found.authz context.actor
        (Transition.resourceOf editorialTransitions listing.record) found.now
      expectedVersion := expectedRevision
      target := target
      evidence := evidence
      operationId := context.operationId
      time := found.now
      reason := none }
  match Transition.applyTransition editorialTransitions listing.record request with
  | .versionConflict current =>
    .error (conflict [("version", .num current.version),
      ("editorialState", .str current.state.name)])
  | .denied code =>
    if code = "missing_capability" then .error (Tx.ofCode .forbidden)
    else .error (Tx.fieldError .transitionDenied "editorialState" code)
  | .applied next activity audit =>
    let row := { listing with editorialState := next.state, version := listing.version + 1 }
    .ok (row, { writeListing data row with
      activity := activity :: data.activity
      audit := audit :: data.audit })

/-- A fact of a revision as readiness reads it. -/
def PropertyFact.record (row : PropertyFact) : FactRecord :=
  ⟨row.fact.fieldKey, row.fact.state.name, some row.fact.sourceClass.name, row.reviewedAt.isSome⟩

/-- The facts a revision is judged ready by. -/
def readinessFacts (data : EditorialData) (revision : ListingRevision) : List FactRecord :=
  (data.facts.filter (fun f => f.factRevisionId = revision.factRevisionId)).map
    PropertyFact.record ++ termsFacts revision.terms

/-- The field errors of the facts that are missing: the last problem of a key. -/
def readinessErrors (missing : List (String × ReadinessProblem)) : FieldErrors :=
  (missing.map Prod.fst).dedup.map (fun key =>
    ("fact." ++ key, ((missing.filter (fun m => m.fst = key)).getLast?.map
      (fun m => m.snd.name)).toList))

/-- **`submitListingRevision`**, in its transaction. -/
def submitListingRevision (schemas : Tx.Schemas) (reference : String) (revisionId : Uuid)
    (expectedRevision : ℕ) (found : Findings) (context : OperationContext)
    (data : EditorialData) : Tx (JsonValue × EditorialData) := do
  let listing ← lockListing schemas data reference
  let revision ← latestRevision data listing revisionId
  let property ← Tx.found (data.properties.get? listing.propertyId) (Tx.ofCode .notFound)
  let missing := missingRequiredFacts property.propertyType (readinessFacts data revision)
  Tx.demand (missing = [])
    (.appError ⟨.transitionDenied, ErrorCode.transitionDenied.outcome,
      some (readinessErrors missing), none⟩)
  let (row, data) ← editorialStep found context expectedRevision data listing .inReview
    ⟨some revision.id, some 0, none, none⟩
  .ok (.obj [("reference", .str listing.reference), ("revisionId", .str revision.id),
    ("listingVersion", .num row.version)], data)

/-- **`approveListingRevision`**, in its transaction. -/
def approveListingRevision (schemas : Tx.Schemas) (reference : String) (revisionId : Uuid)
    (note : Option String) (expectedRevision : ℕ) (found : Findings)
    (context : OperationContext) (data : EditorialData) : Tx (JsonValue × EditorialData) := do
  let listing ← lockListing schemas data reference
  let revision ← latestRevision data listing revisionId
  let (row, data) ← editorialStep found context expectedRevision data listing .approvedRevision
    ⟨some revision.id, none, some true, none⟩
  let row := { row with approvedRevisionId := some revision.id }
  .ok (.obj [("reference", .str listing.reference), ("revisionId", .str revision.id),
      ("listingVersion", .num row.version), ("approvalId", .str found.approvalId)],
    { writeListing data row with
      approvals := ⟨found.approvalId, revision.id, revision.revisionNumber,
        revision.contentDigest, context.actor, .listingReviewFacts, found.now,
        Authz.present note⟩ :: data.approvals })

end Editorial
