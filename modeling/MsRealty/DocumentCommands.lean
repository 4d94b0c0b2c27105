import MsRealty.CaseCommands

/-!
# Commands on documents

Uploads and reviews of documents (`src/server/documents/commands.ts`), and documents
that are requested from a client (`src/server/documents/requests.ts`,
`src/server/documents/request-access.ts`): their request, upload, review and
cancellation. The file worker, which receives, seals and scans what is uploaded, is
here what it writes to a version.
-/

namespace CaseWork

open RowLocks Tx

/-! ## Access -/

/-- **What a call may do**: what its session, its grants and the process policy answer. -/
structure FileAccess where
  permitted : Bool
  actorId : Uuid
  /-- Whether the actor is a client, else one of staff. -/
  client : Bool
  /-- Whether the client is still the recipient's participant in the case. -/
  participates : Bool
  /-- The digest of the active policy, if there is one. -/
  policyHash : Option String
  now : Instant

/-- What access to a requested document is for. -/
inductive RequestAction where
  | read
  | upload
  | review
  | metadata
  deriving DecidableEq

/-- Whether a request is over. -/
def RequestRow.isOver (request : RequestRow) (now : Instant) : Bool :=
  request.cancelledAt.isSome || request.expiresAt ≤ now

/-- What a client needs: to be the recipient, with the grant of the request. -/
def demandRecipient (request : RequestRow) (action : RequestAction) (access : FileAccess) :
    Statements Unit :=
  if access.client = true then do
    let grant ← readRow grants request.grantId
    Prog.demand (request.recipientId = access.actorId ∧ access.participates = true
      ∧ grant.principalId = access.actorId ∧ grant.recordId = request.documentId)
    Prog.demand (action = .metadata ∧ request.isOver access.now = true
      ∨ request.isOver access.now = false ∧ grant.revokedAt = none
        ∧ grant.expiresAt.all (fun expiresAt => access.now < expiresAt) = true)
  else pure ()

/-- What writing to a requested document needs. -/
def demandWritable (request : RequestRow) (record : CaseRow) (action : RequestAction)
    (access : FileAccess) : Statements Unit :=
  if action = .upload ∨ action = .review then do
    Prog.demand (request.isOver access.now = false)
    Prog.demand (record.disposition = .active)
    Prog.demand (access.policyHash = some request.policyHash)
  else pure ()

/-- **The restriction of a request**, which is in addition to the grants. -/
def assertRequest (request : RequestRow) (action : RequestAction) (access : FileAccess) :
    Statements Unit := do
  let record ← readRow cases request.caseId
  demandRecipient request action access
  demandWritable request record action access

/-- **`assertRequestedDocumentAccess`**: of a document that was not requested nothing is
asked. -/
def assertRequestedDocumentAccess (documentId : Uuid) (action : RequestAction)
    (access : FileAccess) : Statements Unit := do
  let d ← reading
  match d.requestOf documentId with
  | none => pure ()
  | some request => assertRequest request action access

/-- **`documentAccess`**, for a review: the document has not expired, and the version is
its current one. -/
def documentAccess (versionId : Uuid) (access : FileAccess) : Statements DocumentRow := do
  let d ← reading
  let file ← Prog.required (documentVersions.find d versionId)
  let document ← Prog.required (documents.find d file.documentId)
  Prog.demand (document.expiresAt.all (fun expiresAt => access.now < expiresAt) = true)
  Prog.demand (access.permitted = true)
  Prog.demand (file.versionNumber = document.currentVersionNumber)
  assertRequestedDocumentAccess document.id .review access
  pure document

/-- **`requestFor`**: it locks the case, and then the request. -/
def requestFor (id : Uuid) (action : RequestAction) (access : FileAccess) :
    Statements RequestRow := do
  let initial ← readRow documentRequests id
  let _ ← locking (.case_ initial.caseId) .update
  let request ← lockRow documentRequests id
  Prog.demand (access.permitted = true)
  assertRequestedDocumentAccess request.documentId
    (if action = .read ∧ access.client = true then .metadata else action) access
  pure request

/-! ## Requests -/

/-- What a policy is about. -/
inductive PolicyTransaction where
  | sale
  | rent
  deriving DecidableEq

/-- **A process policy**, as far as a request asks it. -/
structure PolicyAnswer where
  id : Uuid
  policyHash : String
  validUntil : Instant
  transaction : PolicyTransaction
  timezone : String
  country : String

/-- **The recipient of a request**: a client in the case. -/
structure Recipient where
  principalId : Uuid
  specialist : Bool
  expiresAt : Option Instant
  mayUpload : Bool

/-- **A call of `createDocumentRequest`**, with what it looks up. -/
structure RequestCall where
  permitted : Bool
  actorId : Uuid
  caseId : Uuid
  expectedVersion : ℕ
  title : String
  purpose : String
  instructions : String
  alternatives : String
  classification : String
  allowedContentTypes : List String
  maxBytes : ℕ
  expiresAt : Instant
  policy : Option PolicyAnswer
  /-- The country of the property of the case, if it is found. -/
  propertyCountry : Option String
  recipient : Option Recipient
  mayReviewCompliance : Bool
  documentId : Uuid
  grantId : Uuid
  taskId : Uuid
  requestId : Uuid
  now : Instant

/-- What the schema demands of a call. -/
def RequestCall.wellFormed (call : RequestCall) : Bool :=
  textWithin 3 160 call.title && textWithin 5 1200 call.purpose
    && textWithin 5 4000 call.instructions && textWithin 5 2000 call.alternatives
    && !call.allowedContentTypes.isEmpty && 1 ≤ call.maxBytes && call.maxBytes ≤ 20 * 1024 * 1024

/-- What is asked about sensitive classifications only from some stages on. -/
def sensitiveClassifications : List String := ["identity", "financial", "contract", "title"]

/-- The stages that may ask for sensitive documents. -/
def sensitiveStages : List CaseStage :=
  [.scopeAuthorityReview, .assessment, .instructionsAgreed, .preparing, .marketing,
    .proposalPreparation, .proposalActive, .proposalCoordination, .coordination,
    .completionHandover]

/-- What a sensitive classification needs. -/
def RequestCall.sensitiveAllowed (call : RequestCall) (record : CaseRow) : Bool :=
  !(call.classification ∈ sensitiveClassifications)
    || record.stage ∈ sensitiveStages && call.mayReviewCompliance

/-- What a request needs of its policy. -/
def RequestCall.fits (call : RequestCall) (record : CaseRow) (policy : PolicyAnswer) : Bool :=
  call.now < call.expiresAt && call.expiresAt ≤ policy.validUntil
    && call.expiresAt - call.now ≤ 90 * 86400000
    && (record.kind = .serviceIntake || policy.transaction
      = if record.kind ∈ [CaseKind.tenant, CaseKind.landlord] then .rent else .sale)
    && (record.propertyId.isNone || call.propertyCountry = some policy.country)

/-- What a request needs of its recipient. -/
def RequestCall.reaches (call : RequestCall) (recipient : Recipient) : Bool :=
  (!recipient.specialist || recipient.expiresAt.isSome)
    && recipient.expiresAt.all (fun expiresAt => call.expiresAt ≤ expiresAt)
    && recipient.mayUpload

/-- The document that is requested. -/
def RequestCall.document (call : RequestCall) : DocumentRow where
  id := call.documentId
  version := 1
  caseId := some call.caseId
  propertyId := none
  purpose := "client_requested"
  classification := call.classification
  audience := .caseParticipants
  currentVersionNumber := 0
  expiresAt := some call.expiresAt

/-- The grant to upload it. -/
def RequestCall.grant (call : RequestCall) (recipient : Recipient) : UploadGrantRow where
  id := call.grantId
  principalId := recipient.principalId
  recordId := call.documentId
  expiresAt := some call.expiresAt
  revokedAt := none
  revokedById := none

/-- **The task of a request** waits for its recipient. -/
def RequestCall.task (call : RequestCall) (record : CaseRow) (policy : PolicyAnswer) : TaskRow :=
  { TaskRow.new call.taskId call.title .documentRequest record.ownerId (some record.id) none with
    purpose := some call.purpose
    dueAt := some call.expiresAt
    dueTimezone := some policy.timezone
    state := .waiting
    waitingOn := some "Requested recipient evidence"
    followUpAt := some call.expiresAt }

/-- The request. -/
def RequestCall.request (call : RequestCall) (record : CaseRow) (policy : PolicyAnswer)
    (recipient : Recipient) : RequestRow where
  id := call.requestId
  version := 1
  caseId := record.id
  recipientId := recipient.principalId
  documentId := call.documentId
  grantId := call.grantId
  taskId := call.taskId
  policyId := policy.id
  policyHash := policy.policyHash
  allowedContentTypes := call.allowedContentTypes.dedup
  maxBytes := call.maxBytes
  expiresAt := call.expiresAt
  cancelledAt := none
  cancelledById := none
  clientOutcome := none
  reviewedVersionId := none

/-- **`createDocumentRequest`.** -/
def createDocumentRequest (call : RequestCall) : Statements Outcome := do
  Prog.demand (call.permitted = true ∧ call.wellFormed = true)
  let record ← lockRow cases call.caseId
  Prog.demand (record.version = call.expectedVersion)
  Prog.demand (record.disposition = .active ∧ record.ownerId.isSome = true)
  Prog.demand (call.sensitiveAllowed record = true)
  let policy ← Prog.required call.policy
  Prog.demand (call.fits record policy = true)
  let recipient ← Prog.required call.recipient
  Prog.demand (call.reaches recipient = true)
  insertRow documents call.document
  insertRow grants (call.grant recipient)
  insertTask (call.task record policy)
  insertRow documentRequests (call.request record policy recipient)
  updateRow cases call.caseId
    ⟨fun row => { row with version := record.version + 1 }, fun _ => rfl⟩
  pure (.requested call.requestId)

/-! ## Uploads -/

/-- A version that is uploaded. -/
def VersionRow.new (id documentId : Uuid) (versionNumber : ℕ) (fileName contentType : String) :
    VersionRow where
  id := id
  documentId := documentId
  versionNumber := versionNumber
  version := 1
  state := .uploading
  fileName := fileName
  contentType := contentType
  sealedKey := none
  sha256 := none
  scan := .pending
  scannedAt := none
  scannerVersion := none
  scannedSha256 := none
  reviewType := none
  reviewNote := none
  reviewedById := none
  reviewedAt := none
  supersededByVersionId := none

/-- A version that another one replaces. -/
def VersionRow.superseded (by_ : Uuid) (row : VersionRow) : VersionRow :=
  { row with state := .superseded, supersededByVersionId := some by_ }

/-- What an upload writes to the versions it replaces. -/
def superseding (by_ : Uuid) : Change VersionRow.id := ⟨VersionRow.superseded by_, fun _ => rfl⟩

/-- What an upload writes to the document. -/
def DocumentRow.uploaded (number version : ℕ) (row : DocumentRow) : DocumentRow :=
  { row with currentVersionNumber := number, version := version + 1 }

/-- The next version of a document. -/
def nextVersion (document : DocumentRow) : Change DocumentRow.id :=
  ⟨DocumentRow.uploaded (document.currentVersionNumber + 1) document.version, fun _ => rfl⟩

/-- The states of a version that a client may replace. -/
def replaceableStates : List DocumentState :=
  [.uploading, .selected, .needsReplacement, .rejected, .expired]

/-- **A call of `startRequestedDocumentUpload`.** -/
structure RequestedUploadCall where
  access : FileAccess
  requestId : Uuid
  expectedRevision : ℕ
  fileName : String
  contentType : String
  byteSize : ℕ
  versionId : Uuid

/-- **`startRequestedDocumentUpload`**: one statement supersedes the other versions. -/
def startRequestedDocumentUpload (call : RequestedUploadCall) : Statements Outcome := do
  Prog.demand (call.access.client = true ∧ textWithin 1 160 call.fileName = true
    ∧ 1 ≤ call.byteSize)
  let request ← requestFor call.requestId .upload call.access
  Prog.demand (request.version = call.expectedRevision)
  Prog.demand (call.byteSize ≤ request.maxBytes ∧ call.contentType ∈ request.allowedContentTypes)
  let document ← lockRow documents request.documentId
  let d ← reading
  Prog.demand ((d.versionAt document.id document.currentVersionNumber).all
    (fun current => current.state ∈ replaceableStates) = true)
  insertRow documentVersions (.new call.versionId document.id
    (document.currentVersionNumber + 1) call.fileName call.contentType)
  let _ ← updateRows documentVersions
    (fun row => row.documentId = document.id && row.id ≠ call.versionId)
    (superseding call.versionId)
  updateRow documents document.id (nextVersion document)
  updateRow documentRequests request.id ⟨fun row => { row with
    version := request.version + 1
    reviewedVersionId := none
    clientOutcome := none }, fun _ => rfl⟩
  pure (.uploaded document.id call.versionId)

/-- **A call of `startDocumentUpload`.** -/
structure UploadCall where
  permitted : Bool
  /-- The property of the listing. -/
  propertyId : Option Uuid
  documentId : Option Uuid
  newDocumentId : Uuid
  expectedRevision : ℕ
  purpose : String
  classification : String
  fileName : String
  contentType : String
  versionId : Uuid
  now : Instant

/-- Supersedes versions, one after the other. -/
def supersedeEach (by_ : Uuid) : List Uuid → Statements Unit
  | [] => pure ()
  | id :: rest => do
    updateRow documentVersions id (superseding by_)
    supersedeEach by_ rest

/-- **A new version of a document**, which supersedes all others. -/
def uploadInto (call : UploadCall) (document : DocumentRow) : Statements Outcome := do
  insertRow documentVersions (.new call.versionId document.id
    (document.currentVersionNumber + 1) call.fileName call.contentType)
  let d ← reading
  supersedeEach call.versionId
    (((d.versionsOf document.id).map VersionRow.id).filter (fun id => id ≠ call.versionId))
  updateRow documents document.id (nextVersion document)
  pure (.uploaded document.id call.versionId)

/-- The document of a first upload. -/
def UploadCall.document (call : UploadCall) : DocumentRow where
  id := call.newDocumentId
  version := 1
  caseId := none
  propertyId := call.propertyId
  purpose := call.purpose
  classification := call.classification
  audience := .internal
  currentVersionNumber := 0
  expiresAt := none

/-- The document an upload is to: one there is, which it locks, or a new one. -/
def uploadTo (call : UploadCall) : Option Uuid → Statements DocumentRow
  | some id => do
    let existing ← lockRow documents id
    Prog.demand (existing.propertyId = call.propertyId
      ∧ existing.expiresAt.all (fun expiresAt => call.now < expiresAt) = true)
    Prog.demand (existing.version = call.expectedRevision)
    Prog.demand (existing.purpose = call.purpose ∧ existing.classification = call.classification)
    pure existing
  | none => do
    Prog.demand (0 = call.expectedRevision)
    insertRow documents call.document
    pure call.document

/-- **`startDocumentUpload`**: the other versions are superseded one by one. -/
def startDocumentUpload (call : UploadCall) : Statements Outcome := do
  Prog.demand (call.permitted = true ∧ textWithin 1 160 call.fileName = true)
  let document ← uploadTo call call.documentId
  uploadInto call document

/-! ## Reviews -/

/-- **A call of `reviewDocument`**, of its own or of `reviewRequestedDocument`. -/
structure ReviewCall where
  access : FileAccess
  versionId : Uuid
  requestId : Option Uuid
  expectedRevision : ℕ
  reviewType : DocumentReviewType
  note : String
  expiresAt : Option Instant

/-- What may be reviewed: a scanned version, ready or reviewed before. -/
def VersionRow.reviewable (row : VersionRow) : Bool :=
  row.scan = .clean && row.sealedKey.isSome && row.sha256.isSome && row.scannedSha256 = row.sha256
    && row.scannerVersion.isSome && row.scannedAt.isSome
    && row.state ∈ [DocumentState.readyForReview, .reviewed]

/-- A version after a review. -/
def VersionRow.reviewed (call : ReviewCall) (found row : VersionRow) : VersionRow :=
  { row with
    state := if call.reviewType = .needsReplacement then .needsReplacement else .reviewed
    reviewType := some call.reviewType
    reviewNote := some call.note
    reviewedById := some call.access.actorId
    reviewedAt := some call.access.now
    version := found.version + 1 }

/-- **`reviewDocument`**: it locks the version, and not the document. -/
def reviewDocument (call : ReviewCall) : Statements Unit := do
  Prog.demand (call.access.client = false ∧ textWithin 5 4000 call.note = true)
  let document ← documentAccess call.versionId call.access
  let d ← reading
  Prog.demand ((d.requestOf document.id).all (fun request => call.requestId = some request.id)
    = true)
  let file ← lockRow documentVersions call.versionId
  let document ← documentAccess file.id call.access
  Prog.demand (file.version = call.expectedRevision)
  Prog.demand (file.reviewable = true)
  Prog.demand (call.expiresAt.all (fun expiresAt => call.access.now < expiresAt) = true)
  updateRow documentVersions file.id ⟨VersionRow.reviewed call file, fun _ => rfl⟩
  updateRow documents document.id ⟨fun row => { row with
    expiresAt := call.expiresAt
    version := document.version + 1 }, fun _ => rfl⟩

/-- `reviewDocument`, called on its own: without a request. -/
def reviewDirectly (call : ReviewCall) : Statements Outcome := do
  Prog.demand (call.requestId = none)
  reviewDocument call
  pure (.reviewed call.versionId)

/-- **A call of `reviewRequestedDocument`.** -/
structure RequestReviewCall where
  access : FileAccess
  requestId : Uuid
  expectedVersion : ℕ
  versionId : Uuid
  expectedRevision : ℕ
  reviewType : DocumentReviewType
  note : String
  clientOutcome : String
  expiresAt : Option Instant
  completedAt : Instant

/-- Whether the document is accepted. -/
def RequestReviewCall.accepted (call : RequestReviewCall) : Bool :=
  call.reviewType = .acceptedForPurpose

/-- The review of the version. -/
def RequestReviewCall.review (call : RequestReviewCall) (request : RequestRow) : ReviewCall where
  access := call.access
  versionId := call.versionId
  requestId := some request.id
  expectedRevision := call.expectedRevision
  reviewType := call.reviewType
  note := call.note
  expiresAt := some (call.expiresAt.getD request.expiresAt)

/-- **The task of a request after a review**, whatever its state was: it is done, or it
waits again. -/
def TaskRow.requestReviewed (call : RequestReviewCall) (request : RequestRow) (row : TaskRow) :
    TaskRow :=
  if call.accepted = true then { row with
    state := .done
    outcomeNote := some call.clientOutcome
    completedAt := some call.completedAt
    completedById := some call.access.actorId
    version := row.version + 1 }
  else { row with
    state := .waiting
    waitingOn := some "Requested evidence needs follow-up"
    followUpAt := some request.expiresAt
    completedAt := none
    completedById := none
    outcomeNote := none
    version := row.version + 1 }

theorem TaskRow.requestReviewed_id (call : RequestReviewCall) (request : RequestRow)
    (row : TaskRow) : (row.requestReviewed call request).id = row.id := by
  unfold TaskRow.requestReviewed
  split <;> rfl

/-- **`reviewRequestedDocument`.** -/
def reviewRequestedDocument (call : RequestReviewCall) : Statements Outcome := do
  Prog.demand (call.access.client = false ∧ textWithin 5 2000 call.clientOutcome = true)
  let request ← requestFor call.requestId .review call.access
  Prog.demand (request.version = call.expectedVersion)
  let document ← documentAccess call.versionId call.access
  Prog.demand (document.id = request.documentId)
  Prog.demand (call.expiresAt.all (fun expiresAt => expiresAt ≤ request.expiresAt) = true)
  reviewDocument (call.review request)
  updateRow documentRequests request.id ⟨fun row => { row with
    version := request.version + 1
    reviewedVersionId := some call.versionId
    clientOutcome := some call.clientOutcome }, fun _ => rfl⟩
  updateRow tasks request.taskId
    ⟨TaskRow.requestReviewed call request, TaskRow.requestReviewed_id call request⟩
  pure (.requestReviewed request.id call.versionId call.accepted)

/-! ## Cancellation -/

/-- **A call of `cancelDocumentRequest`.** -/
structure CancelCall where
  access : FileAccess
  requestId : Uuid
  expectedVersion : ℕ
  clientOutcome : String
  now : Instant

/-- The task of a request that is cancelled, unless it is done. -/
def TaskRow.requestCancelled (call : CancelCall) (row : TaskRow) : TaskRow :=
  if row.state = .done then row
  else { row with
    state := .cancelled
    cancelReason := some call.clientOutcome
    version := row.version + 1 }

theorem TaskRow.requestCancelled_id (call : CancelCall) (row : TaskRow) :
    (row.requestCancelled call).id = row.id := by
  unfold TaskRow.requestCancelled
  split <;> rfl

/-- **`cancelDocumentRequest`.** -/
def cancelDocumentRequest (call : CancelCall) : Statements Outcome := do
  Prog.demand (call.access.client = false ∧ textWithin 5 2000 call.clientOutcome = true)
  let request ← requestFor call.requestId .read call.access
  Prog.demand (request.version = call.expectedVersion)
  Prog.demand (request.cancelledAt = none)
  updateRow documentRequests request.id ⟨fun row => { row with
    cancelledAt := some call.now
    cancelledById := some call.access.actorId
    clientOutcome := some call.clientOutcome
    version := request.version + 1 }, fun _ => rfl⟩
  updateRow grants request.grantId ⟨fun row => { row with
    revokedAt := some call.now
    revokedById := some call.access.actorId }, fun _ => rfl⟩
  updateRow tasks request.taskId
    ⟨TaskRow.requestCancelled call, TaskRow.requestCancelled_id call⟩
  pure (.requestCancelled request.id)

/-! ## The file worker -/

/-- **What the receipt and the scan of a file write** to a version. -/
structure FileCall where
  versionId : Uuid
  state : DocumentState
  sealedKey : Option String
  sha256 : Option String
  scan : ScanState
  scannedAt : Option Instant
  scannerVersion : Option String
  scannedSha256 : Option String

/-- A version after a receipt or a scan. -/
def VersionRow.processed (call : FileCall) (row : VersionRow) : VersionRow :=
  { row with
    state := call.state
    sealedKey := call.sealedKey
    sha256 := call.sha256
    scan := call.scan
    scannedAt := call.scannedAt
    scannerVersion := call.scannerVersion
    scannedSha256 := call.scannedSha256
    version := row.version + 1 }

/-- **The file worker**: it neither supersedes a version nor touches one that is
superseded. -/
def processFile (call : FileCall) : Statements Outcome := do
  let file ← lockRow documentVersions call.versionId
  Prog.demand (file.state ≠ .superseded ∧ call.state ≠ .superseded)
  updateRow documentVersions file.id ⟨VersionRow.processed call, fun _ => rfl⟩
  pure (.fileProcessed file.id)

/-- **The commands**, by any actors with any input. -/
inductive WorkCommand : Statements Outcome → Prop
  | disposition (call : DispositionCall) : WorkCommand (changeCaseDisposition call)
  | createTask (call : CreateTaskCall) : WorkCommand (createTask call)
  | acceptInquiry (call : AcceptCall) : WorkCommand (acceptInquiry call)
  | changeTask (call : TaskCall) : WorkCommand (changeTask call)
  | handover (call : HandoverCall) : WorkCommand (handoverTask call)
  | request (call : RequestCall) : WorkCommand (createDocumentRequest call)
  | requestedUpload (call : RequestedUploadCall) : WorkCommand (startRequestedDocumentUpload call)
  | upload (call : UploadCall) : WorkCommand (startDocumentUpload call)
  | review (call : ReviewCall) : WorkCommand (reviewDirectly call)
  | requestReview (call : RequestReviewCall) : WorkCommand (reviewRequestedDocument call)
  | cancel (call : CancelCall) : WorkCommand (cancelDocumentRequest call)
  | processFile (call : FileCall) : WorkCommand (processFile call)

end CaseWork
