import MsRealty.CaseMachines
import MsRealty.LockedTables
import MsRealty.Submissions

/-!
# The data of cases, their work and their documents

Cases, inquiries, tasks, and the documents requested from clients
(`src/db/schema/work.ts`, `src/db/schema/collaboration.ts`,
`src/db/schema/coordination.ts`), as the tables the commands lock and write. A call
that is answered by an earlier one of the same key writes nothing, and is left out; so
is what is only recorded for an audit. Whether the session of a call and its grants
permit it is a parameter of the call, as are the ids of new rows and the readings of
the clock.

A row of `tasks` refers to its case by a foreign key. To insert one, the database locks
the case against its deletion, and so against any `for update`: it is a shared lock here.
-/

namespace CaseWork

open RowLocks

/-! ## Rows -/

/-- `caseKinds`. -/
inductive CaseKind where
  | buyer
  | tenant
  | seller
  | landlord
  | serviceIntake
  deriving DecidableEq

/-- `CaseStage`: the stages of demand, of supply and of a service intake. -/
inductive CaseStage where
  | needsAgreed
  | evaluating
  | viewing
  | proposalPreparation
  | proposalActive
  | coordination
  | completed
  | requestReceived
  | scopeAuthorityReview
  | assessment
  | instructionsAgreed
  | preparing
  | marketing
  | proposalCoordination
  | completionHandover
  | consultation
  | concluded
  deriving DecidableEq

/-- **A case.** -/
structure CaseRow where
  id : Uuid
  version : ℕ
  kind : CaseKind
  stage : CaseStage
  disposition : CaseDisposition
  ownerId : Option Uuid
  pendingOwnerId : Option Uuid
  propertyId : Option Uuid
  nextAction : Option String
  nextActionDueAt : Option Instant
  waitingOn : Option String
  reviewAt : Option Instant
  dispositionReason : Option String
  closureOutcome : Option String
  commitmentDispositions : Option (List (Uuid × String))

/-- **An inquiry**, linked to a case or not. -/
structure InquiryRow where
  id : Uuid
  version : ℕ
  state : InquiryState
  ownerId : Option Uuid
  coverageQueue : Option String
  followUpAt : Option Instant
  caseId : Option Uuid

/-- **A task.** -/
structure TaskRow where
  id : Uuid
  version : ℕ
  title : String
  purpose : Option String
  type : TaskType
  state : TaskState
  ownerId : Option Uuid
  /-- A handover stays with the previous owner until the receiver accepts. -/
  pendingOwnerId : Option Uuid
  dueAt : Option Instant
  dueTimezone : Option String
  dependsOnTaskId : Option Uuid
  waitingOn : Option String
  followUpAt : Option Instant
  evidenceRequired : Bool
  outcomeNote : Option String
  completedAt : Option Instant
  completedById : Option Uuid
  cancelReason : Option String
  caseId : Option Uuid
  inquiryId : Option Uuid

/-- **A request for a document.** -/
structure RequestRow where
  id : Uuid
  version : ℕ
  caseId : Uuid
  recipientId : Uuid
  documentId : Uuid
  grantId : Uuid
  taskId : Uuid
  policyId : Uuid
  policyHash : String
  allowedContentTypes : List String
  maxBytes : ℕ
  expiresAt : Instant
  cancelledAt : Option Instant
  cancelledById : Option Uuid
  clientOutcome : Option String
  reviewedVersionId : Option Uuid

/-- **The grant of a request**: its recipient may upload to its document. -/
structure UploadGrantRow where
  id : Uuid
  principalId : Uuid
  recordId : Uuid
  expiresAt : Option Instant
  revokedAt : Option Instant
  revokedById : Option Uuid

/-- Who sees a document. -/
inductive Audience where
  | internal
  | caseParticipants

/-- **A document.** -/
structure DocumentRow where
  id : Uuid
  version : ℕ
  caseId : Option Uuid
  propertyId : Option Uuid
  purpose : String
  classification : String
  audience : Audience
  currentVersionNumber : ℕ
  expiresAt : Option Instant

/-- **A version of a document.** -/
structure VersionRow where
  id : Uuid
  documentId : Uuid
  versionNumber : ℕ
  version : ℕ
  state : DocumentState
  fileName : String
  contentType : String
  sealedKey : Option String
  sha256 : Option String
  scan : ScanState
  scannedAt : Option Instant
  scannerVersion : Option String
  scannedSha256 : Option String
  reviewType : Option DocumentReviewType
  reviewNote : Option String
  reviewedById : Option Uuid
  reviewedAt : Option Instant
  supersededByVersionId : Option Uuid

/-! ## Tables -/

/-- **The tables.** -/
structure WorkData where
  cases : Table Uuid CaseRow CaseRow.id
  inquiries : Table Uuid InquiryRow InquiryRow.id
  tasks : Table Uuid TaskRow TaskRow.id
  requests : Table Uuid RequestRow RequestRow.id
  grants : Table Uuid UploadGrantRow UploadGrantRow.id
  documents : Table Uuid DocumentRow DocumentRow.id
  versions : Table Uuid VersionRow VersionRow.id

/-- **What is locked**: a row of a table. -/
inductive Row where
  | case_ (id : Uuid)
  | inquiry (id : Uuid)
  | task (id : Uuid)
  | request (id : Uuid)
  | grant (id : Uuid)
  | document (id : Uuid)
  | version (id : Uuid)
  deriving DecidableEq

/-- A transaction, as statements. -/
abbrev Statements (α : Type) : Type := Transaction WorkData Row α

/-- The table `cases`. -/
def cases : TableIn WorkData Row CaseRow.id :=
  ⟨WorkData.cases, fun table d => { d with cases := table }, fun _ _ => rfl, Row.case_⟩

/-- The table `inquiries`. -/
def inquiries : TableIn WorkData Row InquiryRow.id :=
  ⟨WorkData.inquiries, fun table d => { d with inquiries := table }, fun _ _ => rfl, Row.inquiry⟩

/-- The table `tasks`. -/
def tasks : TableIn WorkData Row TaskRow.id :=
  ⟨WorkData.tasks, fun table d => { d with tasks := table }, fun _ _ => rfl, Row.task⟩

/-- The table `document_requests`. -/
def documentRequests : TableIn WorkData Row RequestRow.id :=
  ⟨WorkData.requests, fun table d => { d with requests := table }, fun _ _ => rfl, Row.request⟩

/-- The table `grants`, of those that allow an upload. -/
def grants : TableIn WorkData Row UploadGrantRow.id :=
  ⟨WorkData.grants, fun table d => { d with grants := table }, fun _ _ => rfl, Row.grant⟩

/-- The table `documents`. -/
def documents : TableIn WorkData Row DocumentRow.id :=
  ⟨WorkData.documents, fun table d => { d with documents := table }, fun _ _ => rfl, Row.document⟩

/-- The table `document_versions`. -/
def documentVersions : TableIn WorkData Row VersionRow.id :=
  ⟨WorkData.versions, fun table d => { d with versions := table }, fun _ _ => rfl, Row.version⟩

/-! ## What is asked of the data -/

/-- The open tasks of a case. -/
def WorkData.openTasks (d : WorkData) (caseId : Uuid) : List TaskRow :=
  d.tasks.rows.filter (fun task => task.caseId = some caseId && task.state.isOpen)

/-- The versions of a document. -/
def WorkData.versionsOf (d : WorkData) (documentId : Uuid) : List VersionRow :=
  d.versions.rows.filter (fun file => file.documentId = documentId)

/-- The version of a document with a number. -/
def WorkData.versionAt (d : WorkData) (documentId : Uuid) (number : ℕ) : Option VersionRow :=
  (d.versionsOf documentId).find? (fun file => file.versionNumber = number)

/-- The request a document belongs to. -/
def WorkData.requestOf (d : WorkData) (documentId : Uuid) : Option RequestRow :=
  d.requests.rows.find? (fun request => request.documentId = documentId)

/-! ## Statements -/

/-- Inserts a task: the foreign key locks its case. -/
def insertTask (task : TaskRow) : Statements Unit := do
  insertRow tasks task
  match task.caseId with
  | none => pure ()
  | some caseId => do
    let d ← locking (.case_ caseId) .share
    Prog.demand ((cases.find d caseId).isSome = true)

/-- A case of the next version. -/
def CaseRow.bumped (change : CaseRow → CaseRow) (row : CaseRow) : CaseRow :=
  { change row with id := row.id, version := row.version + 1 }

/-- **`bumpCase`**: a change of a case of a version. -/
def bumpCase (id : Uuid) (expectedVersion : ℕ) (change : CaseRow → CaseRow) : Statements Unit := do
  let row ← lockRow cases id
  Prog.demand (row.version = expectedVersion)
  updateRow cases id ⟨CaseRow.bumped change, fun _ => rfl⟩

end CaseWork
