import MsRealty.Gallery
import MsRealty.LockedTables

/-!
# Commands on a gallery

The start of an upload, the placement of one picture and the reviewed order of all of
them (`src/server/media/commands.ts`), each as the statements of its transaction. What
a command checks before its transaction it checks again inside, and the first check is
left out; so is what is only recorded for an audit. A call that is answered by an
earlier one of the same key writes nothing, and is left out too.

Every command locks its listing before it reads the gallery. What it reads is so what it
writes over (`locksRows_listings`), and each commit is one edit of one gallery (`Edit`)
that leaves the positions of its live relations distinct.
-/

namespace Gallery

open RowLocks

/-! ## Data -/

/-- **A listing.** -/
structure ListingRow where
  id : Uuid
  version : ℕ
  reference : String
  propertyId : Uuid

/-- **A picture in a gallery.** -/
structure RelationRow where
  id : Uuid
  listingId : Uuid
  mediaAssetId : Uuid
  position : ℤ
  hidden : Bool
  removedAt : Option Instant

/-- What a picture shows. -/
inductive UploadKind where
  | photo
  | floorPlan
  | render
  deriving DecidableEq

/-- Why a picture exists. -/
inductive MediaPurpose where
  | listingGallery
  | floorPlan

/-- **A picture.** -/
structure AssetRow where
  id : Uuid
  propertyId : Uuid
  purpose : MediaPurpose
  kind : UploadKind
  originalKey : String
  contentType : String

/-- **A reserved upload.** -/
structure UploadRow where
  id : Uuid
  targetId : Uuid
  stagingKey : String
  expiresAt : Instant

/-- **The tables.** -/
structure GalleryData where
  listings : Table Uuid ListingRow ListingRow.id
  relations : Table Uuid RelationRow RelationRow.id
  assets : Table Uuid AssetRow AssetRow.id
  uploads : Table Uuid UploadRow UploadRow.id

/-- **What is locked**: a row of a table. -/
inductive Row where
  | listing (id : Uuid)
  | relation (id : Uuid)
  | asset (id : Uuid)
  | upload (id : Uuid)
  deriving DecidableEq

/-- A transaction, as statements. -/
abbrev Statements (α : Type) : Type := Transaction GalleryData Row α

/-- The table `listings`. -/
def listings : TableIn GalleryData Row ListingRow.id :=
  ⟨GalleryData.listings, fun table d => { d with listings := table }, fun _ _ => rfl, Row.listing⟩

/-- The table `media_relations`. -/
def mediaRelations : TableIn GalleryData Row RelationRow.id :=
  ⟨GalleryData.relations, fun table d => { d with relations := table }, fun _ _ => rfl,
    Row.relation⟩

/-- The table `media_assets`. -/
def mediaAssets : TableIn GalleryData Row AssetRow.id :=
  ⟨GalleryData.assets, fun table d => { d with assets := table }, fun _ _ => rfl, Row.asset⟩

/-- The table `file_uploads`. -/
def fileUploads : TableIn GalleryData Row UploadRow.id :=
  ⟨GalleryData.uploads, fun table d => { d with uploads := table }, fun _ _ => rfl, Row.upload⟩

/-- The relations of a listing, removed ones included. -/
def GalleryData.gallery (d : GalleryData) (listingId : Uuid) : List RelationRow :=
  d.relations.rows.filter fun row => row.listingId = listingId

/-- Those that are not removed. -/
def live (rows : List RelationRow) : List RelationRow := rows.filter fun row => row.removedAt.isNone

/-- A relation as a placement. -/
def RelationRow.placement (row : RelationRow) : Placement := ⟨row.id, row.position⟩

/-! ## Statements -/

/-- What every command is given. -/
structure FileCommand where
  /-- Whether the session of the call is live and may manage the media of the listing. -/
  permitted : Bool
  /-- The reference of the listing, in upper case. -/
  reference : String
  expectedRevision : ℕ

/-- **`managedListing`**, which locks the listing, and `expectVersion`. -/
def managedListing (command : FileCommand) : Statements ListingRow := do
  let d ← reading
  let found ← Prog.required (d.listings.rows.find? fun row => row.reference = command.reference)
  let listing ← lockRow listings found.id
  Prog.demand (listing.reference = command.reference ∧ command.permitted = true)
  Prog.demand (listing.version = command.expectedRevision)
  pure listing

/-- The next version of a listing. -/
def bumpListing (listing : ListingRow) : Statements Unit :=
  updateRow listings listing.id ⟨fun row => { row with version := listing.version + 1 },
    fun _ => rfl⟩

/-- A change of a position. -/
def setPosition (position : ℤ) : Change RelationRow.id :=
  ⟨fun row => { row with position := position }, fun _ => rfl⟩

/-- A change of whether a picture is shown. -/
def setHidden (hidden : Bool) : Change RelationRow.id :=
  ⟨fun row => { row with hidden := hidden }, fun _ => rfl⟩

/-- Updates the positions of relations, one after another. -/
def assignPositions : List (Uuid × ℤ) → Statements Unit
  | [] => pure ()
  | item :: rest => do
    updateRow mediaRelations item.1 (setPosition item.2)
    assignPositions rest

/-! ## Commands -/

/-- **What a call ends with.** -/
inductive Outcome where
  | uploadStarted (uploadId assetId : Uuid)
  | placed (version : ℕ)
  | reordered (reference : String) (version : ℕ)

/-- **A call of `startMediaUpload`**, with the ids of the rows it inserts. -/
structure UploadCall where
  command : FileCommand
  kind : UploadKind
  contentType : String
  stagingKey : String
  assetId : Uuid
  relationId : Uuid
  uploadId : Uuid
  now : Instant

/-- The picture that is uploaded. -/
def UploadCall.asset (call : UploadCall) (listing : ListingRow) : AssetRow where
  id := call.assetId
  propertyId := listing.propertyId
  purpose := if call.kind = .floorPlan then .floorPlan else .listingGallery
  kind := call.kind
  originalKey := call.stagingKey
  contentType := call.contentType

/-- The position after all others, those of removed relations included. -/
def nextPosition (rows : List RelationRow) : ℤ := (rows.map RelationRow.position).foldl max (-1) + 1

/-- Its place in the gallery. -/
def UploadCall.relation (call : UploadCall) (listing : ListingRow) (rows : List RelationRow) :
    RelationRow where
  id := call.relationId
  listingId := listing.id
  mediaAssetId := call.assetId
  position := nextPosition rows
  hidden := false
  removedAt := none

/-- The upload that is reserved, for a quarter of an hour. -/
def UploadCall.upload (call : UploadCall) : UploadRow where
  id := call.uploadId
  targetId := call.assetId
  stagingKey := call.stagingKey
  expiresAt := call.now + 15 * 60000

/-- **`startMediaUpload`.** -/
def startMediaUpload (call : UploadCall) : Statements Outcome := do
  let listing ← managedListing call.command
  insertRow mediaAssets (call.asset listing)
  let d ← reading
  insertRow mediaRelations (call.relation listing (d.gallery listing.id))
  insertRow fileUploads call.upload
  bumpListing listing
  pure (.uploadStarted call.uploadId call.assetId)

/-- What is changed of a placement: where it is, or whether it is shown. -/
inductive PlacementChange where
  | move (target : Target)
  | hidden (hidden : Bool)

/-- **A call of `placeMedia`.** -/
structure PlaceCall where
  command : FileCommand
  relationId : Uuid
  change : PlacementChange

/-- The change of a placement among the placements there are. -/
def changePlacement (placements : List RelationRow) (relationId : Uuid) :
    PlacementChange → Statements Unit
  | .move target => do
    let moved ← Prog.required (moveRelation (placements.map RelationRow.placement) relationId target)
    assignPositions (moved.map fun p => (p.relationId, p.position))
  | .hidden hidden => updateRow mediaRelations relationId (setHidden hidden)

/-- **`placeMedia`.** -/
def placeMedia (call : PlaceCall) : Statements Outcome := do
  let listing ← managedListing call.command
  let d ← reading
  let placements := live (d.gallery listing.id)
  let relation ← Prog.required (placements.find? fun row => row.id = call.relationId)
  changePlacement placements relation.id call.change
  bumpListing listing
  pure (.placed (listing.version + 1))

/-- **A call of `reorderMedia`.** -/
structure ReorderCall where
  command : FileCommand
  order : List Uuid

/-- **`reorderMedia`.** -/
def reorderMedia (call : ReorderCall) : Statements Outcome := do
  Prog.demand (1 ≤ call.order.length ∧ call.order.length ≤ 1000)
  let listing ← managedListing call.command
  let d ← reading
  let before := order ((live (d.gallery listing.id)).map RelationRow.placement)
  Prog.demand (call.order.length = before.length ∧ call.order.Nodup ∧ ∀ id ∈ call.order, id ∈ before)
  assignPositions (call.order.zipIdx.map fun item => (item.1, (item.2 : ℤ)))
  bumpListing listing
  pure (.reordered listing.reference (listing.version + 1))

/-- **What changes galleries.** -/
inductive MediaCommand : Statements Outcome → Prop
  | upload (call : UploadCall) : MediaCommand (startMediaUpload call)
  | place (call : PlaceCall) : MediaCommand (placeMedia call)
  | reorder (call : ReorderCall) : MediaCommand (reorderMedia call)

/-- **The live relations of every gallery have positions of their own.** -/
def PositionsDistinct (d : GalleryData) : Prop :=
  ∀ listingId, ((live (d.gallery listingId)).map RelationRow.position).Nodup

end Gallery
