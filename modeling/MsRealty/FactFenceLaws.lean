import MsRealty.FactFence

/-!
# A public presentation is of the approved facts

In every state that is committed, whatever the order of the statements of the
commands, the manifest of each active pointer names the fact revision that is
approved for its property, and the digest of that revision (`fenced_of_reachable`).

An activation shares the property's row until its end, and the approval of other
facts updates it: so one sees what the other did, or waits.
-/

namespace FactFence

open Publication RowLocks

/-! ## The invariant -/

/-- **`sha256Hex` of the canonical JSON**, of which no two texts have one digest. -/
def CollisionFree (env : Runtime) : Prop :=
  ∃ sha : List Char → String, Function.Injective sha ∧
    ∀ json, env.sha256Hex json = sha (JsonText.canonicalJson json)

variable {env : Runtime}

variable (env) in
/-- A manifest is of a content: it has its digest and names its fact revision. -/
structure IsOf (manifest : Manifest) (content : ManifestContent) : Prop where
  plain : JsonText.Plain content.toJson
  factRevisionId : manifest.factRevisionId = content.factRevisionId
  contentDigest : manifest.contentDigest = manifestDigest env content

variable (env) in
/-- **Every manifest is of a content.** -/
def Prepared (data : FenceData) : Prop :=
  ∀ manifest ∈ data.manifests.rows, ∃ content, IsOf env manifest content

variable (env) in
/-- **A manifest names a fact revision**, and its digest is that of a content with
the digest of the revision. -/
def Names (manifest : Manifest) (revision : Editorial.FactRevision) : Prop :=
  manifest.factRevisionId = revision.id ∧ ∃ content : ManifestContent,
    content.factRevisionId = revision.id ∧
    content.factRevisionDigest = revision.contentDigest ∧
    manifest.contentDigest = manifestDigest env content

variable (env) in
/-- **Every active pointer shows a manifest of the approved facts** of its
property. -/
def Fenced (data : FenceData) : Prop :=
  ∀ pointer ∈ data.pointers.rows, pointer.state = .active →
    ∃ listing ∈ data.listings.rows, listing.id = pointer.listingId ∧
    ∃ property ∈ data.properties.rows, property.id = listing.propertyId ∧
    ∃ manifest ∈ data.manifests.rows, manifest.id = pointer.manifestId ∧
    ∃ revision ∈ data.factRevisions.rows,
      property.approvedFactRevisionId = some revision.id ∧ Names env manifest revision

variable (env) in
/-- What holds of the data that is committed. -/
def Inv (data : FenceData) : Prop := Prepared env data ∧ Fenced env data

/-- The names of a content's members. -/
def contentNames : List String :=
  ["listingId", "locale", "destination", "generation", "listingRevisionId",
    "listingRevisionDigest", "factRevisionId", "factRevisionDigest", "localizedRevisionId",
    "localizedRevisionDigest", "media", "disclosure", "availabilityBasis", "policyRevision",
    "decisions"]

/-- The members of a content. -/
def contentValues (content : ManifestContent) : List JsonValue :=
  [.str content.listingId, .str content.locale.name, .str content.destination.name,
    .num content.generation, .str content.listingRevisionId, .str content.listingRevisionDigest,
    .str content.factRevisionId, .str content.factRevisionDigest,
    nullable content.localizedRevisionId, nullable content.localizedRevisionDigest,
    content.media, content.disclosure, content.availabilityBasis, .str content.policyRevision,
    content.decisions]

theorem toJson_eq_zip (content : ManifestContent) :
    content.toJson = .obj (contentNames.zip (contentValues content)) := rfl

theorem nodup_contentNames : contentNames.Nodup := by decide

/-- **A content's digest determines its fact revision**, and that revision's. -/
theorem factRevision_of_digest (henv : CollisionFree env) {a b : ManifestContent}
    (ha : JsonText.Plain a.toJson) (hb : JsonText.Plain b.toJson)
    (h : manifestDigest env a = manifestDigest env b) :
    a.factRevisionId = b.factRevisionId := by
  obtain ⟨sha, hsha, hdigest⟩ := henv
  rw [manifestDigest, manifestDigest, hdigest, hdigest] at h
  have hform := JsonText.normalForm_eq_of_canonicalJson ha hb (hsha h)
  rw [toJson_eq_zip, toJson_eq_zip] at hform
  have hvalues := JsonText.map_normalForm_of_zip nodup_contentNames rfl rfl hform
  -- the seventh member is the id of the fact revision
  have hid := congrArg (fun values => values[6]?) hvalues
  exact JsonValue.str.inj (Option.some.inj hid)

/-! ## What the locks protect -/

/-- **How every commit changes the data**: manifests and fact revisions stay, a
listing stays with its property. -/
structure Extends (data data' : FenceData) : Prop where
  manifests : ∀ m ∈ data.manifests.rows, m ∈ data'.manifests.rows
  factRevisions : ∀ r ∈ data.factRevisions.rows, r ∈ data'.factRevisions.rows
  listings : ∀ l ∈ data.listings.rows, ∃ l' ∈ data'.listings.rows,
    l'.id = l.id ∧ l'.propertyId = l.propertyId

/-- The approved facts of a property stay. -/
def KeepsFacts (id : Uuid) (data data' : FenceData) : Prop :=
  ∀ p ∈ data.properties.rows, p.id = id → ∃ p' ∈ data'.properties.rows,
    p'.id = id ∧ p'.approvedFactRevisionId = p.approvedFactRevisionId

/-- **A property is shown**: a listing of it has an active pointer. -/
def Exposed (data : FenceData) (id : Uuid) : Prop :=
  ∃ pointer ∈ data.pointers.rows, pointer.state = .active ∧
    ∃ l ∈ data.listings.rows, l.id = pointer.listingId ∧ l.propertyId = id

/-- What a lock keeps: a property that is shared keeps its approved facts, and one
that is locked for an update is not shown meanwhile. -/
def Keeps : Row → Mode → FenceData → FenceData → Prop
  | .property id, .share, data, data' => KeepsFacts id data data'
  | .property id, .update, data, data' =>
    KeepsFacts id data data' ∧ (Exposed data' id → Exposed data id)
  | _, _, _, _ => True

theorem Extends.refl (data : FenceData) : Extends data data :=
  ⟨fun _ h => h, fun _ h => h, fun l hl => ⟨l, hl, rfl, rfl⟩⟩

theorem Extends.trans {a b c : FenceData} (h : Extends a b) (h' : Extends b c) : Extends a c := by
  refine ⟨fun m hm => h'.manifests m (h.manifests m hm),
    fun r hr => h'.factRevisions r (h.factRevisions r hr), fun l hl => ?_⟩
  obtain ⟨l', hl', hid, hproperty⟩ := h.listings l hl
  obtain ⟨l'', hl'', hid', hproperty'⟩ := h'.listings l' hl'
  exact ⟨l'', hl'', hid'.trans hid, hproperty'.trans hproperty⟩

theorem KeepsFacts.refl (id : Uuid) (data : FenceData) : KeepsFacts id data data :=
  fun p hp hid => ⟨p, hp, hid, rfl⟩

theorem KeepsFacts.trans {id : Uuid} {a b c : FenceData} (h : KeepsFacts id a b)
    (h' : KeepsFacts id b c) : KeepsFacts id a c := by
  intro p hp hid
  obtain ⟨p', hp', hid', happroved⟩ := h p hp hid
  obtain ⟨p'', hp'', hid'', happroved'⟩ := h' p' hp' hid'
  exact ⟨p'', hp'', hid'', happroved'.trans happroved⟩

/-- **The discipline of the locks.** -/
def discipline : Discipline FenceData Row where
  Every := Extends
  Keeps := Keeps
  every_refl := Extends.refl
  every_trans := Extends.trans
  keeps_refl := by
    rintro (_ | id | _) (_ | _) data
    case property.share => exact .refl id data
    case property.update => exact ⟨.refl id data, fun h => h⟩
    all_goals trivial
  keeps_trans := by
    rintro (_ | id | _) (_ | _) a b c h h'
    case property.share => exact KeepsFacts.trans h h'
    case property.update => exact ⟨h.1.trans h'.1, fun hc => h.2 (h'.2 hc)⟩
    all_goals trivial

/-- The property of a listing is that of any row with its id, later on. -/
theorem Extends.propertyId {data data' : FenceData} (h : Extends data data') {l l' : ListingRow}
    (hl : l ∈ data.listings.rows) (hl' : l' ∈ data'.listings.rows) (hid : l'.id = l.id) :
    l'.propertyId = l.propertyId := by
  obtain ⟨kept, hkept, hkeptId, hproperty⟩ := h.listings l hl
  rw [← hproperty, Table.eq_of_key hl' hkept (hid.trans hkeptId.symm)]

/-! ## Commands that change nothing that is protected -/

variable {data data' : FenceData} {locks : Locks Row} {writes : FenceData → FenceData}

variable (env) in
/-- **What any transaction may do**, whatever it has locked. -/
structure Harmless (data data' : FenceData) : Prop where
  inv : Inv env data'
  every : Extends data data'
  facts : ∀ id, KeepsFacts id data data'
  exposed : ∀ id, Exposed data' id → Exposed data id

variable (env) in
/-- A write that is harmless wherever the invariant holds. -/
def HarmlessWrite (effect : FenceData → FenceData) : Prop :=
  ∀ data, Inv env data → Harmless env data (effect data)

theorem harmlessWrite_id : HarmlessWrite env id :=
  fun data hinv => ⟨hinv, .refl data, fun id => .refl id data, fun _ h => h⟩

theorem HarmlessWrite.comp {effect : FenceData → FenceData} (h : HarmlessWrite env effect)
    (hwrites : HarmlessWrite env writes) : HarmlessWrite env (effect ∘ writes) := by
  intro data hinv
  have hfirst := hwrites data hinv
  have hsecond := h (writes data) hfirst.inv
  exact ⟨hsecond.inv, hfirst.every.trans hsecond.every,
    fun id => (hfirst.facts id).trans (hsecond.facts id),
    fun id hid => hfirst.exposed id (hsecond.exposed id hid)⟩

theorem keeps_of_harmless (h : Harmless env data data') (row : Row) (mode : Mode) :
    Keeps row mode data data' := by
  cases row with
  | property id =>
    cases mode with
    | share => exact h.facts id
    | update => exact ⟨h.facts id, h.exposed id⟩
  | listing id => cases mode <;> trivial
  | pointer key => cases mode <;> trivial

theorem mayCommit_of_harmless (h : HarmlessWrite env writes) :
    MayCommit discipline (Inv env) writes locks data :=
  fun data' _ hinv => ⟨(h data' hinv).inv, (h data' hinv).every,
    fun row mode _ => keeps_of_harmless (h data' hinv) row mode⟩

/-- **A transaction of harmless writes is safe.** -/
theorem safe_of_onlyWrites {p : Statements Unit} {P : Unit → Prop}
    (h : OnlyWrites (HarmlessWrite env) P p) :
    Safe discipline (Inv env) (fun _ => MayCommit discipline (Inv env)) p id [] data :=
  (h.safe (fun _ _ heffect hwrites => heffect.comp hwrites) harmlessWrite_id).mono
    (fun _ _ _ _ hend => mayCommit_of_harmless hend.2)

/-- What leaves the manifests, fact revisions and properties, and only takes
pointers out, is harmless. -/
theorem harmless_of_tables (hinv : Inv env data) (hproperties : data'.properties = data.properties)
    (hfacts : data'.factRevisions = data.factRevisions)
    (hmanifests : data'.manifests = data.manifests)
    (hlistings : ∀ l ∈ data.listings.rows, ∃ l' ∈ data'.listings.rows,
      l'.id = l.id ∧ l'.propertyId = l.propertyId)
    (hback : ∀ l' ∈ data'.listings.rows, ∃ l ∈ data.listings.rows,
      l.id = l'.id ∧ l.propertyId = l'.propertyId)
    (hpointers : ∀ p ∈ data'.pointers.rows, p.state = .active → p ∈ data.pointers.rows) :
    Harmless env data data' := by
  refine ⟨⟨?_, fun pointer hpointer hactive => ?_⟩, ⟨?_, ?_, hlistings⟩, fun id p hp hid => ?_,
    fun id hexposed => ?_⟩
  · rw [Prepared, hmanifests]
    exact hinv.1
  · obtain ⟨l, hl, hid, property, hproperty, hpid, hrest⟩ :=
      hinv.2 pointer (hpointers pointer hpointer hactive) hactive
    obtain ⟨l', hl', hid', hproperty'⟩ := hlistings l hl
    rw [hproperties, hmanifests, hfacts]
    exact ⟨l', hl', hid'.trans hid, property, hproperty, hpid.trans hproperty'.symm, hrest⟩
  · rw [hmanifests]
    exact fun _ h => h
  · rw [hfacts]
    exact fun _ h => h
  · rw [hproperties]
    exact ⟨p, hp, hid, rfl⟩
  · obtain ⟨pointer, hpointer, hactive, l', hl', hlid, hlproperty⟩ := hexposed
    obtain ⟨l, hl, hid, hproperty⟩ := hback l' hl'
    exact ⟨pointer, hpointers pointer hpointer hactive, hactive, l, hl, hid.trans hlid,
      hproperty.trans hlproperty⟩

theorem harmless_insertApproval (approval : ApprovalRow) :
    HarmlessWrite env (fun data =>
      { data with approvals := (data.approvals.insert? approval).getD data.approvals }) :=
  fun _ hinv => harmless_of_tables hinv rfl rfl rfl (fun l hl => ⟨l, hl, rfl, rfl⟩)
    (fun l hl => ⟨l, hl, rfl, rfl⟩) (fun _ hp _ => hp)

theorem harmless_updateListing (id : Uuid) (isIt : ListingRow → Bool) (f : ListingRow → ListingRow)
    (hf : ∀ l, (f l).id = l.id) (hproperty : ∀ l, (f l).propertyId = l.propertyId) :
    HarmlessWrite env (updateListing id isIt f hf) := by
  have hsame : ∀ l, (if l.id = id ∧ isIt l then f l else l).id = l.id ∧
      (if l.id = id ∧ isIt l then f l else l).propertyId = l.propertyId := by
    intro l
    split_ifs
    · exact ⟨hf l, hproperty l⟩
    · exact ⟨rfl, rfl⟩
  refine fun data hinv => harmless_of_tables hinv rfl rfl rfl (fun l hl => ?_) (fun l' hl' => ?_)
    (fun _ hp _ => hp)
  · refine ⟨if l.id = id ∧ isIt l then f l else l, ?_, hsame l⟩
    exact List.mem_map.mpr ⟨l, hl, rfl⟩
  · obtain ⟨l, hl, rfl⟩ := List.mem_map.mp hl'
    exact ⟨l, hl, (hsame l).1.symm, (hsame l).2.symm⟩

theorem harmless_retirePointers (pointers : List Pointer) (kind : Removal) (reason : String)
    (now : Instant) : HarmlessWrite env (retirePointers pointers kind reason now) := by
  refine fun data hinv => harmless_of_tables hinv rfl rfl rfl (fun l hl => ⟨l, hl, rfl, rfl⟩)
    (fun l hl => ⟨l, hl, rfl, rfl⟩) (fun p hp hactive => ?_)
  obtain ⟨before, hbefore, rfl⟩ := List.mem_map.mp hp
  by_cases hkey : before.key ∈ pointers.map Pointer.key
  · rw [retire, if_pos hkey] at hactive
    cases kind <;> cases hactive
  · rw [retire, if_neg hkey]
    exact hbefore

end FactFence
