import MsRealty.FactFenceLaws

/-!
# The fence, command by command

Each command is safe, whatever commits between its statements: an activation
shares the row of the property until its end, and an approval of other facts
updates that row while the property is not shown. So every state that is
committed is fenced (`fenced_of_reachable`).
-/

namespace FactFence

open Publication RowLocks

variable {env : Runtime} {data data' : FenceData} {locks : Locks Row} {command : CommandEnvelope}
  {found : Findings}

/-! ## Editorial approvals and removals -/

section

variable {E : (FenceData → FenceData) → Prop}

theorem onlyWrites_lockListing (isIt : ListingRow → Bool) :
    OnlyWrites E (fun _ => True) (lockListing isIt) :=
  fun _ => OnlyWrites.required fun _ _ => fun _ => OnlyWrites.required_last fun _ _ => trivial

theorem onlyWrites_refuse (refusal : Option (Thrown JsonValue)) :
    OnlyWrites E (fun _ => True) (refuse refusal) :=
  OnlyWrites.demand_last trivial

theorem onlyWrites_lockPointers (pointers : List Pointer) :
    OnlyWrites E (fun _ => True) (lockPointers pointers) := by
  induction pointers with
  | nil => exact trivial
  | cons pointer pointers ih => exact fun _ => ih

end

/-- **The approval of a listing's revision is safe.** -/
theorem approveListingRevision_safe (reference : String) (revisionId : Uuid)
    (note : Option String) : OnlyWrites (HarmlessWrite env) (fun _ => True)
      (approveListingRevision env command reference revisionId note found) := by
  refine (onlyWrites_lockListing _).bind fun listing _ => fun _ => ?_
  refine OnlyWrites.required fun revision _ => OnlyWrites.demand fun _ => OnlyWrites.demand fun _ =>
    ⟨harmless_updateListing _ _ _ _ (fun _ => ?_), harmless_insertApproval _,
      harmless_updateListing _ _ _ _ (fun _ => ?_), trivial⟩
  · rfl
  · rfl

/-- **Removing exposure is safe.** -/
theorem removeExposure_safe (kind : Removal) (reference reason : String) :
    OnlyWrites (HarmlessWrite env) (fun _ => True)
      (removeExposure env kind command reference reason found) := by
  refine OnlyWrites.demand fun _ => (onlyWrites_lockListing _).bind fun listing _ =>
    (onlyWrites_refuse _).bind fun _ _ => OnlyWrites.demand fun _ => fun _ =>
      (onlyWrites_lockPointers _).bind fun _ _ => fun _ =>
        ⟨harmless_updateListing _ _ _ _ (fun _ => ?_), harmless_retirePointers _ _ _ _,
          fun _ => OnlyWrites.demand_last trivial⟩
  rfl

/-! ## Evidence -/

/-- **What the evidence of a publication is bound to**, while the property is
shared. -/
structure Bound (listing : ListingRow) (locks : Locks Row) (data : FenceData)
    (evidence : Evidence) : Prop where
  shared : (Row.property listing.propertyId, Mode.share) ∈ locks
  facts : ∃ property ∈ data.properties.rows, property.id = listing.propertyId ∧
    ∃ revision ∈ data.factRevisions.rows, evidence.factRevisionId = revision.id ∧
      evidence.factRevisionDigest = revision.contentDigest ∧
      (evidence.factual.isSome = true → property.approvedFactRevisionId = some revision.id)
  plain : JsonText.Plain evidence.media ∧ JsonText.Plain evidence.disclosure

/-- **The evidence stays bound**, whatever others commit. -/
theorem Bound.of_rely {listing : ListingRow} {evidence : Evidence}
    (h : Bound listing locks data evidence) (hrely : discipline.Rely locks data data') :
    Bound listing locks data' evidence := by
  obtain ⟨hshared, ⟨property, hproperty, hid, revision, hrevision, hrest, hdigest, hfacts⟩, hplain⟩ := h
  obtain ⟨p', hp', hid', happroved⟩ := hrely.2 _ hshared property hproperty hid
  refine ⟨hshared, ⟨p', hp', hid', revision, hrely.1.factRevisions revision hrevision, hrest,
    hdigest, fun hvalid => ?_⟩, hplain⟩
  rw [happroved]
  exact hfacts hvalid

/-- **Reading the evidence binds it.** -/
theorem readEvidence_safe (listing : ListingRow) (found : Findings) :
    Safe discipline (Inv env)
      (fun evidence writes locks data' => writes = id ∧ Extends data data' ∧
        ∀ e, evidence = some e → Bound listing locks data' e)
      (readEvidence listing found) id locks data := by
  unfold readEvidence
  split
  · exact ⟨rfl, .refl data, fun e he => (nomatch he)⟩
  · refine Safe.reading fun before hbefore _ => Safe.locking fun first hfirst _ => ?_
    have hextends := hbefore.1.trans hfirst.1
    dsimp only [id]
    split
    · next revision property hrevision hproperty =>
      refine Safe.reading fun second hsecond _ => ?_
      have hextends := hextends.trans hsecond.1
      dsimp only [id]
      split
      · exact ⟨rfl, hextends, fun e he => (nomatch he)⟩
      · next factRevision hfactRevision =>
        obtain ⟨hmem, hid⟩ := Table.get?_eq_some.mp hproperty
        obtain ⟨hfactRevisionMem, -⟩ := Table.get?_eq_some.mp hfactRevision
        refine Safe.reading fun third hthird _ => Safe.reading fun fourth hfourth _ => ?_
        refine ⟨rfl, (hextends.trans hthird.1).trans hfourth.1, fun e he => ?_⟩
        obtain rfl := Option.some.inj he
        refine Bound.of_rely (Bound.of_rely ⟨List.mem_cons_self, ?_, found.media.property,
          found.disclosure.property⟩ hthird) hfourth
        obtain ⟨p', hp', hid', happroved⟩ := hsecond.2 _ List.mem_cons_self property hmem hid
        refine ⟨p', hp', hid', factRevision, hfactRevisionMem, rfl, rfl, fun hfactual => ?_⟩
        rw [happroved]
        by_contra hother
        unfold evidenceOf at hfactual
        dsimp only at hfactual
        rw [if_neg hother] at hfactual
        cases hfactual
    · exact ⟨rfl, hextends, fun e he => (nomatch he)⟩

/-! ## Contents -/

/-- A manifest may be activated only when its facts were reviewed. -/
theorem factReview_of_checkActivation {input : ActivationInput} {actor : Actor}
    (h : checkActivation input actor = .allowed) : input.factReviewValid = true := by
  simp only [checkActivation, Decision.firstDenial_eq_allowed, List.forall_mem_cons,
    Decision.need_eq_allowed] at h
  exact h.2.2.2.1

theorem plain_nullable (value : Option String) : JsonText.Plain (nullable value) := by
  cases value <;> trivial

/-- **What a content has of the evidence** it is made from. -/
theorem content_of_evidence {listing : Listing} {locale : PublicLocale} {generation : ℕ}
    {evidence : Option Evidence} {content : ManifestContent}
    (h : (Publication.currentEligibility env listing locale generation evidence).snd =
      some content) : ∃ e, evidence = some e ∧ content.factRevisionId = e.factRevisionId ∧
      content.factRevisionDigest = e.factRevisionDigest ∧
      (Publication.currentEligibility env listing locale generation evidence).fst.factReviewValid =
        e.factual.isSome ∧
      (JsonText.Plain e.media ∧ JsonText.Plain e.disclosure → JsonText.Plain content.toJson) := by
  cases evidence with
  | none => exact (nomatch h)
  | some e =>
    obtain rfl := Option.some.inj h
    refine ⟨e, rfl, rfl, rfl, rfl, fun ⟨hmedia, hdisclosure⟩ => ?_⟩
    refine ⟨trivial, trivial, trivial, ?_, trivial, trivial, trivial, trivial, plain_nullable _,
      plain_nullable _, hmedia, hdisclosure, ?_, trivial, ?_, trivial⟩
    · exact (JsonText.decimal_iff _).mpr ⟨0, by rw [Rat.den_natCast]; exact Nat.one_dvd _⟩
    · exact ⟨trivial, plain_nullable _, plain_nullable _, trivial⟩
    · exact ⟨plain_nullable _, plain_nullable _, plain_nullable _, plain_nullable _,
        plain_nullable _, trivial⟩

/-- **A content that may be published**, while the property is shared: its facts are
those that are approved. -/
structure Publishable (listing : ListingRow) (locks : Locks Row) (data : FenceData)
    (content : ManifestContent) : Prop where
  shared : (Row.property listing.propertyId, Mode.share) ∈ locks
  facts : ∃ property ∈ data.properties.rows, property.id = listing.propertyId ∧
    ∃ revision ∈ data.factRevisions.rows, content.factRevisionId = revision.id ∧
      content.factRevisionDigest = revision.contentDigest ∧
      property.approvedFactRevisionId = some revision.id
  plain : JsonText.Plain content.toJson

theorem Publishable.of_rely {listing : ListingRow} {content : ManifestContent}
    (h : Publishable listing locks data content) (hrely : discipline.Rely locks data data') :
    Publishable listing locks data' content := by
  obtain ⟨hshared, ⟨property, hproperty, hid, revision, hrevision, hrest, hdigest, hfacts⟩,
    hplain⟩ := h
  obtain ⟨p', hp', hid', happroved⟩ := hrely.2 _ hshared property hproperty hid
  exact ⟨hshared, ⟨p', hp', hid', revision, hrely.1.factRevisions revision hrevision, hrest,
    hdigest, happroved.trans hfacts⟩, hplain⟩

/-- **What is eligible is publishable**, if its activation is allowed. -/
theorem publishable_of_bound {listing : ListingRow} {locale : PublicLocale} {generation : ℕ}
    {evidence : Option Evidence} {content : ManifestContent} {actor : Actor}
    (hbound : ∀ e, evidence = some e → Bound listing locks data e)
    (hallowed : checkActivation (Publication.currentEligibility env listing.toListing locale
      generation evidence).fst actor = .allowed)
    (hcontent : (Publication.currentEligibility env listing.toListing locale generation
      evidence).snd = some content) : Publishable listing locks data content := by
  obtain ⟨e, he, hid, hdigest, hvalid, hplain⟩ := content_of_evidence hcontent
  obtain ⟨hshared, ⟨property, hproperty, hpid, revision, hrevision, heid, hedigest, hfacts⟩,
    heplain⟩ := hbound e he
  refine ⟨hshared, ⟨property, hproperty, hpid, revision, hrevision, hid.trans heid,
    hdigest.trans hedigest, hfacts ?_⟩, hplain heplain⟩
  rw [← hvalid]
  exact factReview_of_checkActivation hallowed

/-- **A listing that is locked** is there, as it is read. -/
theorem lockListing_safe (isIt : ListingRow → Bool) :
    Safe discipline (Inv env)
      (fun listing writes _ data' => writes = id ∧ Extends data data' ∧
        listing ∈ data'.listings.rows ∧ isIt listing = true)
      (lockListing isIt) id locks data := by
  refine Safe.reading fun first hfirst _ => Safe.required fun listing _ =>
    Safe.locking fun second hsecond _ => Safe.required_last fun locked hlocked => ?_
  obtain ⟨hget, hisIt⟩ := Option.filter_eq_some_iff.mp hlocked
  exact ⟨rfl, hfirst.1.trans hsecond.1, (Table.get?_eq_some.mp hget).1, hisIt⟩

/-- **The eligibility that is read**, of a listing that is locked. -/
theorem currentEligibility_safe (listing : ListingRow) (locale : PublicLocale) (generation : ℕ)
    (found : Findings) : Safe discipline (Inv env)
      (fun eligibility writes locks data' => writes = id ∧ Extends data data' ∧
        ∀ actor content, checkActivation eligibility.fst actor = .allowed →
          eligibility.snd = some content → Publishable listing locks data' content)
      (currentEligibility env listing locale generation found) id locks data := by
  refine (readEvidence_safe listing found).bind fun evidence writes locks data' hread => ?_
  obtain ⟨hwrites, hextends, hbound⟩ := hread
  exact ⟨hwrites, hextends, fun actor content hallowed hcontent =>
    publishable_of_bound hbound hallowed hcontent⟩

/-! ## Preparing -/

/-- A manifest of a content is harmless. -/
theorem harmless_addManifest {content : ManifestContent} (hplain : JsonText.Plain content.toJson) :
    HarmlessWrite env (addManifest (newManifest env content command found)) := by
  intro data hinv
  cases hinsert : data.manifests.insert? (newManifest env content command found) with
  | none =>
    have hsame : addManifest (newManifest env content command found) data = data := by
      rw [addManifest, hinsert]
      rfl
    rw [hsame]
    exact harmlessWrite_id data hinv
  | some manifests =>
    have hadd : addManifest (newManifest env content command found) data =
        { data with manifests := manifests } := by
      rw [addManifest, hinsert]
      rfl
    have hmem := Table.mem_insert? hinsert
    rw [hadd]
    refine ⟨⟨fun m hm => ?_, fun pointer hpointer hactive => ?_⟩,
      ⟨fun m hm => (hmem m).mpr (.inr hm), fun _ h => h, fun l hl => ⟨l, hl, rfl, rfl⟩⟩,
      fun id => .refl id data, fun _ h => h⟩
    · obtain rfl | hm := (hmem m).mp hm
      · exact ⟨content, hplain, rfl, rfl⟩
      · exact hinv.1 m hm
    · obtain ⟨l, hl, hid, property, hproperty, hpid, manifest, hmanifest, hrest⟩ :=
        hinv.2 pointer hpointer hactive
      exact ⟨l, hl, hid, property, hproperty, hpid, manifest, (hmem manifest).mpr (.inr hmanifest),
        hrest⟩

/-- A refusal that lets a transaction go on. -/
theorem Safe.refuse {α : Type} {refusal : Option (Thrown JsonValue)} {f : Unit → Statements α}
    {writes : FenceData → FenceData} {P : α → (FenceData → FenceData) → Locks Row → FenceData → Prop}
    (h : Safe discipline (Inv env) P (f ()) writes locks data) :
    Safe discipline (Inv env) P (FactFence.refuse refusal >>= f) writes locks data :=
  RowLocks.Safe.demand fun _ => h

/-- **Preparing a manifest is safe.** -/
theorem prepareManifest_safe (reference : String) (locale : PublicLocale) :
    Safe discipline (Inv env) (fun _ => MayCommit discipline (Inv env))
      (prepareManifest env command reference locale found) id [] data := by
  refine (lockListing_safe _).bind fun listing writes locks data' hlisting => ?_
  obtain ⟨rfl, -, -, -⟩ := hlisting
  refine Safe.refuse (RowLocks.Safe.demand fun _ => ?_)
  refine (currentEligibility_safe listing locale _ found).bind
    fun eligibility writes locks data' heligible => ?_
  obtain ⟨rfl, -, hpublishable⟩ := heligible
  refine RowLocks.Safe.demand fun hallowed => RowLocks.Safe.required fun content hcontent => ?_
  have hplain := (hpublishable _ content hallowed hcontent).plain
  refine Safe.refuse (RowLocks.Safe.demand fun _ => RowLocks.Safe.reading fun _ _ _ =>
    RowLocks.Safe.demand fun _ => RowLocks.Safe.writing_last ?_)
  exact mayCommit_of_harmless ((harmless_addManifest hplain).comp harmlessWrite_id)

/-! ## Activating -/

/-- **What an activation is about to switch to**, while the property is shared. -/
structure Activates (env : Runtime) (listing : ListingRow) (manifest : Manifest)
    (locks : Locks Row) (data : FenceData) (content : ManifestContent) : Prop where
  row : ∃ l ∈ data.listings.rows, l.id = listing.id ∧ l.propertyId = listing.propertyId
  prepared : manifest ∈ data.manifests.rows
  publishable : Publishable listing locks data content
  digest : manifestDigest env content = manifest.contentDigest

theorem Activates.of_rely {listing : ListingRow} {manifest : Manifest} {content : ManifestContent}
    (h : Activates env listing manifest locks data content)
    (hrely : discipline.Rely locks data data') :
    Activates env listing manifest locks data' content := by
  obtain ⟨l, hl, hid, hproperty⟩ := h.row
  obtain ⟨l', hl', hid', hproperty'⟩ := hrely.1.listings l hl
  exact ⟨⟨l', hl', hid'.trans hid, hproperty'.trans hproperty⟩,
    hrely.1.manifests manifest h.prepared, h.publishable.of_rely hrely, h.digest⟩

/-- A further lock. -/
theorem Activates.lock {listing : ListingRow} {manifest : Manifest} {content : ManifestContent}
    (h : Activates env listing manifest locks data content) (lock : Row × Mode) :
    Activates env listing manifest (lock :: locks) data content :=
  ⟨h.row, h.prepared, ⟨List.mem_cons_of_mem lock h.publishable.shared, h.publishable.facts,
    h.publishable.plain⟩, h.digest⟩

/-- **The manifest that is switched to names the approved facts.** -/
theorem Activates.names (henv : CollisionFree env) (hinv : Inv env data) {listing : ListingRow}
    {manifest : Manifest} {content : ManifestContent}
    (h : Activates env listing manifest locks data content) :
    ∃ property ∈ data.properties.rows, property.id = listing.propertyId ∧
      ∃ revision ∈ data.factRevisions.rows,
        property.approvedFactRevisionId = some revision.id ∧ Names env manifest revision := by
  obtain ⟨property, hproperty, hpid, revision, hrevision, hid, hdigest, happroved⟩ :=
    h.publishable.facts
  obtain ⟨prepared, hprepared⟩ := hinv.1 manifest h.prepared
  have hsame : prepared.factRevisionId = content.factRevisionId := by
    refine factRevision_of_digest henv hprepared.plain h.publishable.plain ?_
    rw [← hprepared.contentDigest, h.digest]
  refine ⟨property, hproperty, hpid, revision, hrevision, happroved, ?_, content, hid, hdigest,
    h.digest.symm⟩
  rw [hprepared.factRevisionId, hsame, hid]

/-- What is shown after a pointer is written: what was, and its property. -/
theorem exposed_putPointer {pointer : Pointer} {listing : ListingRow} {id : Uuid}
    (hpointer : pointer.listingId = listing.id)
    (hlisting : ∃ l ∈ data.listings.rows, l.id = listing.id ∧ l.propertyId = listing.propertyId)
    (h : Exposed (putPointer pointer data) id) : Exposed data id ∨ id = listing.propertyId := by
  obtain ⟨shown, hshown, hactive, l, hl, hlid, hproperty⟩ := h
  obtain rfl | ⟨hshown, -⟩ := Table.mem_put.mp hshown
  · obtain ⟨known, hknown, hid, hknownProperty⟩ := hlisting
    refine .inr ?_
    rw [← hproperty, ← hknownProperty,
      Table.eq_of_key hl hknown (hlid.trans (hpointer.trans hid.symm))]
  · exact .inl ⟨shown, hshown, hactive, l, hl, hlid, hproperty⟩

/-- **Switching to a manifest of the approved facts** keeps the invariant. -/
theorem inv_putPointer (henv : CollisionFree env) (hinv : Inv env data) {listing : ListingRow}
    {manifest : Manifest} {content : ManifestContent} {pointer : Pointer}
    (hlisting : pointer.listingId = listing.id) (hmanifest : pointer.manifestId = manifest.id)
    (h : Activates env listing manifest locks data content) :
    Inv env (putPointer pointer data) := by
  refine ⟨hinv.1, fun shown hshown hactive => ?_⟩
  obtain rfl | ⟨hshown, -⟩ := Table.mem_put.mp hshown
  · obtain ⟨l, hl, hid, hproperty⟩ := h.row
    obtain ⟨property, hmem, hpid, revision, hrevision, hnames⟩ := h.names henv hinv
    exact ⟨l, hl, hid.trans hlisting.symm, property, hmem, hpid.trans hproperty.symm, manifest,
      h.prepared, hmanifest.symm, revision, hrevision, hnames⟩
  · exact hinv.2 shown hshown hactive

/-- **Switching to it may be committed**: the property is shared. -/
theorem mayCommit_putPointer (henv : CollisionFree env) {listing : ListingRow}
    {manifest : Manifest} {content : ManifestContent} {pointer : Pointer} {approval : ApprovalRow}
    (hlisting : pointer.listingId = listing.id) (hmanifest : pointer.manifestId = manifest.id)
    (h : Activates env listing manifest locks data content) :
    MayCommit discipline (Inv env) (putPointer pointer ∘ (fun data =>
      { data with approvals := (data.approvals.insert? approval).getD data.approvals }) ∘ id)
      locks data := by
  intro data' hrely hinv
  have hready := h.of_rely hrely
  -- the approval that is recorded leaves the tables the invariant is about
  have hwritten : Harmless env data' _ := harmless_insertApproval approval data' hinv
  have hafter : Activates env listing manifest locks
      { data' with approvals := (data'.approvals.insert? approval).getD data'.approvals } content :=
    ⟨hready.row, hready.prepared,
      ⟨hready.publishable.shared, hready.publishable.facts, hready.publishable.plain⟩,
      hready.digest⟩
  refine ⟨inv_putPointer henv hwritten.inv hlisting hmanifest hafter,
    ⟨fun _ hm => hm, fun _ hr => hr, fun l hl => ⟨l, hl, rfl, rfl⟩⟩, fun row mode hcompat => ?_⟩
  cases row with
  | property id =>
    cases mode with
    | share => exact KeepsFacts.refl id data'
    | update =>
      refine ⟨KeepsFacts.refl id data', fun hexposed => ?_⟩
      obtain hold | rfl := exposed_putPointer hlisting hafter.row hexposed
      · exact hold
      · exact absurd (hcompat _ hready.publishable.shared rfl)
          (show ¬ Mode.share.Compatible .update by decide)
  | listing id => cases mode <;> trivial
  | pointer key => cases mode <;> trivial

/-- **Activating a manifest is safe.** -/
theorem activateManifest_safe (henv : CollisionFree env) (manifestId : Uuid) :
    Safe discipline (Inv env) (fun _ => MayCommit discipline (Inv env))
      (activateManifest env command manifestId found) id [] data := by
  refine RowLocks.Safe.reading fun first _ _ => RowLocks.Safe.required fun manifest hmanifest => ?_
  refine (lockListing_safe _).bind fun listing writes locks second hlisting => ?_
  obtain ⟨rfl, hextends, hmem, -⟩ := hlisting
  have hprepared := hextends.manifests manifest (Table.get?_eq_some.mp hmanifest).1
  refine Safe.refuse (RowLocks.Safe.demand fun _ => RowLocks.Safe.demand fun _ => ?_)
  refine (currentEligibility_safe listing _ _ found).bind
    fun eligibility writes locks third heligible => ?_
  obtain ⟨rfl, hextends', hpublishable⟩ := heligible
  refine RowLocks.Safe.demand fun hallowed => RowLocks.Safe.required fun content hcontent =>
    RowLocks.Safe.demand fun hdigest => Safe.refuse (RowLocks.Safe.writing ?_)
  have hready : Activates env listing manifest locks third content :=
    ⟨hextends'.listings listing hmem, hextends'.manifests manifest hprepared,
      hpublishable _ content hallowed hcontent, hdigest⟩
  refine RowLocks.Safe.locking fun fourth hfourth _ => RowLocks.Safe.writing
    (RowLocks.Safe.reading fun fifth hfifth _ => RowLocks.Safe.demand_last fun _ => ?_)
  exact mayCommit_putPointer henv rfl rfl (((hready.of_rely hfourth).lock _).of_rely hfifth)

/-! ## Approving facts -/

/-- **Facts may be approved**, while the property is locked for an update: it is not
shown, or they are the approved facts already. -/
structure Approves (propertyId revisionId : Uuid) (locks : Locks Row) (data : FenceData) :
    Prop where
  locked : (Row.property propertyId, Mode.update) ∈ locks
  fenced : ¬ Exposed data propertyId ∨ ∃ p ∈ data.properties.rows, p.id = propertyId ∧
    p.approvedFactRevisionId = some revisionId

theorem Approves.of_rely {propertyId revisionId : Uuid}
    (h : Approves propertyId revisionId locks data)
    (hrely : discipline.Rely locks data data') : Approves propertyId revisionId locks data' := by
  obtain ⟨hfacts, hexposed⟩ := hrely.2 _ h.locked
  refine ⟨h.locked, h.fenced.imp (fun hnot hshown => hnot (hexposed hshown)) ?_⟩
  rintro ⟨p, hp, hid, happroved⟩
  obtain ⟨p', hp', hid', hsame⟩ := hfacts p hp hid
  exact ⟨p', hp', hid', hsame.trans happroved⟩

/-- The exposures of a property are empty when it is not shown. -/
theorem not_exposed_of_isEmpty {propertyId : Uuid}
    (h : (data.exposures propertyId).isEmpty = true) : ¬ Exposed data propertyId := by
  rintro ⟨pointer, hpointer, hactive, l, hl, hid, hproperty⟩
  have hget : data.listings.get? pointer.listingId = some l := Table.get?_eq_some.mpr ⟨hl, hid⟩
  have hmem : pointer ∈ data.exposures propertyId := by
    refine List.mem_filter.mpr ⟨hpointer, ?_⟩
    rw [hget, Option.any_some, Bool.and_eq_true, decide_eq_true_eq, decide_eq_true_eq]
    exact ⟨hactive, hproperty⟩
  rw [List.isEmpty_iff.mp h] at hmem
  exact absurd hmem List.not_mem_nil

/-- Every property is there after facts are approved. -/
theorem exists_approvedRow (property : PropertyRow) (revisionId : Uuid) {p : PropertyRow}
    (h : p ∈ data.properties.rows) :
    ∃ p' ∈ (approveFacts property revisionId data).properties.rows, p'.id = p.id ∧
      (p'.approvedFactRevisionId = p.approvedFactRevisionId ∨
        p.id = property.id ∧ p'.approvedFactRevisionId = some revisionId) := by
  refine ⟨_, List.mem_map.mpr ⟨p, h, rfl⟩, ?_⟩
  split_ifs with hown
  · exact ⟨rfl, .inr ⟨hown.1, rfl⟩⟩
  · exact ⟨rfl, .inl rfl⟩

/-- The approved facts of another property, or facts that are approved already. -/
theorem keepsFacts_approveFacts {property : PropertyRow} {revisionId id : Uuid}
    (h : id = property.id → ∃ p ∈ data.properties.rows, p.id = property.id ∧
      p.approvedFactRevisionId = some revisionId) :
    KeepsFacts id data (approveFacts property revisionId data) := by
  intro p hp hid
  obtain ⟨p', hp', hid', hsame | ⟨hown, happroved⟩⟩ := exists_approvedRow property revisionId hp
  · exact ⟨p', hp', hid'.trans hid, hsame⟩
  · obtain ⟨q, hq, hqid, hqapproved⟩ := h (hid.symm.trans hown)
    obtain rfl := Table.eq_of_key hp hq (hown.trans hqid.symm)
    exact ⟨p', hp', hid'.trans hid, happroved.trans hqapproved.symm⟩

/-- **Approving facts keeps the invariant** of a property that is not shown. -/
theorem inv_approveFacts (hinv : Inv env data) {property : PropertyRow} {revisionId : Uuid}
    (h : Approves property.id revisionId locks data) :
    Inv env (approveFacts property revisionId data) := by
  refine ⟨hinv.1, fun pointer hpointer hactive => ?_⟩
  obtain ⟨l, hl, hid, p, hp, hpid, manifest, hmanifest, hmid, revision, hrevision, happroved,
    hnames⟩ := hinv.2 pointer hpointer hactive
  have hkept : KeepsFacts l.propertyId data (approveFacts property revisionId data) := by
    refine keepsFacts_approveFacts fun hown => h.fenced.resolve_left (not_not.mpr ?_)
    exact ⟨pointer, hpointer, hactive, l, hl, hid, hown⟩
  obtain ⟨p', hp', hpid', happroved'⟩ := hkept p hp hpid
  exact ⟨l, hl, hid, p', hp', hpid', manifest, hmanifest, hmid, revision, hrevision,
    happroved'.trans happroved, hnames⟩

/-- **Approving facts may be committed**: the property is locked for an update. -/
theorem mayCommit_approveFacts {property : PropertyRow} {revisionId : Uuid}
    {approval : ApprovalRow} (h : Approves property.id revisionId locks data) :
    MayCommit discipline (Inv env) (approveFacts property revisionId ∘ (fun data =>
      { data with approvals := (data.approvals.insert? approval).getD data.approvals }) ∘ id)
      locks data := by
  intro data' hrely hinv
  have hready := h.of_rely hrely
  have hwritten : Harmless env data' _ := harmless_insertApproval approval data' hinv
  have hafter : Approves property.id revisionId locks
      { data' with approvals := (data'.approvals.insert? approval).getD data'.approvals } :=
    ⟨hready.locked, hready.fenced⟩
  have hother : ∀ {id : Uuid}, id ≠ property.id → KeepsFacts id data' (approveFacts property
      revisionId
      { data' with approvals := (data'.approvals.insert? approval).getD data'.approvals }) :=
    fun hne => keepsFacts_approveFacts fun hown => absurd hown hne
  refine ⟨inv_approveFacts hwritten.inv hafter,
    ⟨fun _ hm => hm, fun _ hr => hr, fun l hl => ⟨l, hl, rfl, rfl⟩⟩, fun row mode hcompat => ?_⟩
  cases row with
  | property id =>
    -- a lock that another could hold is of another property
    have hne : id ≠ property.id := by
      rintro rfl
      exact absurd (hcompat _ hready.locked rfl).1 (nofun)
    cases mode with
    | share => exact hother hne
    | update => exact ⟨hother hne, fun hexposed => hexposed⟩
  | listing id => cases mode <;> trivial
  | pointer key => cases mode <;> trivial

/-- **Approving facts is safe.** -/
theorem approveFactRevision_safe (factRevisionId : Uuid) (scope : String) :
    Safe discipline (Inv env) (fun _ => MayCommit discipline (Inv env))
      (approveFactRevision env command factRevisionId scope found) id [] data := by
  refine RowLocks.Safe.demand fun _ => RowLocks.Safe.reading fun first _ _ =>
    RowLocks.Safe.required fun revision _ => RowLocks.Safe.locking fun second hsecond _ =>
    RowLocks.Safe.required fun property hproperty => Safe.refuse (RowLocks.Safe.demand fun _ => ?_)
  obtain ⟨hmem, hid⟩ := Table.get?_eq_some.mp hproperty
  have hlocked : (Row.property property.id, Mode.update) ∈
      [(Row.property revision.propertyId, Mode.update)] := by
    rw [hid]
    exact List.mem_cons_self
  refine RowLocks.Safe.bind (Q := fun _ writes locks data' => writes = id ∧
    Approves property.id revision.id locks data') ?_ fun _ writes locks third hfenced => ?_
  · split_ifs with happroved
    · exact ⟨rfl, hlocked, .inr ⟨property, hmem, rfl, happroved⟩⟩
    · exact RowLocks.Safe.reading fun third _ _ => RowLocks.Safe.demand_last fun hempty =>
        ⟨rfl, hlocked, .inl (not_exposed_of_isEmpty hempty)⟩
  · obtain ⟨rfl, happroves⟩ := hfenced
    exact RowLocks.Safe.writing (RowLocks.Safe.writing_last (mayCommit_approveFacts happroves))

/-! ## Every command -/

/-- **Every command is safe.** -/
theorem statements_safe (henv : CollisionFree env) (c : Command) :
    Safe discipline (Inv env) (fun _ => MayCommit discipline (Inv env))
      (c.statements env command found) id [] data := by
  cases c with
  | approveFactRevision factRevisionId scope => exact approveFactRevision_safe factRevisionId scope
  | approveListingRevision reference revisionId note =>
    exact safe_of_onlyWrites (approveListingRevision_safe reference revisionId note)
  | prepareManifest reference locale => exact prepareManifest_safe reference locale
  | activateManifest manifestId => exact activateManifest_safe henv manifestId
  | removeExposure kind reference reason =>
    exact safe_of_onlyWrites (removeExposure_safe kind reference reason)

/-- Before anything is published, every presentation is of the approved facts. -/
theorem inv_of_isEmpty (hmanifests : data.manifests.rows = []) (hpointers : data.pointers.rows = []) :
    Inv env data := by
  refine ⟨fun m hm => ?_, fun p hp => ?_⟩
  · rw [hmanifests] at hm
    exact absurd hm List.not_mem_nil
  · rw [hpointers] at hp
    exact absurd hp List.not_mem_nil

/-- **What the commands of drafting do**: they add properties, listings and fact
revisions, and leave what is approved and what is published. -/
structure LeavesPublished (data data' : FenceData) : Prop where
  every : Extends data data'
  facts : ∀ id, KeepsFacts id data data'
  manifests : data'.manifests = data.manifests
  pointers : data'.pointers = data.pointers

/-- Drafting is harmless: a listing that is shown was there. -/
theorem LeavesPublished.harmless (h : LeavesPublished data data') (hinv : Inv env data) :
    Harmless env data data' := by
  refine ⟨⟨?_, fun pointer hpointer hactive => ?_⟩, h.every, h.facts, fun id hexposed => ?_⟩
  · rw [Prepared, h.manifests]
    exact hinv.1
  · rw [h.pointers] at hpointer
    obtain ⟨l, hl, hid, p, hp, hpid, manifest, hmanifest, hmid, revision, hrevision, happroved,
      hnames⟩ := hinv.2 pointer hpointer hactive
    obtain ⟨l', hl', hid', hproperty⟩ := h.every.listings l hl
    obtain ⟨p', hp', hpid', happroved'⟩ := h.facts l.propertyId p hp hpid
    rw [h.manifests]
    exact ⟨l', hl', hid'.trans hid, p', hp', hpid'.trans hproperty.symm, manifest, hmanifest, hmid,
      revision, h.every.factRevisions revision hrevision, happroved'.trans happroved, hnames⟩
  · obtain ⟨pointer, hpointer, hactive, l', hl', hid', hproperty⟩ := hexposed
    rw [h.pointers] at hpointer
    obtain ⟨l, hl, hid, -⟩ := hinv.2 pointer hpointer hactive
    refine ⟨pointer, hpointer, hactive, l, hl, hid, ?_⟩
    rw [← hproperty, h.every.propertyId hl hl' (hid'.trans hid.symm)]

variable (env) in
/-- **The transactions**: the commands, and any that leaves what is published. -/
def MayRun (p : Statements Unit) : Prop :=
  (∃ command found c, p = Command.statements env command found c) ∨
    OnlyWrites (fun effect => ∀ data, LeavesPublished data (effect data)) (fun _ => True) p

theorem safe_of_mayRun (henv : CollisionFree env) {p : Statements Unit} (h : MayRun env p) :
    Safe discipline (Inv env) (fun _ => MayCommit discipline (Inv env)) p id [] data := by
  obtain ⟨command, found, c, rfl⟩ | hother := h
  · exact statements_safe henv c
  · exact safe_of_onlyWrites (hother.mono fun effect heffect data hinv =>
      (heffect data).harmless hinv)

/-- The content of the sample run. -/
def sampleContent : ManifestContent where
  listingId := "listing"
  locale := .bg
  destination := .website
  generation := 0
  listingRevisionId := "revision"
  listingRevisionDigest := "digest"
  factRevisionId := "facts-1"
  factRevisionDigest := "digest of facts-1"
  localizedRevisionId := none
  localizedRevisionDigest := none
  media := .null
  disclosure := .null
  availabilityBasis := .obj [("state", .str "available"), ("basis", .null), ("confirmedAt", .null)]
  policyRevision := publicationPolicyRevision
  decisions := .obj [("factual", .str "factual"), ("editorial", .str "editorial"),
    ("language", .null), ("legalProcessClaim", .null), ("sellerInstruction", .str "instruction")]

/-- A digest without collisions: short for the text of the sample content, and any
other text itself. -/
def sampleDigest (text : List Char) : String :=
  if text = JsonText.canonicalJson sampleContent.toJson then "d" else String.ofList ('t' :: text)

theorem injective_sampleDigest : Function.Injective sampleDigest := by
  intro text text' h
  have hshort : ∀ cs : List Char, String.ofList ('t' :: cs) ≠ "d" := by
    intro cs heq
    have hchars := congrArg String.toList heq
    rw [String.toList_ofList] at hchars
    exact absurd (List.cons.inj hchars).1 (by decide)
  unfold sampleDigest at h
  split_ifs at h with htext htext' htext'
  · exact htext.trans htext'.symm
  · exact absurd h.symm (hshort text')
  · exact absurd h (hshort text)
  · exact (List.cons.inj (String.ofList_injective h)).2

/-- A runtime. -/
def sampleRuntime : Runtime where
  sha256Hex json := sampleDigest (JsonText.canonicalJson json)
  hashRequest _ := "hash"
  toISOString _ := "2026-01-01T00:00:00.000Z"
  trim s := s
  toUpperCase s := s

theorem collisionFree_sampleRuntime : CollisionFree sampleRuntime :=
  ⟨sampleDigest, injective_sampleDigest, fun _ => rfl⟩

/-- What a command of the sample run finds. -/
def sampleFindings (freshId : Uuid) : Findings where
  authority := none
  capabilities := []
  sellerInstruction := some "instruction"
  localized := none
  language := none
  mediaEligible := true
  media := ⟨.null, trivial⟩
  mediaVerified := none
  makesClaims := false
  claimReview := none
  disclosure := ⟨.null, trivial⟩
  reads := ⟨fun _ _ => true, fun _ => true⟩
  operationId := "operation"
  approvalId := freshId
  manifestId := freshId
  now := 0

/-- A revision of the property's facts. -/
def sampleFacts (id : Uuid) (revisionNumber : ℕ) : Editorial.FactRevision :=
  ⟨id, "property", revisionNumber, none, "digest of " ++ id, "price", none, ⟨.staff, "anna"⟩⟩

/-- A property with two fact revisions, and a listing of it whose revision is
approved. -/
def sampleStart : FenceData where
  properties := Table.empty.put ⟨"property", "P-1", none, 1⟩
  factRevisions := (Table.empty.put (sampleFacts "facts-1" 1)).put (sampleFacts "facts-2" 2)
  listings := Table.empty.put
    ⟨⟨"listing", "MS-1", .available, none, none, 0, 1⟩, "property", .approvedRevision, 1,
      some "revision"⟩
  revisions := Table.empty.put
    ⟨"revision", "listing", 1, "facts-1", .null, .null, .null, "digest", ⟨.staff, "anna"⟩⟩
  approvals := Table.empty.put
    ⟨"editorial", .editorial, .approved, "listing_revision", "revision", 1, "digest", .obj [],
      ⟨.staff, "anna"⟩, .listingReviewFacts, 0, none, none⟩
  manifests := Table.empty
  pointers := Table.empty

/-- A command starts. -/
def begin (c : Command) (expectedRevision : ℤ) (freshId : Uuid) (w : World FenceData Row Unit) :
    World FenceData Row Unit :=
  { w with
    sessions := Session.start (c.statements sampleRuntime ⟨⟨.staff, "anna"⟩, freshId,
      expectedRevision⟩ (sampleFindings freshId)) :: w.sessions }

theorem Reachable.begin {w : World FenceData Row Unit}
    (h : Reachable (MayRun sampleRuntime) sampleStart w) (c : Command) (expectedRevision : ℤ)
    (freshId : Uuid) :
    Reachable (MayRun sampleRuntime) sampleStart (begin c expectedRevision freshId w) :=
  h.tail (.start (.inl ⟨_, _, c, rfl⟩))

/-- Facts are approved, a manifest is prepared; then its activation and the approval
of other facts go on in turns, and the approval waits. -/
def sampleWorld : World FenceData Row Unit :=
  let approved := (List.replicate 8 0).foldl World.advance
    (begin (.approveFactRevision "facts-1" "price") 1 "factual" ⟨sampleStart, []⟩)
  let prepared := (List.replicate 16 0).foldl World.advance
    (begin (.prepareManifest "MS-1" .bg) 0 "manifest" approved)
  (List.replicate 5 0 ++ (List.replicate 12 [1, 0]).flatten).foldl World.advance
    (begin (.activateManifest "manifest") 0 "publication"
      (begin (.approveFactRevision "facts-2" "price") 2 "factual-2" prepared))

theorem reachable_sampleWorld : Reachable (MayRun sampleRuntime) sampleStart sampleWorld :=
  (Reachable.begin (Reachable.begin (Reachable.schedule (Reachable.begin (Reachable.schedule
    (Reachable.begin .refl _ _ _) _) _ _ _) _) _ _ _) _ _ _).schedule _

end FactFence
