import MsRealty.PublicationCommands

/-!
# What a publication transaction can do

The abstract side of publication: four kinds of change to the tables, each
with everything a proof about runs needs and nothing else. A transaction
*prepares* a manifest at the current generation of its listing, *activates* a
manifest of the current generation, *removes* a listing from exposure and
advances its generation, or *edits* a listing without touching its
generation. Every command that goes through is one of them
(`submit_cases`); any other leaves the data alone.
-/

namespace Publication

/-! ## Four kinds of change -/

/-- **A manifest was prepared** from a listing at its current generation. -/
structure Prepared (d d' : PublicationData) (manifest : Manifest) : Prop where
  /-- Its listing. -/
  listing : ∃ l ∈ d.listings.rows, l.id = manifest.listingId
    ∧ l.publicationGeneration = manifest.generation
  /-- Its id was free. -/
  fresh : ∀ m ∈ d.manifests.rows, m.id ≠ manifest.id
  manifests : ∀ m, m ∈ d'.manifests.rows ↔ m = manifest ∨ m ∈ d.manifests.rows
  listings : d'.listings = d.listings
  pointers : d'.pointers = d.pointers
  documents : d'.documents = d.documents

/-- **A manifest was activated** while its generation was the listing's. -/
structure Activated (d d' : PublicationData) (manifest : Manifest) (listing : Listing)
    (pointer : Pointer) : Prop where
  manifest_mem : manifest ∈ d.manifests.rows
  listing_mem : listing ∈ d.listings.rows
  listing_id : listing.id = manifest.listingId
  current : manifest.generation = listing.publicationGeneration
  destination : manifest.destination = publicDestination
  pointer_key : pointer.key = (listing.id, manifest.locale, manifest.destination)
  pointer_manifest : pointer.manifestId = manifest.id
  pointer_state : pointer.state = .active
  pointer_generation : pointer.generation = listing.publicationGeneration
  listings : d'.listings = d.listings
  manifests : d'.manifests = d.manifests
  pointers : d'.pointers = d.pointers.put pointer
  documents : d'.documents
    = d.documents.put ⟨listing.id, manifest.locale, manifest.id⟩

/-- The listing a removal leaves. -/
def advanced (listing : Listing) : Listing :=
  { listing with
    publicationGeneration := listing.publicationGeneration + 1
    version := listing.version + 1 }

/-- **A listing was removed from exposure**: its generation is one higher,
none of its pointers is active and it has no search document. -/
structure Removed (d d' : PublicationData) (listing : Listing) : Prop where
  listing_mem : listing ∈ d.listings.rows
  listings : ∀ l, l ∈ d'.listings.rows ↔ l ∈ (d.listings.put (advanced listing)).rows
  manifests : d'.manifests = d.manifests
  retired : ∀ p ∈ d'.pointers.rows, p.state = .active →
    p ∈ d.pointers.rows ∧ p.listingId ≠ listing.id
  others : ∀ p ∈ d.pointers.rows, p.listingId ≠ listing.id → p ∈ d'.pointers.rows
  documents : ∀ row ∈ d'.documents.rows, row ∈ d.documents.rows
    ∧ row.listingId ≠ listing.id

/-- **A listing was edited**, its generation left alone. -/
structure Edited (d d' : PublicationData) (listing next : Listing) : Prop where
  listing_mem : listing ∈ d.listings.rows
  next_id : next.id = listing.id
  generation : next.publicationGeneration = listing.publicationGeneration
  listings : d'.listings = d.listings.put next
  manifests : d'.manifests = d.manifests
  pointers : d'.pointers = d.pointers
  documents : d'.documents = d.documents

/-- **What a transaction can do** to the publication tables. -/
inductive DataStep (d d' : PublicationData) : Prop
  | kept (h : d' = d)
  | prepared (manifest : Manifest) (h : Prepared d d' manifest)
  | activated (manifest : Manifest) (listing : Listing) (pointer : Pointer)
      (h : Activated d d' manifest listing pointer)
  | removed (listing : Listing) (h : Removed d d' listing)
  | edited (listing next : Listing) (h : Edited d d' listing next)

/-! ## What each command does -/

variable {env : Runtime} {command : CommandEnvelope} {found : Findings}
  {context : OperationContext} {d d' : PublicationData} {v : JsonValue}

/-- The content of a manifest is about its listing, locale and generation. -/
theorem content_of_currentEligibility {listing : Listing} {locale : PublicLocale}
    {generation : ℕ} {evidence : Option Evidence} {content : ManifestContent}
    (h : (currentEligibility env listing locale generation evidence).snd = some content) :
    content.listingId = listing.id ∧ content.generation = generation := by
  cases evidence with
  | none => exact absurd h (by simp [currentEligibility])
  | some e =>
    obtain rfl := Option.some.inj h
    exact ⟨rfl, rfl⟩

/-- Eligibility is decided on the two generations it is asked about. -/
theorem input_of_currentEligibility (env : Runtime) (listing : Listing) (locale : PublicLocale)
    (generation : ℕ) (evidence : Option Evidence) :
    (currentEligibility env listing locale generation evidence).fst.manifestGeneration
        = generation
      ∧ (currentEligibility env listing locale generation evidence).fst.currentGeneration
        = listing.publicationGeneration := by
  cases evidence with
  | none => exact ⟨rfl, rfl⟩
  | some e => exact ⟨rfl, rfl⟩

/-- **Preparing** binds a manifest to the current generation. -/
theorem prepareManifest_ok {reference : String} {locale : PublicLocale}
    (h : prepareManifest env command reference locale found d = .ok (v, d')) :
    ∃ manifest, Prepared d d' manifest := by
  simp only [prepareManifest, orThrow_bind, refuse_bind, checkGeneration, require_bind,
    refuseDenied_bind] at h
  obtain ⟨listing, hfind, -, -, -, content, hcontent, -, -, manifests, hinsert, h⟩ := h
  obtain ⟨-, rfl⟩ := Prod.mk.inj (Except.ok.inj h)
  obtain ⟨hid, hgeneration⟩ := content_of_currentEligibility hcontent
  refine ⟨newManifest env content command found, ?_⟩
  exact
    { listing := ⟨listing, mem_of_findListing hfind, hid.symm, hgeneration.symm⟩
      fresh := Table.get?_eq_none.mp (Table.get?_of_insert? hinsert)
      manifests := Table.mem_insert? hinsert
      listings := rfl
      pointers := rfl
      documents := rfl }

/-- What is shown is what the tables say. -/
theorem loadPublishedListing_cases {reads : PublicReads} {listingId : Uuid}
    {locale : PublicLocale} {shown : PublishedListing}
    (h : loadPublishedListing reads d listingId locale = some shown) :
    ∃ p ∈ d.pointers.rows, p.key = (listingId, locale, publicDestination)
      ∧ p.state = .active ∧ p.generation = shown.listing.publicationGeneration
      ∧ shown.listing ∈ d.listings.rows ∧ shown.listing.id = listingId
      ∧ shown.manifest ∈ d.manifests.rows ∧ shown.manifest.id = p.manifestId
      ∧ shown.locale = locale := by
  simp only [loadPublishedListing, eligiblePublication, Option.bind_eq_bind,
    Option.bind_eq_some_iff, Option.ite_none_right_eq_some, Option.some.injEq,
    Bool.and_eq_true, decide_eq_true_eq] at h
  obtain ⟨eligible, ⟨p, hp, l₀, hl₀, -, -, ⟨⟨⟨hgeneration, -⟩, -⟩, hstate⟩, rfl⟩,
    listing, hlisting, manifest, hmanifest, rfl⟩ := h
  obtain ⟨hp, hkey⟩ := Table.get?_eq_some.mp hp
  obtain ⟨hlmem, hlid⟩ := Table.get?_eq_some.mp hlisting
  obtain ⟨hmmem, hmid⟩ := Table.get?_eq_some.mp hmanifest
  obtain rfl := Option.some.inj (hl₀.symm.trans hlisting)
  exact ⟨p, hp, hkey, hstate, hgeneration.symm, hlmem,
    hlid.trans (congrArg Prod.fst hkey), hmmem, hmid, rfl⟩

/-- **Activating** switches the pointer and the document to a manifest of the
current generation. -/
theorem activateManifest_ok {manifestId : Uuid}
    (h : activateManifest env context command manifestId found d = .ok (v, d')) :
    ∃ manifest listing pointer, manifest.id = manifestId
      ∧ Activated d d' manifest listing pointer := by
  simp only [activateManifest, orThrow_bind, refuse_bind, checkGeneration, require_bind,
    refuseDenied_bind] at h
  obtain ⟨manifest, hmanifest, listing, hlisting, -, -, hdestination, hallowed, -, -,
    shown, hshown, h⟩ := h
  obtain ⟨-, rfl⟩ := Prod.mk.inj (Except.ok.inj h)
  obtain ⟨hmmem, hmid⟩ := Table.get?_eq_some.mp hmanifest
  obtain ⟨hlmem, hlid⟩ := Table.get?_eq_some.mp hlisting
  obtain ⟨hgeneration, hcurrent⟩ := input_of_currentEligibility env listing
    manifest.locale manifest.generation found.evidence
  have hsame := (current_of_checkActivation hallowed).2
  rw [hgeneration, hcurrent] at hsame
  rw [Option.filter_eq_some_iff, decide_eq_true_eq] at hshown
  obtain ⟨-, -, -, -, -, -, hsid, -, -, hlocale⟩ := loadPublishedListing_cases hshown.1
  refine ⟨manifest, listing, activePointer manifest listing command found
    (d.pointers.get? (listing.id, manifest.locale, manifest.destination)), hmid, ?_⟩
  exact
    { manifest_mem := hmmem
      listing_mem := hlmem
      listing_id := hlid
      current := hsame
      destination := of_decide_eq_true hdestination
      pointer_key := rfl
      pointer_manifest := rfl
      pointer_state := rfl
      pointer_generation := rfl
      listings := rfl
      manifests := rfl
      pointers := rfl
      documents := by
        show d.documents.put ⟨shown.listing.id, shown.locale, shown.manifest.id⟩ = _
        rw [hsid, hlocale, hshown.2] }

/-- **The three writes of a removal** take the listing out of exposure, if
all its active pointers are among the affected. -/
theorem removed_of_removePresentation {listing : Listing} {selected : Listing → Bool}
    {affected : List Pointer} {state : PointerState} {reason : String} {now : Instant}
    {versions : ℕ} (hlisting : listing ∈ d.listings.rows)
    (hselected : ∀ l ∈ d.listings.rows, (selected l = true ↔ l = listing))
    (hstate : state ≠ .active) (hown : ∀ p ∈ affected, p.listingId = listing.id)
    (hall : ∀ p ∈ d.pointers.rows, p.listingId = listing.id → p.state = .active →
      p ∈ affected)
    (hlistings : d'.listings = (removePresentation d listing selected affected state
      reason now versions).listings)
    (hmanifests : d'.manifests = d.manifests)
    (hpointers : d'.pointers = (removePresentation d listing selected affected state
      reason now versions).pointers)
    (hdocuments : d'.documents = (removePresentation d listing selected affected state
      reason now versions).documents) :
    Removed d d' listing := by
  have hretire : ∀ p : Pointer, p.key ∈ affected.map Pointer.key → p.listingId = listing.id := by
    intro p hp
    obtain ⟨q, hq, hkey⟩ := List.mem_map.mp hp
    exact (congrArg Prod.fst hkey).symm.trans (hown q hq)
  refine
    { listing_mem := hlisting
      listings := fun l => ?_
      manifests := hmanifests
      retired := fun p hp hactive => ?_
      others := fun p hp hne => ?_
      documents := fun row hrow => ?_ }
  · dsimp only [removePresentation] at hlistings
    rw [hlistings, Table.mem_put, Table.mem_update]
    refine ⟨?_, ?_⟩
    · rintro ⟨l₀, hl₀, rfl⟩
      unfold advance
      by_cases hs : selected l₀ = true
      · rw [if_pos hs, (hselected l₀ hl₀).mp hs]
        exact Or.inl rfl
      · rw [if_neg hs]
        refine Or.inr ⟨hl₀, fun hid => hs ((hselected l₀ hl₀).mpr ?_)⟩
        exact Table.eq_of_key hl₀ hlisting hid
    · rintro (rfl | ⟨hl, hne⟩)
      · refine ⟨listing, hlisting, ?_⟩
        exact if_pos ((hselected listing hlisting).mpr rfl)
      · refine ⟨l, hl, if_neg (fun hs => hne ?_)⟩
        rw [(hselected l hl).mp hs]
        rfl
  · dsimp only [removePresentation] at hpointers
    rw [hpointers, Table.mem_update] at hp
    obtain ⟨p₀, hp₀, rfl⟩ := hp
    unfold retire at hactive ⊢
    by_cases hkey : p₀.key ∈ affected.map Pointer.key
    · rw [if_pos hkey] at hactive
      exact absurd hactive hstate
    · rw [if_neg hkey] at hactive ⊢
      refine ⟨hp₀, fun hid => hkey ?_⟩
      exact List.mem_map_of_mem (hall p₀ hp₀ hid hactive)
  · dsimp only [removePresentation] at hpointers
    rw [hpointers, Table.mem_update]
    refine ⟨p, hp, if_neg (fun hkey => hne ?_)⟩
    exact hretire p hkey
  · rw [hdocuments] at hrow
    obtain ⟨hrow, hne⟩ := Table.mem_keep.mp hrow
    exact ⟨hrow, of_decide_eq_true hne⟩

/-- Every active pointer of a listing is in the plan of its removal. -/
theorem mem_affectedBy {kind : Removal} {pointers : List Pointer} {generation : ℕ}
    {p : Pointer} (hp : p ∈ pointers) (hactive : p.state = .active) :
    dependency p ∈ affectedBy kind pointers generation := by
  have hmem : dependency p ∈ pointers.map dependency := List.mem_map_of_mem hp
  cases kind with
  | restrict => exact mem_restrict.mpr ⟨hmem, hactive, rfl⟩
  | withdraw =>
    refine mem_withdraw.mpr ⟨hmem, ?_⟩
    rw [show (dependency p).state = p.state from rfl, hactive]
    decide

/-- **Restricting and withdrawing** remove the listing from exposure. -/
theorem removeExposure_ok {kind : Removal} {reference reason : String}
    (h : removeExposure env context kind command reference reason found d
      = .ok (v, d')) :
    ∃ listing, findListing d (env.toUpperCase (env.trim reference)) = some listing
      ∧ Removed d d' listing := by
  simp only [removeExposure, orThrow_bind, refuse_bind, checkGeneration,
    require_bind] at h
  obtain ⟨-, listing, hfind, -, -, -, h⟩ := h
  obtain ⟨-, rfl⟩ := Prod.mk.inj (Except.ok.inj h)
  have hlisting := mem_of_findListing hfind
  refine ⟨listing, hfind, removed_of_removePresentation hlisting (fun l hl => ?_) ?_
    (fun p hp => ?_) (fun p hp hid hactive => ?_) rfl rfl rfl rfl⟩
  · rw [Bool.and_eq_true, decide_eq_true_eq, decide_eq_true_eq]
    refine ⟨fun h => Table.eq_of_key hl hlisting h.1, ?_⟩
    rintro rfl
    exact ⟨rfl, rfl⟩
  · cases kind <;> decide
  · exact of_decide_eq_true (List.mem_filter.mp (List.mem_filter.mp hp).1).2
  · have hown : p ∈ d.pointers.rows.filter (fun p => p.listingId = listing.id) :=
      List.mem_filter.mpr ⟨hp, decide_eq_true hid⟩
    refine List.mem_filter.mpr ⟨hown, List.any_eq_true.mpr ⟨_, mem_affectedBy hown hactive, ?_⟩⟩
    simp [dependency]

/-- **A new seller instruction** removes the listing from exposure. -/
theorem recordSellerInstruction_ok {reference : String}
    (h : recordSellerInstruction env context command reference found d
      = .ok (v, d')) :
    ∃ listing, findListing d (env.toUpperCase reference) = some listing
      ∧ Removed d d' listing := by
  simp only [recordSellerInstruction, orThrow_bind, refuse_bind, require_bind] at h
  obtain ⟨listing, hfind, -, -, -, -, h⟩ := h
  obtain ⟨-, rfl⟩ := Prod.mk.inj (Except.ok.inj h)
  have hlisting := mem_of_findListing hfind
  refine ⟨listing, hfind, removed_of_removePresentation hlisting (fun l hl => ?_)
    (by decide) (fun p hp => ?_) (fun p hp hid hactive => ?_) rfl rfl rfl rfl⟩
  · rw [decide_eq_true_eq]
    refine ⟨fun h => Table.eq_of_key hl hlisting h, ?_⟩
    rintro rfl
    rfl
  · have h := (List.mem_filter.mp hp).2
    rw [Bool.and_eq_true] at h
    exact of_decide_eq_true h.1
  · refine List.mem_filter.mpr ⟨hp, ?_⟩
    rw [Bool.and_eq_true]
    exact ⟨decide_eq_true hid, decide_eq_true hactive⟩

end Publication
