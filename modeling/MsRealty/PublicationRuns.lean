import MsRealty.PublicationSteps

/-!
# What is public is of the current generation

Runs of publication and seller-instruction commands on any number of listings
and locales, in any order, with any retries and any edits of the listings in
between. `Inv` says what the tables promise: an active pointer names a
manifest of its own listing and locale whose generation is the listing's, and
a search document belongs to an active pointer and carries its manifest.

The generation of a listing never decreases, so what a removal left behind
stays behind: once the listing is past a generation, no manifest of that
generation can be active again.
-/

namespace Publication

open Runs

/-- **An event of a run**: a command, or an edit of a listing by any other
command, none of which touches the generation. -/
inductive Event where
  | submit (c : Command) (command : CommandEnvelope) (found : Findings)
      (operation : OperationFindings)
  | edit (listingId : Uuid) (commercialState : CommercialState)
      (availabilityBasis : Option String) (availabilityConfirmedAt : Option Instant)
      (version : ℕ)

/-- An edit of a listing. -/
def editListing (d : PublicationData) (listingId : Uuid)
    (commercialState : CommercialState) (availabilityBasis : Option String)
    (availabilityConfirmedAt : Option Instant) (version : ℕ) : PublicationData :=
  match d.listings.get? listingId with
  | none => d
  | some listing =>
    { d with
      listings := d.listings.put
        { listing with
          commercialState := commercialState
          availabilityBasis := availabilityBasis
          availabilityConfirmedAt := availabilityConfirmedAt
          version := version } }

variable (env : Runtime)

/-- **One transaction of the run.** -/
def step (db : Db PublicationData) :
    Event → Db PublicationData × Option (Answer JsonValue)
  | .submit c command found operation =>
    let r := submit env db c command found operation
    (r.fst, some r.snd)
  | .edit listingId commercialState availabilityBasis availabilityConfirmedAt version =>
    ({ db with
        data := editListing db.data listingId commercialState availabilityBasis
          availabilityConfirmedAt version },
      none)

/-- A moment of a run of publication commands. -/
abbrev PublicationMoment :=
  Moment (Db PublicationData) Event (Option (Answer JsonValue))

/-- Whether an answer is a success that is not replayed. -/
def freshSuccess : Option (Answer JsonValue) → Bool
  | some (.success value) => !value.replayed
  | _ => false

/-- The listing a command removes from exposure, if it is a removal. -/
def Command.removes (data : PublicationData) : Command → Option Listing
  | .removeExposure _ reference _ =>
    findListing data (env.toUpperCase (env.trim reference))
  | .recordSellerInstruction reference _ => findListing data (env.toUpperCase reference)
  | _ => none

/-- **The listing a moment removed from exposure**, as it was before: a
restriction, a withdrawal or a new seller instruction that committed. -/
def removedAt (m : PublicationMoment) : Option Listing :=
  match m.event with
  | .submit c _ _ _ => if freshSuccess m.output then c.removes env m.before.data else none
  | .edit _ _ _ _ _ => none

/-! ## What a step does -/

variable {env}

/-- The operation types of the commands. -/
def operationTypes : List String :=
  ["publication.manifest.prepare", "publication.activate", "publication.restrict",
    "publication.withdraw", "inventory.instruction.record"]

theorem type_mem_operationTypes (c : Command) : c.type ∈ operationTypes := by
  cases c with
  | removeExposure kind _ _ => cases kind <;> simp [operationTypes, Command.type, Removal.action]
  | _ => simp [operationTypes, Command.type]

theorem not_butler_operationTypes :
    ∀ type ∈ operationTypes, startsWith type "butler." = false := by decide

/-- No command of publication is an automated attempt. -/
theorem not_butler {c : Command} {command : CommandEnvelope} {found : Findings}
    {operation : OperationFindings} (hstaff : command.actor.kind = .staff) :
    isButlerOperation (c.call env command found operation).input = false := by
  have htype : startsWith c.type "butler." = false :=
    not_butler_operationTypes c.type (type_mem_operationTypes c)
  simp [isButlerOperation, Command.call, hstaff, htype]

/-- The transaction of a command changes the tables in one of four ways. -/
theorem run_cases {c : Command} {command : CommandEnvelope} {found : Findings}
    {context : OperationContext} {d d' : PublicationData} {v : JsonValue}
    (h : c.run env command found context d = .ok (v, d')) :
    DataStep d d' ∧ ∀ listing, c.removes env d = some listing → Removed d d' listing := by
  cases c with
  | prepareManifest reference locale =>
    obtain ⟨manifest, hstep⟩ := prepareManifest_ok h
    exact ⟨.prepared manifest hstep, fun _ hr => absurd hr (by simp [Command.removes])⟩
  | activateManifest manifestId =>
    obtain ⟨manifest, listing, pointer, -, hstep⟩ := activateManifest_ok h
    exact ⟨.activated manifest listing pointer hstep,
      fun _ hr => absurd hr (by simp [Command.removes])⟩
  | removeExposure kind reference reason =>
    obtain ⟨listing, hfind, hstep⟩ := removeExposure_ok h
    refine ⟨.removed listing hstep, fun listing' hr => ?_⟩
    obtain rfl := Option.some.inj (hfind.symm.trans hr)
    exact hstep
  | recordSellerInstruction reference input =>
    obtain ⟨listing, hfind, hstep⟩ := recordSellerInstruction_ok h
    refine ⟨.removed listing hstep, fun listing' hr => ?_⟩
    obtain rfl := Option.some.inj (hfind.symm.trans hr)
    exact hstep

/-- **A submitted command** leaves the data alone and answers no fresh
success, or its transaction went through. -/
theorem submit_cases (env : Runtime) (db : Db PublicationData) (c : Command)
    (command : CommandEnvelope)
    (found : Findings) (operation : OperationFindings) :
    ((submit env db c command found operation).fst.data = db.data
        ∧ freshSuccess (some (submit env db c command found operation).snd) = false)
      ∨ ∃ v context, c.run env command found context db.data
          = .ok (v, (submit env db c command found operation).fst.data) := by
  unfold submit
  split_ifs with hstaff
  · exact Or.inl ⟨rfl, rfl⟩
  · split
    · exact Or.inl ⟨rfl, rfl⟩
    · obtain ⟨hdata, hanswer⟩ | ⟨value, hfn⟩ := Operations.runOperation_data some db
        (c.call env command found operation) (not_butler (not_not.mp hstaff))
      · refine Or.inl ⟨hdata, ?_⟩
        cases hs : (runOperation some db (c.call env command found operation)).snd with
        | success value => simp [freshSuccess, hanswer value hs]
        | failed error => rfl
        | rolledBack error => rfl
      · obtain ⟨v, -, hrun⟩ := effect_returned hfn
        exact Or.inr ⟨v, _, hrun⟩

/-- **Every step changes the tables in one of four ways**, or not at all. -/
theorem step_data (db : Db PublicationData) (e : Event) :
    DataStep db.data (step env db e).fst.data := by
  cases e with
  | submit c command found operation =>
    obtain ⟨hdata, -⟩ | ⟨v, context, hrun⟩ := submit_cases env db c command
      found operation
    · exact .kept hdata
    · exact (run_cases hrun).1
  | edit listingId commercialState availabilityBasis availabilityConfirmedAt version =>
    dsimp only [step, editListing]
    cases hget : db.data.listings.get? listingId with
    | none => exact .kept rfl
    | some listing =>
      refine .edited listing _ ⟨(Table.get?_eq_some.mp hget).1, ?_, ?_, rfl, rfl, rfl, rfl⟩
      · rfl
      · rfl

/-- A moment that removed a listing is a removal of that listing. -/
theorem removed_of_removedAt {db : Db PublicationData} {e : Event} {listing : Listing}
    (h : removedAt env (moment (step env) db e) = some listing) :
    Removed db.data (step env db e).fst.data listing := by
  cases e with
  | submit c command found operation =>
    obtain ⟨hfresh, hremoves⟩ := Option.ite_none_right_eq_some.mp h
    obtain ⟨-, hno⟩ | ⟨v, context, hrun⟩ := submit_cases env db c command
      found operation
    · exact absurd (hfresh.symm.trans hno) (by simp)
    · exact (run_cases hrun).2 listing hremoves
  | edit _ _ _ _ _ => exact absurd h (by simp [removedAt, moment])

/-! ## The invariant -/

/-- **A pointer names a manifest of its own listing and locale**, of the
listing's current generation. -/
def NamesCurrent (d : PublicationData) (p : Pointer) : Prop :=
  ∃ m ∈ d.manifests.rows, m.id = p.manifestId ∧ m.listingId = p.listingId
    ∧ m.locale = p.locale ∧ ∃ l ∈ d.listings.rows, l.id = p.listingId
      ∧ m.generation = l.publicationGeneration ∧ p.generation = l.publicationGeneration

/-- **A search document belongs to an active pointer** of its listing and
locale, and carries its manifest. -/
def Shows (d : PublicationData) (row : SearchRow) : Prop :=
  ∃ p ∈ d.pointers.rows, p.state = .active ∧ p.manifestId = row.manifestId
    ∧ p.key = (row.listingId, row.locale, publicDestination)

/-- **What the publication tables promise.** -/
structure Inv (d : PublicationData) : Prop where
  /-- Active pointers are on the website and name current manifests. -/
  pointer : ∀ p ∈ d.pointers.rows, p.state = .active →
    p.destination = publicDestination ∧ NamesCurrent d p
  document : ∀ row ∈ d.documents.rows, Shows d row

variable {d d' : PublicationData}

/-- A manifest is never changed or deleted. -/
theorem manifests_kept (hstep : DataStep d d') :
    ∀ m ∈ d.manifests.rows, m ∈ d'.manifests.rows := by
  intro m hm
  cases hstep with
  | kept h => exact h ▸ hm
  | prepared manifest h => exact (h.manifests m).mpr (Or.inr hm)
  | activated _ _ _ h => exact h.manifests ▸ hm
  | removed _ h => exact h.manifests ▸ hm
  | edited _ _ h => exact h.manifests ▸ hm

/-- A pointer that names a current manifest still does, if its listing keeps
its generation. -/
theorem NamesCurrent.mono {p : Pointer} (h : NamesCurrent d p)
    (hmanifests : ∀ m ∈ d.manifests.rows, m ∈ d'.manifests.rows)
    (hlistings : ∀ l ∈ d.listings.rows, l.id = p.listingId →
      ∃ l' ∈ d'.listings.rows, l'.id = l.id
        ∧ l'.publicationGeneration = l.publicationGeneration) :
    NamesCurrent d' p := by
  obtain ⟨m, hm, hid, hlisting, hlocale, l, hl, hlid, hgeneration, hpointer⟩ := h
  obtain ⟨l', hl', hid', hsame⟩ := hlistings l hl hlid
  exact ⟨m, hmanifests m hm, hid, hlisting, hlocale, l', hl', hid'.trans hlid,
    hgeneration.trans hsame.symm, hpointer.trans hsame.symm⟩

theorem inv_prepared {manifest : Manifest} (h : Prepared d d' manifest) (hi : Inv d) :
    Inv d' := by
  refine ⟨fun p hp hactive => ?_, fun row hrow => ?_⟩
  · rw [h.pointers] at hp
    obtain ⟨hdestination, hnames⟩ := hi.pointer p hp hactive
    refine ⟨hdestination, hnames.mono (manifests_kept (.prepared manifest h)) ?_⟩
    rw [h.listings]
    exact fun l hl _ => ⟨l, hl, rfl, rfl⟩
  · rw [h.documents] at hrow
    rw [Shows, h.pointers]
    exact hi.document row hrow

theorem inv_activated {manifest : Manifest} {listing : Listing} {pointer : Pointer}
    (h : Activated d d' manifest listing pointer) (hi : Inv d) : Inv d' := by
  have hkey := h.pointer_key
  rw [h.destination] at hkey
  obtain ⟨hplisting, hplocale, hpdestination⟩ : pointer.listingId = listing.id
      ∧ pointer.locale = manifest.locale ∧ pointer.destination = publicDestination := by
    simpa [Pointer.key] using hkey
  refine ⟨fun p hp hactive => ?_, fun row hrow => ?_⟩
  · rw [h.pointers, Table.mem_put] at hp
    rw [NamesCurrent, h.manifests, h.listings]
    obtain rfl | ⟨hp, -⟩ := hp
    · refine ⟨hpdestination, manifest, h.manifest_mem, h.pointer_manifest.symm, ?_, ?_,
        listing, h.listing_mem, hplisting.symm, h.current, h.pointer_generation⟩
      · exact h.listing_id.symm.trans hplisting.symm
      · exact hplocale.symm
    · exact hi.pointer p hp hactive
  · rw [h.documents, Table.mem_put] at hrow
    rw [Shows, h.pointers]
    obtain rfl | ⟨hrow, hne⟩ := hrow
    · exact ⟨pointer, Table.mem_put.mpr (Or.inl rfl), h.pointer_state,
        h.pointer_manifest, hkey⟩
    · obtain ⟨p, hp, hactive, hmanifest, hpkey⟩ := hi.document row hrow
      refine ⟨p, Table.mem_put.mpr (Or.inr ⟨hp, fun hsame => hne ?_⟩), hactive,
        hmanifest, hpkey⟩
      rw [hpkey, hkey] at hsame
      simpa [SearchRow.key] using hsame

theorem inv_removed {listing : Listing} (h : Removed d d' listing) (hi : Inv d) :
    Inv d' := by
  refine ⟨fun p hp hactive => ?_, fun row hrow => ?_⟩
  · obtain ⟨hp, hne⟩ := h.retired p hp hactive
    obtain ⟨hdestination, hnames⟩ := hi.pointer p hp hactive
    refine ⟨hdestination, hnames.mono (manifests_kept (.removed listing h)) ?_⟩
    intro l hl hlid
    refine ⟨l, (h.listings l).mpr (Table.mem_put.mpr (Or.inr ⟨hl, ?_⟩)), rfl, rfl⟩
    show l.id ≠ listing.id
    rw [hlid]
    exact hne
  · obtain ⟨hrow, hne⟩ := h.documents row hrow
    obtain ⟨p, hp, hactive, hmanifest, hkey⟩ := hi.document row hrow
    refine ⟨p, h.others p hp ?_, hactive, hmanifest, hkey⟩
    rw [show p.listingId = row.listingId from congrArg Prod.fst hkey]
    exact hne

theorem inv_edited {listing next : Listing} (h : Edited d d' listing next)
    (hi : Inv d) : Inv d' := by
  refine ⟨fun p hp hactive => ?_, fun row hrow => ?_⟩
  · rw [h.pointers] at hp
    obtain ⟨hdestination, hnames⟩ := hi.pointer p hp hactive
    refine ⟨hdestination, hnames.mono (manifests_kept (.edited listing next h)) ?_⟩
    intro l hl _
    rw [h.listings]
    by_cases hid : l.id = listing.id
    · obtain rfl := Table.eq_of_key hl h.listing_mem hid
      exact ⟨next, Table.mem_put.mpr (Or.inl rfl), h.next_id, h.generation⟩
    · refine ⟨l, Table.mem_put.mpr (Or.inr ⟨hl, ?_⟩), rfl, rfl⟩
      rw [h.next_id]
      exact hid
  · rw [h.documents] at hrow
    rw [Shows, h.pointers]
    exact hi.document row hrow

/-- **Every transaction keeps the promises.** -/
theorem inv_step (hstep : DataStep d d') (hi : Inv d) : Inv d' := by
  cases hstep with
  | kept h => exact h ▸ hi
  | prepared _ h => exact inv_prepared h hi
  | activated _ _ _ h => exact inv_activated h hi
  | removed _ h => exact inv_removed h hi
  | edited _ _ h => exact inv_edited h hi

theorem keeps_inv (env : Runtime) :
    Keeps (step env) (fun _ => True) (fun db => Inv db.data) :=
  fun db e _ hi => inv_step (step_data db e) hi

/-! ## What is public -/

/-- Nothing was ever prepared or published; the listings are any listings. -/
def Unpublished (d : PublicationData) : Prop :=
  d.manifests.rows = [] ∧ d.pointers.rows = [] ∧ d.documents.rows = []

theorem inv_of_unpublished (h : Unpublished d) : Inv d := by
  obtain ⟨-, hpointers, hdocuments⟩ := h
  refine ⟨fun p hp => ?_, fun row hrow => ?_⟩
  · rw [hpointers] at hp
    exact absurd hp List.not_mem_nil
  · rw [hdocuments] at hrow
    exact absurd hrow List.not_mem_nil

/-- **What a presentation is assembled from**: a manifest of the listing and
the locale that were asked for, of the listing's current generation. -/
def PresentsCurrent (listingId : Uuid) (locale : PublicLocale)
    (shown : PublishedListing) : Prop :=
  shown.listing.id = listingId ∧ shown.manifest.listingId = listingId
    ∧ shown.manifest.locale = locale
    ∧ shown.manifest.generation = shown.listing.publicationGeneration

/-- **The public side of the publication tables**, as a reader sees it. -/
structure PublicIsCurrent (d : PublicationData) : Prop where
  /-- Active pointers name current manifests of their listing and locale. -/
  pointer : ∀ p ∈ d.pointers.rows, p.state = .active → NamesCurrent d p
  /-- Search documents belong to active pointers and carry their manifest. -/
  document : ∀ row ∈ d.documents.rows, Shows d row
  /-- Whatever is presented is presented from a current manifest. -/
  presented : ∀ reads listingId locale shown,
    loadPublishedListing reads d listingId locale = some shown →
      PresentsCurrent listingId locale shown

/-- What is presented is what an active pointer names. -/
theorem presentsCurrent_of_inv (hi : Inv d) {reads : PublicReads} {listingId : Uuid}
    {locale : PublicLocale} {shown : PublishedListing}
    (h : loadPublishedListing reads d listingId locale = some shown) :
    PresentsCurrent listingId locale shown := by
  obtain ⟨p, hp, hkey, hactive, -, hlisting, hlid, hmanifest, hmid, -⟩ :=
    loadPublishedListing_cases h
  obtain ⟨-, m, hm, hid, hmlisting, hmlocale, l, hl, hllid, hgeneration, -⟩ :=
    hi.pointer p hp hactive
  obtain rfl := Table.eq_of_key hmanifest hm (hmid.trans hid.symm)
  have hplisting : p.listingId = listingId := congrArg Prod.fst hkey
  have hplocale : p.locale = locale := congrArg (Prod.fst ∘ Prod.snd) hkey
  obtain rfl := Table.eq_of_key hlisting hl
    (hlid.trans (hplisting.symm.trans hllid.symm))
  exact ⟨hlid, hmlisting.trans hplisting, hmlocale.trans hplocale, hgeneration⟩

/-! ## A run -/

/-- A runtime. -/
def sampleRuntime : Runtime where
  sha256Hex := fun _ => "digest"
  hashRequest := fun _ => "hash"
  toISOString := fun _ => "2026-01-01T00:00:00.000Z"
  trim := fun s => s
  toUpperCase := fun s => s

/-- Evidence for everything a publication needs. -/
def sampleEvidence : Evidence where
  listingRevisionId := "revision"
  listingRevisionDigest := "revision digest"
  factRevisionId := "facts"
  factRevisionDigest := "facts digest"
  factual := some "approval-1"
  editorial := some "approval-2"
  sellerInstruction := some "instruction"
  localized := none
  language := none
  mediaEligible := true
  media := .arr []
  makesClaims := false
  claimReview := none
  disclosure := .null

/-- What a call of the sample run finds. -/
def sampleFindings (freshId : Uuid) : Findings where
  early := none
  authority := none
  evidence := some sampleEvidence
  media := none
  review := none
  reads := ⟨fun _ _ => true, fun _ => true⟩
  freshId := freshId
  instructionReference := "SI-1"
  now := 0

/-- A command of the sample run, at an expected generation. -/
def sampleSubmit (key : String) (expectedRevision : ℤ) (freshId : Uuid) (c : Command) :
    Event :=
  .submit c ⟨⟨.staff, "anna"⟩, key, expectedRevision⟩ (sampleFindings freshId)
    ⟨true, "operation-" ++ key, 0⟩

/-- One listing, nothing published. -/
def sampleDb : Db PublicationData where
  operations := ⟨[], List.nodup_nil, List.nodup_nil⟩
  audit := []
  data :=
    { listings := Table.empty.put ⟨"listing", "MS-1", .available, none, none, 0, 1⟩
      manifests := Table.empty
      pointers := Table.empty
      documents := Table.empty
      deliveries := []
      outbox := [] }

/-- A publication, its restriction, a late activation of what was restricted,
and a new publication. -/
def sampleEvents : List Event :=
  [sampleSubmit "1" 0 "manifest-1" (.prepareManifest "MS-1" .bg),
    sampleSubmit "2" 0 "approval-3" (.activateManifest "manifest-1"),
    sampleSubmit "3" 0 "none" (.removeExposure .restrict "MS-1" "wrong price"),
    sampleSubmit "4" 1 "approval-4" (.activateManifest "manifest-1"),
    sampleSubmit "5" 1 "manifest-2" (.prepareManifest "MS-1" .bg),
    sampleSubmit "6" 1 "approval-5" (.activateManifest "manifest-2")]

example : (history (step sampleRuntime) sampleDb sampleEvents).map
    (fun m => freshSuccess m.output) = [true, true, true, false, true, true] := by
  decide +kernel

/-- **In every reachable state what is public is current.** From tables
without publications, over any run of commands and edits: every active
pointer names a manifest of its own listing and locale whose generation is
the listing's, every search document belongs to an active pointer and carries
its manifest, and no presentation is assembled from an older manifest. -/
theorem publicIsCurrent_of_run (env : Runtime) (db : Db PublicationData)
    (events : List Event) (hstart : Unpublished db.data) :
    PublicIsCurrent (final (step env) db events).data := by
  have hi : Inv (final (step env) db events).data :=
    final_invariant (keeps_inv env) (fun _ _ => trivial) (inv_of_unpublished hstart)
  exact ⟨fun p hp hactive => (hi.pointer p hp hactive).2, hi.document,
    fun _ _ _ _ h => presentsCurrent_of_inv hi h⟩

/-- The sample run ends with the second manifest shown. -/
theorem publicIsCurrent_of_sampleRun :
    (final (step sampleRuntime) sampleDb sampleEvents).data.documents.rows
        = [⟨"listing", .bg, "manifest-2"⟩]
      ∧ PublicIsCurrent (final (step sampleRuntime) sampleDb sampleEvents).data :=
  ⟨by decide +kernel,
    publicIsCurrent_of_run sampleRuntime sampleDb sampleEvents ⟨rfl, rfl, rfl⟩⟩

/-! ## Generations do not come back -/

/-- **Generations only grow**: every listing is still there, at its old
generation or a later one. -/
def Grows (d d' : PublicationData) : Prop :=
  ∀ l ∈ d.listings.rows, ∃ l' ∈ d'.listings.rows, l'.id = l.id
    ∧ l.publicationGeneration ≤ l'.publicationGeneration

theorem Grows.trans {d d' d'' : PublicationData} (h : Grows d d') (h' : Grows d' d'') :
    Grows d d'' := by
  intro l hl
  obtain ⟨l', hl', hid, hle⟩ := h l hl
  obtain ⟨l'', hl'', hid', hle'⟩ := h' l' hl'
  exact ⟨l'', hl'', hid'.trans hid, hle.trans hle'⟩

/-- A row that replaces a listing at a generation that is not lower. -/
theorem grows_put {listing : Listing} (next : Listing) (hlisting : listing ∈ d.listings.rows)
    (hid : next.id = listing.id)
    (hle : listing.publicationGeneration ≤ next.publicationGeneration)
    (h : ∀ l, l ∈ d'.listings.rows ↔ l ∈ (d.listings.put next).rows) : Grows d d' := by
  intro l hl
  by_cases hsame : l.id = listing.id
  · obtain rfl := Table.eq_of_key hl hlisting hsame
    exact ⟨next, (h next).mpr (Table.mem_put.mpr (Or.inl rfl)), hid, hle⟩
  · refine ⟨l, (h l).mpr (Table.mem_put.mpr (Or.inr ⟨hl, ?_⟩)), rfl, le_rfl⟩
    rw [hid]
    exact hsame

/-- **No transaction lowers a generation.** -/
theorem grows_step (hstep : DataStep d d') : Grows d d' := by
  cases hstep with
  | kept h => exact fun l hl => ⟨l, h ▸ hl, rfl, le_rfl⟩
  | prepared _ h => exact fun l hl => ⟨l, h.listings ▸ hl, rfl, le_rfl⟩
  | activated _ _ _ h => exact fun l hl => ⟨l, h.listings ▸ hl, rfl, le_rfl⟩
  | removed listing h => 
    have hle : listing.publicationGeneration ≤ (advanced listing).publicationGeneration :=
      Nat.le_succ _
    exact grows_put (advanced listing) h.listing_mem rfl hle h.listings
  | edited listing next h =>
    refine grows_put next h.listing_mem h.next_id h.generation.ge (fun l => ?_)
    rw [h.listings]

/-- A new manifest is of the generation its listing has when it is prepared. -/
theorem prepared_of_step (hstep : DataStep d d') {manifest : Manifest}
    (hmanifest : manifest ∈ d'.manifests.rows) :
    manifest ∈ d.manifests.rows ∨ ∃ l ∈ d.listings.rows, l.id = manifest.listingId
      ∧ l.publicationGeneration = manifest.generation := by
  cases hstep with
  | kept h => exact Or.inl (h ▸ hmanifest)
  | prepared new h =>
    obtain rfl | hold := (h.manifests manifest).mp hmanifest
    · exact Or.inr h.listing
    · exact Or.inl hold
  | activated _ _ _ h => exact Or.inl (h.manifests ▸ hmanifest)
  | removed _ h => exact Or.inl (h.manifests ▸ hmanifest)
  | edited _ _ h => exact Or.inl (h.manifests ▸ hmanifest)

/-- **The listing is past a generation.** -/
def Past (listingId : Uuid) (generation : ℕ) (d : PublicationData) : Prop :=
  ∃ l ∈ d.listings.rows, l.id = listingId ∧ generation < l.publicationGeneration

theorem past_step {listingId : Uuid} {generation : ℕ} (hstep : DataStep d d')
    (h : Past listingId generation d) : Past listingId generation d' := by
  obtain ⟨l, hl, hid, hlt⟩ := h
  obtain ⟨l', hl', hid', hle⟩ := grows_step hstep l hl
  exact ⟨l', hl', hid'.trans hid, hlt.trans_le hle⟩

/-- **A removal leaves its listing past the generation it met.** -/
theorem past_of_removed {listing : Listing} (h : Removed d d' listing) :
    Past listing.id listing.publicationGeneration d' :=
  ⟨advanced listing, (h.listings _).mpr (Table.mem_put.mpr (Or.inl rfl)), rfl,
    Nat.lt_succ_self _⟩

/-- **Nothing of a generation is public any more**, nor of any before it. -/
structure Superseded (listingId : Uuid) (generation : ℕ) (d : PublicationData) :
    Prop where
  /-- No active pointer names such a manifest. -/
  pointer : ∀ p ∈ d.pointers.rows, p.listingId = listingId → p.state = .active →
    ∀ m ∈ d.manifests.rows, m.id = p.manifestId → generation < m.generation
  /-- No search document carries one. -/
  document : ∀ row ∈ d.documents.rows, row.listingId = listingId →
    ∀ m ∈ d.manifests.rows, m.id = row.manifestId → generation < m.generation
  /-- None is presented, whatever the presentation reads. -/
  presented : ∀ reads locale shown,
    loadPublishedListing reads d listingId locale = some shown →
      generation < shown.manifest.generation
  /-- A delivery queued at that generation or before is cancelled. -/
  delivery : ∀ l ∈ d.listings.rows, l.id = listingId → ∀ job pointer,
    job.generation ≤ generation →
      fenceDelivery job l.publicationGeneration pointer
        = .denied "generation_superseded"

theorem superseded_of_past {listingId : Uuid} {generation : ℕ} (hi : Inv d)
    (hpast : Past listingId generation d) : Superseded listingId generation d := by
  obtain ⟨l, hl, hlid, hlt⟩ := hpast
  have hpointer : ∀ p ∈ d.pointers.rows, p.listingId = listingId → p.state = .active →
      ∀ m ∈ d.manifests.rows, m.id = p.manifestId → generation < m.generation := by
    intro p hp hplisting hactive m hm hmid
    obtain ⟨-, m', hm', hmid', -, -, l', hl', hlid', hgeneration, -⟩ :=
      hi.pointer p hp hactive
    obtain rfl := Table.eq_of_key hm hm' (hmid.trans hmid'.symm)
    obtain rfl := Table.eq_of_key hl' hl (hlid'.trans (hplisting.trans hlid.symm))
    rw [hgeneration]
    exact hlt
  refine ⟨hpointer, fun row hrow hlisting m hm hmid => ?_, fun reads locale shown h => ?_,
    fun l' hl' hlid' job pointer hjob => fenceDelivery_superseded ?_ pointer⟩
  · obtain ⟨p, hp, hactive, hmanifest, hkey⟩ := hi.document row hrow
    have hplisting : p.listingId = row.listingId := congrArg Prod.fst hkey
    exact hpointer p hp (hplisting.trans hlisting) hactive m hm
      (hmid.trans hmanifest.symm)
  · obtain ⟨-, -, -, -, -, hmem, hid, -⟩ := loadPublishedListing_cases h
    obtain rfl := Table.eq_of_key hmem hl (hid.trans hlid.symm)
    rw [(presentsCurrent_of_inv hi h).2.2.2]
    exact hlt
  · obtain rfl := Table.eq_of_key hl' hl (hlid'.trans hlid.symm)
    exact (hjob.trans_lt hlt).ne

/-- **The law of no resurrection**, over the history of a run. -/
structure NoResurrection (env : Runtime) (moments : List PublicationMoment) : Prop where
  /-- No moment lowers a generation. -/
  grows : ∀ m ∈ moments, Grows m.before.data m.after.data
  /-- Nor do any two moments together. -/
  grows_later : moments.Pairwise (fun m m' => Grows m.before.data m'.after.data)
  /-- A manifest carries the generation its listing had when it was prepared. -/
  prepared : ∀ m ∈ moments, ∀ manifest ∈ m.after.data.manifests.rows,
    manifest ∈ m.before.data.manifests.rows
      ∨ ∃ l ∈ m.before.data.listings.rows, l.id = manifest.listingId
        ∧ l.publicationGeneration = manifest.generation
  /-- It is never changed. -/
  unchanged : ∀ m ∈ moments, ∀ manifest ∈ m.before.data.manifests.rows,
    manifest ∈ m.after.data.manifests.rows
  /-- When a removal commits, what it met is superseded … -/
  removal : ∀ m ∈ moments, ∀ listing, removedAt env m = some listing →
    Superseded listing.id listing.publicationGeneration m.after.data
  /-- … and it stays so at every later moment. -/
  removal_later : moments.Pairwise (fun m m' => ∀ listing,
    removedAt env m = some listing →
      Superseded listing.id listing.publicationGeneration m'.after.data)

/-- **No resurrection.** Over any run of commands and edits from tables
without publications the generation of a listing never decreases, and once a
restriction, a withdrawal or a new seller instruction has committed at
generation `g`, no manifest prepared at `g` or before is active or presented
at any later point of the run. -/
theorem noResurrection_of_run (env : Runtime) (db : Db PublicationData)
    (events : List Event) (hstart : Unpublished db.data) :
    NoResurrection env (history (step env) db events) := by
  have hinit : Inv db.data := inv_of_unpublished hstart
  have hall : ∀ e ∈ events, (fun _ => True) e := fun _ _ => trivial
  refine
    { grows := history_forall (keeps_inv env)
        (fun db e _ _ => grows_step (step_data db e)) hall hinit
      grows_later := history_pairwise (keeps_inv env)
        (Q := fun (m : PublicationMoment) db => Grows m.before.data db.data)
        (fun db e _ _ => grows_step (step_data db e))
        (fun m db e _ _ hQ => hQ.trans (grows_step (step_data db e)))
        (fun m db e _ _ hQ => hQ.trans (grows_step (step_data db e))) hall hinit
      prepared := history_forall (keeps_inv env)
        (fun db e _ _ manifest hm => prepared_of_step (step_data db e) hm) hall hinit
      unchanged := history_forall (keeps_inv env)
        (fun db e _ _ => manifests_kept (step_data db e)) hall hinit
      removal := history_forall (keeps_inv env) (fun db e _ hi listing hr => ?_)
        hall hinit
      removal_later := history_pairwise (keeps_inv env)
        (Q := fun (m : PublicationMoment) db => ∀ listing, removedAt env m = some listing →
          Past listing.id listing.publicationGeneration db.data)
        (fun db e _ _ listing hr => past_of_removed (removed_of_removedAt hr))
        (fun m db e _ _ hQ listing hr => past_step (step_data db e) (hQ listing hr))
        (fun m db e _ hi hQ listing hr => ?_) hall hinit }
  · exact superseded_of_past (inv_step (step_data db e) hi)
      (past_of_removed (removed_of_removedAt hr))
  · exact superseded_of_past (inv_step (step_data db e) hi)
      (past_step (step_data db e) (hQ listing hr))

/-- The sample run removes its listing once, at generation zero. -/
theorem noResurrection_of_sampleRun :
    (history (step sampleRuntime) sampleDb sampleEvents).map
        (fun m => (removedAt sampleRuntime m).map Listing.publicationGeneration)
        = [none, none, some 0, none, none, none]
      ∧ NoResurrection sampleRuntime
        (history (step sampleRuntime) sampleDb sampleEvents) :=
  ⟨by decide +kernel,
    noResurrection_of_run sampleRuntime sampleDb sampleEvents ⟨rfl, rfl, rfl⟩⟩

end Publication
