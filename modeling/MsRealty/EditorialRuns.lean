import MsRealty.Editorial

/-!
# Editorial states over every run

Submitting and approving take a step of the editorial machine; so does
freezing, except that a listing in review becomes a draft, which is no edge of
the machine. Hence every run in which no listing in review is frozen follows
the machine (`follows_of_run`), whatever the other commands do that leave the
editorial states.
-/

namespace Editorial

open Inventory Operations Runs Submissions

variable {data data' : EditorialData} {row row' : ListingRow} {schemas : Tx.Schemas}
  {found : Findings} {context : OperationContext} {value : JsonValue}

/-! ## Commands -/

/-- An editorial command. -/
inductive Command where
  | create (input : JsonValue)
  | freeze (reference : String)
  | submit (reference : String) (revisionId : Uuid)
  | approve (reference : String) (revisionId : Uuid) (note : Option String)

/-- The envelope of a command. -/
structure Envelope where
  operationId : String
  expectedRevision : ℕ

/-- The operation type of a command. -/
def Command.type : Command → String
  | .create _ => "inventory.create"
  | .freeze _ => "inventory.revision.create"
  | .submit _ _ => "listing.revision.submit"
  | .approve _ _ _ => "listing.revision.approve"

/-- The version the receipt of a command has. -/
def Command.expectedVersion (envelope : Envelope) : Command → Option ℤ
  | .create _ | .freeze _ => none
  | .submit _ _ | .approve _ _ _ => some envelope.expectedRevision

/-- Whether the schemas of a command accept it. -/
def Command.isValid (envelope : Envelope) : Command → Bool
  | .create input =>
    Tx.textWithin 8 160 envelope.operationId && (createListingSchema input).isSome
  | .freeze _ => Tx.textWithin 8 160 envelope.operationId
  | .submit _ _ | .approve _ _ _ => true

/-- **What a call meets** outside its tables: who calls, the issues of the
schemas, what the check of the caller refuses, and the operation. -/
structure CallFindings extends Findings where
  actor : Actor
  issues : FieldErrors
  draftIssues : FieldErrors
  early : Option (Thrown JsonValue)
  locked : Bool
  operationId : Uuid
  requestHash : String

/-- The transaction of a command. -/
def Command.run (schemas : Tx.Schemas) (envelope : Envelope) (found : CallFindings)
    (context : OperationContext) (data : EditorialData) :
    Command → Tx (JsonValue × EditorialData)
  | .create input => do
    let input ← Tx.found (createListingSchema input) .other
    createListingDraft input envelope.expectedRevision found.toFindings context data
  | .freeze reference =>
    freezeListingDraft schemas reference envelope.expectedRevision found.draftIssues
      found.toFindings context data
  | .submit reference revisionId =>
    submitListingRevision schemas reference revisionId envelope.expectedRevision found.toFindings
      context data
  | .approve reference revisionId note =>
    approveListingRevision schemas reference revisionId note envelope.expectedRevision
      found.toFindings context data

/-- **The submission of a command.** -/
def Command.submission (schemas : Tx.Schemas) (envelope : Envelope) (c : Command)
    (found : CallFindings) : Submission EditorialData where
  early :=
    if !c.isValid envelope then some (schemaError found.issues)
    else if found.actor.kind ≠ .staff then some (Tx.ofCode .forbidden)
    else found.early
  call :=
    { input :=
        { actor := found.actor
          type := c.type
          idempotencyKey := envelope.operationId
          requestHash := found.requestHash
          expectedVersion := c.expectedVersion envelope
          subject := none
          butlerAuthorization := false }
      fn := fun context data => Tx.effect (c.run schemas envelope found context data)
      butlerCheck := fun _ _ => .error .other
      locked := found.locked
      freshId := found.operationId
      now := found.now }

/-! ## Following the machine -/

/-- A state that stays, or takes a step of the machine. -/
def Advances (before after : EditorialState) : Prop :=
  after = before ∨ editorialMachine.Edge before after

/-- **Every listing stays in its state or takes a step of the machine.** -/
def Follows (data data' : EditorialData) : Prop :=
  ∀ row ∈ data.listings.rows, ∀ row' ∈ data'.listings.rows, row'.id = row.id →
    Advances row.editorialState row'.editorialState

theorem follows_of_listings (h : data'.listings = data.listings) : Follows data data' := by
  intro row hrow row' hrow' hid
  rw [h] at hrow'
  rw [Table.eq_of_key hrow' hrow hid]
  exact .inl rfl

/-- **A row that is written** is the only one that may move. -/
theorem follows_of_write (hrow : row ∈ data.listings.rows) (hid : row'.id = row.id)
    (hstep : Advances row.editorialState row'.editorialState)
    (h : data'.listings = data.listings.put row') : Follows data data' := by
  intro old hold new hnew hsame
  rw [h, Table.mem_put] at hnew
  obtain rfl | ⟨hnew, -⟩ := hnew
  · rwa [Table.eq_of_key hold hrow (hsame.symm.trans hid)]
  · rw [Table.eq_of_key hnew hold hsame]
    exact .inl rfl

/-- A row that is inserted has an id of its own. -/
theorem follows_of_insert (h : data.listings.insert? row = some data'.listings) :
    Follows data data' := by
  intro old hold new hnew hsame
  rw [Table.mem_insert? h] at hnew
  obtain rfl | hnew := hnew
  · exact absurd hsame.symm (Table.get?_eq_none.mp (Table.get?_of_insert? h) old hold)
  · rw [Table.eq_of_key hnew hold hsame]
    exact .inl rfl

/-! ## Every command -/

theorem createListingDraft_follows {input : CreateListing} {expectedRevision : ℕ}
    (h : createListingDraft input expectedRevision found context data = .ok (value, data')) :
    Follows data data' := by
  simp only [createListingDraft, Tx.demand_bind, Tx.found_bind] at h
  obtain ⟨-, -, properties, -, -, listings, hlistings, hdone⟩ := h
  obtain ⟨-, rfl⟩ := Prod.mk.inj (Except.ok.inj hdone)
  exact follows_of_insert hlistings

/-- A listing that may be edited is the one of the reference. -/
theorem edited_eq_ok {actor : Actor} {reference : String}
    (h : edited schemas found actor data reference = .ok row) :
    row ∈ data.listings.rows ∧ row.reference = schemas.toUpperCase reference := by
  simp only [edited, Tx.found_bind, Tx.demand_bind] at h
  obtain ⟨listing, hlisting, -, -, hdone⟩ := h
  obtain rfl := Except.ok.inj hdone
  have hfound := List.find?_some hlisting
  exact ⟨List.mem_of_find?_eq_some hlisting, of_decide_eq_true hfound⟩

/-- **A listing that is frozen** takes a step of the machine, unless it is in
review. -/
theorem advances_frozen (h : row.editorialState ≠ .inReview) :
    Advances row.editorialState row.frozen.editorialState := by
  show Advances row.editorialState .draft
  unfold Advances
  generalize row.editorialState = state at h
  revert h
  cases state <;> decide

theorem not_advances_inReview : ¬ Advances .inReview .draft := by
  unfold Advances
  decide

theorem freezeListingDraft_follows {reference : String} {expectedRevision : ℕ}
    {issues : FieldErrors}
    (h : freezeListingDraft schemas reference expectedRevision issues found context data =
      .ok (value, data'))
    (hfree : ∀ row ∈ data.listings.rows, row.reference = schemas.toUpperCase reference →
      row.version = expectedRevision → row.editorialState ≠ .inReview) :
    Follows data data' := by
  obtain ⟨listing, hlisting, h⟩ := Tx.bind_eq_ok.mp h
  simp only [Tx.demand_bind, Tx.found_bind] at h
  obtain ⟨hversion, draft, -, -, property, -, h⟩ := h
  obtain ⟨facts, -, h⟩ := Tx.bind_eq_ok.mp h
  obtain ⟨factRevisions, -, h⟩ := Tx.found_bind.mp h
  obtain ⟨terms, -, h⟩ := Tx.bind_eq_ok.mp h
  obtain ⟨revisions, -, hdone⟩ := Tx.found_bind.mp h
  obtain ⟨-, rfl⟩ := Prod.mk.inj (Except.ok.inj hdone)
  obtain ⟨hmem, hreference⟩ := edited_eq_ok hlisting
  exact follows_of_write hmem (by rfl)
    (advances_frozen (hfree listing hmem hreference hversion)) rfl

/-- **A transition takes a step of the machine.** -/
theorem editorialStep_eq_ok {expectedRevision : ℕ} {target : EditorialState}
    {evidence : EditorialEvidence}
    (h : editorialStep found context expectedRevision data row target evidence =
      .ok (row', data')) :
    row'.id = row.id ∧ editorialMachine.Edge row.editorialState row'.editorialState ∧
      data'.listings = data.listings.put row' := by
  unfold editorialStep at h
  dsimp only at h
  split at h
  · cases h
  · split_ifs at h
  · next next activity audit happlied =>
    obtain ⟨rfl, rfl⟩ := Prod.mk.inj (Except.ok.inj h)
    obtain ⟨-, -, hedge, -, rfl, -⟩ := Transition.applyTransition_applied happlied
    exact ⟨rfl, hedge, rfl⟩

theorem lockListing_eq_ok {reference : String}
    (h : lockListing schemas data reference = .ok row) : row ∈ data.listings.rows := by
  unfold lockListing Tx.found at h
  split at h
  · next listing hlisting =>
    obtain rfl := Except.ok.inj h
    exact List.mem_of_find?_eq_some hlisting
  · exact (nomatch h)

theorem submitListingRevision_follows {reference : String} {revisionId : Uuid}
    {expectedRevision : ℕ}
    (h : submitListingRevision schemas reference revisionId expectedRevision found context data =
      .ok (value, data')) : Follows data data' := by
  obtain ⟨listing, hlisting, h⟩ := Tx.bind_eq_ok.mp h
  obtain ⟨revision, -, h⟩ := Tx.bind_eq_ok.mp h
  simp only [Tx.found_bind, Tx.demand_bind] at h
  obtain ⟨property, -, -, h⟩ := h
  obtain ⟨⟨moved, after⟩, hstep, hdone⟩ := Tx.bind_eq_ok.mp h
  obtain ⟨-, rfl⟩ := Prod.mk.inj (Except.ok.inj hdone)
  obtain ⟨hid, hedge, hlistings⟩ := editorialStep_eq_ok hstep
  exact follows_of_write (lockListing_eq_ok hlisting) hid (.inr hedge) hlistings

theorem approveListingRevision_follows {reference : String} {revisionId : Uuid}
    {note : Option String} {expectedRevision : ℕ}
    (h : approveListingRevision schemas reference revisionId note expectedRevision found context
      data = .ok (value, data')) : Follows data data' := by
  obtain ⟨listing, hlisting, h⟩ := Tx.bind_eq_ok.mp h
  obtain ⟨revision, -, h⟩ := Tx.bind_eq_ok.mp h
  obtain ⟨⟨moved, after⟩, hstep, hdone⟩ := Tx.bind_eq_ok.mp h
  obtain ⟨-, rfl⟩ := Prod.mk.inj (Except.ok.inj hdone)
  obtain ⟨hid, hedge, hlistings⟩ := editorialStep_eq_ok hstep
  have hmem := lockListing_eq_ok hlisting
  intro old hold new hnew hsame
  obtain rfl | ⟨hnew, hother⟩ := Table.mem_put.mp hnew
  · rw [Table.eq_of_key hold hmem (hsame.symm.trans hid)]
    exact .inr hedge
  · exact follows_of_write hmem hid (.inr hedge) hlistings old hold new hnew hsame

/-! ## Every run -/

/-- A submission of another command: it leaves the editorial state of every
listing. -/
def LeavesStates (s : Submission EditorialData) : Prop :=
  ∀ context data value data', s.call.fn context data = .returned value data' →
    ∀ row ∈ data.listings.rows, ∀ row' ∈ data'.listings.rows, row'.id = row.id →
      row'.editorialState = row.editorialState

/-- A submission of a command of the inventory or of the publication. -/
def IsCommand (s : Submission EditorialData) : Prop :=
  (∃ schemas envelope c found, s = Command.submission schemas envelope c found) ∨ LeavesStates s

/-- **A listing in review is frozen**: at the version it has. -/
def FreezesInReview (m : Moment (Db EditorialData) (Submission EditorialData)
    (Answer JsonValue)) : Prop :=
  ∃ schemas envelope reference found,
    m.event = Command.submission schemas envelope (.freeze reference) found ∧
      ∃ row ∈ m.before.data.listings.rows, row.reference = schemas.toUpperCase reference ∧
        row.version = envelope.expectedRevision ∧ row.editorialState = .inReview

/-- One step follows the machine. -/
theorem follows_of_step (db : Db EditorialData) {s : Submission EditorialData}
    (hs : IsCommand s) (hfree : ¬ FreezesInReview (moment submit db s)) :
    Follows db.data (submit db s).fst.data := by
  obtain ⟨hdata, -⟩ | ⟨⟨value, hfn⟩, -, -⟩ := submit_cases db s
  · exact follows_of_listings (congrArg EditorialData.listings hdata)
  obtain ⟨schemas, envelope, c, found, rfl⟩ | hleaves := hs
  · obtain ⟨v, -, hrun⟩ := Tx.effect_returned hfn
    cases c with
    | create input =>
      obtain ⟨input, -, hrun⟩ := Tx.found_bind.mp hrun
      exact createListingDraft_follows hrun
    | freeze reference =>
      refine freezeListingDraft_follows hrun (fun row hrow hreference hversion hstate => ?_)
      exact hfree ⟨schemas, envelope, reference, found, rfl, row, hrow, hreference, hversion,
        hstate⟩
    | submit reference revisionId => exact submitListingRevision_follows hrun
    | approve reference revisionId note => exact approveListingRevision_follows hrun
  · intro row hrow row' hrow' hid
    exact .inl (hleaves _ _ _ _ hfn row hrow row' hrow' hid)

/-- **Every run in which no listing in review is frozen follows the machine**:
each command leaves the editorial state of each listing, or takes a step of the
machine. -/
theorem follows_of_run (db : Db EditorialData) {es : List (Submission EditorialData)}
    (hes : ∀ s ∈ es, IsCommand s) (hfree : ∀ m ∈ history submit db es, ¬ FreezesInReview m) :
    ∀ m ∈ history submit db es, Follows m.before.data m.after.data := by
  intro m hm
  have hstep := follows_of_step m.before (hes _ (event_mem hm))
    (eq_moment_of_mem hm ▸ hfree m hm)
  rw [eq_moment_of_mem hm]
  exact hstep

/-! ## A listing that is submitted -/

/-- The input of a listing without amounts. -/
def sampleInput : JsonValue :=
  .obj [("propertyType", .str "plot"), ("purpose", .str "sale"), ("country", .str "BG"),
    ("region", .str "Burgas"), ("settlement", .str "Ravda"), ("exactAddress", .str ""),
    ("draft", .obj [("title", .str "Plot"), ("description", .str "By the sea."),
      ("priceState", .str "withheld"), ("price", .str ""), ("areaState", .str "unknown"),
      ("area", .str ""), ("areaBasis", .str "land"), ("bedroomsState", .str "unknown"),
      ("bedrooms", .str ""), ("sourceReference", .str "call"),
      ("sourceClass", .str "owner_confirmed"), ("sourceLanguage", .str "bg")])]

/-- A broker who may also approve. -/
def sampleAuthz : Authz.AuthzData where
  principals := [⟨"broker", .staff, "party", .active⟩]
  memberships := [⟨"broker", true⟩]
  grants := [⟨some "broker", none, some .assignedBroker, none, none, none, none, none, none⟩,
    ⟨some "broker", none, some .publishingApprover, none, none, none, none, none, none⟩]
  participants := []
  propertyLinks := []

/-- What a call of the broker finds; the database draws ids by the operation. -/
def sampleFindings (operationId : Uuid) : CallFindings where
  authz := sampleAuthz
  now := 1000
  digest _ := "digest"
  lotNumber := 1
  propertyReference := "PR-2026-000001"
  listingId := "listing"
  propertyId := "property"
  factRevisionId := "facts of " ++ operationId
  revisionId := "revision of " ++ operationId
  approvalId := "approval"
  actor := ⟨.staff, "broker"⟩
  issues := []
  draftIssues := []
  early := none
  locked := true
  operationId := operationId
  requestHash := "request"

/-- A listing is created, frozen and submitted, and then comes a last command. -/
def sampleRun (last : Command) : List (Submission EditorialData) :=
  [("operation-1", 0, .create sampleInput), ("operation-2", 1, .freeze "MS-00001"),
    ("operation-3", 2, .submit "MS-00001" "revision of operation-2"),
    ("operation-4", 3, last)].map (fun ((key, version, c) : String × ℕ × Command) =>
      c.submission ⟨id, id, fun _ => true, fun _ => none⟩ ⟨key, version⟩ (sampleFindings key))

/-- The database before any listing. -/
def emptyDb : Db EditorialData :=
  ⟨⟨[], List.nodup_nil, List.nodup_nil⟩, [],
    Table.empty, Table.empty, Table.empty, [], Table.empty, [], [], [], [], [], []⟩

theorem isCommand_sampleRun (last : Command) : ∀ s ∈ sampleRun last, IsCommand s := by
  intro s hs
  obtain ⟨⟨key, version, c⟩, -, rfl⟩ := List.mem_map.mp hs
  exact .inl ⟨_, _, _, _, rfl⟩

/-- Whether a moment takes a listing from one state to another. -/
def takes (before after : EditorialState)
    (m : Moment (Db EditorialData) (Submission EditorialData) (Answer JsonValue)) : Bool :=
  m.before.data.listings.rows.any (fun row => m.after.data.listings.rows.any (fun row' =>
    row'.id = row.id && row.editorialState = before && row'.editorialState = after))

/-- **A listing that is submitted and then approved** follows the machine. -/
theorem follows_of_sampleRun :
    (∀ s ∈ sampleRun (.approve "MS-00001" "revision of operation-2" none), IsCommand s) ∧
    ∀ m ∈ history submit emptyDb (sampleRun (.approve "MS-00001" "revision of operation-2" none)),
      Follows m.before.data m.after.data := by
  refine ⟨isCommand_sampleRun _, follows_of_run emptyDb (isCommand_sampleRun _)
    (fun m hm hfreezes => ?_)⟩
  have hnone : ∀ m ∈ history submit emptyDb
      (sampleRun (.approve "MS-00001" "revision of operation-2" none)),
      m.event.call.input.type = "inventory.revision.create" →
        ∀ row ∈ m.before.data.listings.rows, row.editorialState ≠ .inReview := by
    decide +kernel
  obtain ⟨_, _, _, _, hevent, row, hrow, -, -, hstate⟩ := hfreezes
  exact hnone m hm (congrArg (fun s => s.call.input.type) hevent) row hrow hstate

/-- **A listing that is submitted and then frozen again** is a draft, which the
machine has no edge for. -/
theorem draft_of_review_sampleRun :
    (∀ s ∈ sampleRun (.freeze "MS-00001"), IsCommand s) ∧
    ∃ m ∈ history submit emptyDb (sampleRun (.freeze "MS-00001")),
      ¬ Follows m.before.data m.after.data := by
  have htaken : (history submit emptyDb (sampleRun (.freeze "MS-00001"))).any
      (takes .inReview .draft) = true := by
    decide +kernel
  obtain ⟨m, hm, htakes⟩ := List.any_eq_true.mp htaken
  refine ⟨isCommand_sampleRun _, m, hm, fun hfollows => ?_⟩
  simp only [takes, List.any_eq_true, Bool.and_eq_true, decide_eq_true_eq] at htakes
  obtain ⟨row, hrow, row', hrow', ⟨hid, hbefore⟩, hafter⟩ := htakes
  have hadvances := hfollows row hrow row' hrow' hid
  rw [hbefore, hafter] at hadvances
  exact not_advances_inReview hadvances

end Editorial
