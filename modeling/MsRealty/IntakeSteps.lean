import MsRealty.Intake

/-!
# What one step of the intake does

The checks of an execution throw three kinds of errors: those that roll the
operation back, one for a listing that is not public and of which the visitor
saw no manifest, and defects (`review_error`). A transaction therefore writes
nothing, accepts an inquiry, or stores that the listing was not found
(`transact_cases`); no other step writes to the tables (`step_cases`).
-/

namespace Intake

open Runs

/-! ## Errors of checks -/

/-- Every error of a transaction has a property. -/
def Throws {α : Type} (P : Thrown JsonValue → Prop) (tx : Tx α) : Prop :=
  ∀ error, tx = .error error → P error

namespace Throws

variable {α β : Type} {P : Thrown JsonValue → Prop}

theorem ok (a : α) : Throws P (.ok a : Tx α) := fun _ h => nomatch h

theorem error {e : Thrown JsonValue} (h : P e) : Throws P (.error e : Tx α) := by
  rintro e' ⟨⟩
  exact h

theorem demand {condition : Prop} [Decidable condition] {e : Thrown JsonValue} (h : P e) :
    Throws P (Tx.demand condition e) := by
  unfold Tx.demand
  split_ifs
  · exact ok ()
  · exact error h

theorem found {value : Option α} {e : Thrown JsonValue} (h : P e) :
    Throws P (Tx.found value e) := by
  cases value with
  | none => exact error h
  | some a => exact ok a

/-- A transaction throws what its parts throw. -/
theorem bind {tx : Tx α} {f : α → Tx β} (h : Throws P tx) (hf : ∀ a, Throws P (f a)) :
    Throws P (tx >>= f) := by
  cases tx with
  | error e => exact error (h e rfl)
  | ok a => exact hf a

theorem whenGiven {value : Option α} {check : α → Tx β} (h : ∀ a, Throws P (check a)) :
    Throws P (whenGiven value check) := by
  cases value with
  | none => exact ok none
  | some a =>
    show Throws P ((check a).map some)
    cases hcheck : check a with
    | error e => exact error (h a e hcheck)
    | ok b => exact ok (some b)

theorem mapM {check : α → Tx β} (h : ∀ a, Throws P (check a)) (values : List α) :
    Throws P (values.mapM check) := by
  induction values with
  | nil => exact ok []
  | cons a values ih =>
    rw [List.mapM_cons]
    exact bind (h a) (fun _ => bind ih (fun _ => ok _))

end Throws

/-! ## The errors of a review -/

variable {site : Site}

/-- An error that leaves no outcome: it was not applied and is rolled back, or it
is a defect. -/
def Unstored : Thrown JsonValue → Prop
  | .other => True
  | .appError error => error.outcome = .notApplied ∧ rollsBack (.appError error) = true

theorem unstored_sourceChanged (reason : String) : Unstored (sourceChanged reason) := ⟨rfl, rfl⟩

theorem isElapsedField_windowField (index : ℕ) : isElapsedField (windowField index) = true := by
  refine Bool.or_eq_true_iff.mpr (Or.inl ?_)
  show "viewingPreferences.windows.".toList.isPrefixOf (windowField index).toList = true
  rw [List.isPrefixOf_iff_prefix]
  unfold windowField
  rw [String.toList_append, String.toList_append, List.append_assoc]
  exact List.prefix_append _ _

/-- **A viewing time that has passed** can be corrected. -/
theorem throws_requireFutureViewingPreferences (payload : NormalizedPayload) (now : Instant) :
    Throws Unstored (requireFutureViewingPreferences site payload now) := by
  intro error h
  unfold requireFutureViewingPreferences at h
  dsimp only at h
  generalize (payload.viewingPreferences.map (fun p => pastViewingWindows site p now)).getD [] =
    past at h
  cases past with
  | nil => cases h
  | cons index past =>
    obtain rfl := Except.error.inj h
    refine ⟨rfl, ?_⟩
    show (isElapsedField (windowField index) || List.any _ _) = true
    rw [isElapsedField_windowField, Bool.true_or]

/-- **A service date that has passed** can be corrected. -/
theorem throws_requireFutureServiceRequest (payload : NormalizedPayload) (now : Instant) :
    Throws Unstored (requireFutureServiceRequest payload now) :=
  Throws.demand ⟨rfl, rfl⟩

theorem throws_readInquiryContent (sources : Sources) (locale : PublicLocale)
    (reference : ContentReference) :
    Throws Unstored (readInquiryContent site sources locale reference) := by
  unfold readInquiryContent
  split
  · exact Throws.error (unstored_sourceChanged _)
  · split_ifs
    · exact Throws.ok _
    · exact Throws.error (unstored_sourceChanged _)

theorem throws_whenRefused (reason : String) (tx : Tx Unit) :
    Throws Unstored (whenRefused reason tx) := by
  cases tx with
  | ok a => exact Throws.ok ()
  | error e =>
    cases e with
    | appError e => exact Throws.error (unstored_sourceChanged _)
    | other => exact Throws.error trivial

theorem throws_bindServiceRequest (sources : Sources) (locale : PublicLocale)
    (request : ServiceRequest) (reference : ContentReference) :
    Throws Unstored (bindServiceRequest site sources locale request reference) := by
  unfold bindServiceRequest
  refine Throws.bind (Throws.found (unstored_sourceChanged _)) (fun found => ?_)
  refine Throws.bind (throws_whenRefused _ _) (fun _ => ?_)
  refine Throws.bind (Throws.found (unstored_sourceChanged _)) (fun content => ?_)
  exact Throws.bind (Throws.demand (unstored_sourceChanged _)) (fun _ => Throws.ok _)

theorem throws_selectListing (sources : Sources) (locale : PublicLocale) (now : Instant)
    (selected : SelectedListing) :
    Throws Unstored (selectListing site sources locale now selected) := by
  unfold selectListing
  refine Throws.bind (Throws.found (unstored_sourceChanged _)) (fun listing => ?_)
  exact Throws.bind (Throws.demand (unstored_sourceChanged _)) (fun _ => Throws.ok _)

/-- The listing of a submission is not public, and the visitor told of no manifest. -/
def Unlisted (site : Site) (sources : Sources) (payload : NormalizedPayload) (reference : String) :
    Prop :=
  payload.listingReference = some reference ∧ payload.observedManifestId = none
    ∧ sources.published ((parseListingReference site reference).getD "") payload.locale = none

theorem inquiryListing_error {sources : Sources} {payload : NormalizedPayload} {now : Instant}
    {reference : String} {error : Thrown JsonValue}
    (h : inquiryListing site sources payload now reference = .error error) :
    Unstored error ∨ error = listingNotFound ∧ payload.observedManifestId = none
      ∧ sources.published ((parseListingReference site reference).getD "") payload.locale
        = none := by
  unfold inquiryListing resolveReviewed resolveListing at h
  cases hfound : sources.published ((parseListingReference site reference).getD "")
      payload.locale with
  | none =>
    rw [hfound] at h
    cases hseen : payload.observedManifestId with
    | none =>
      rw [hseen] at h
      obtain rfl := Except.error.inj h
      exact Or.inr ⟨rfl, rfl, rfl⟩
    | some manifest =>
      rw [hseen] at h
      obtain rfl := Except.error.inj h
      exact Or.inl (unstored_sourceChanged _)
  | some listing =>
    rw [hfound] at h
    exact Or.inl (Throws.bind (Throws.demand (unstored_sourceChanged _))
      (fun _ => Throws.ok _) error h)

/-- The same submission, about no listing. -/
def Request.withoutListing (request : Request) : Request :=
  { request with payload := { request.payload with listingReference := none } }

/-- The checks of a submission before those of its listing. -/
def reviewOthers (site : Site) (sources : Sources) (request : Request) (readings : Readings) :
    Tx Subjects :=
  review site sources request.withoutListing readings

/-- The checks of the listing come last. -/
theorem review_eq (sources : Sources) (request : Request) (readings : Readings) :
    review site sources request readings = (do
      let subjects ← reviewOthers site sources request readings
      let listing ← whenGiven request.payload.listingReference
        (inquiryListing site sources request.payload (request.clock readings.recorded))
      .ok { subjects with listing := listing }) := by
  show (do
    requireFutureViewingPreferences site request.payload (request.clock readings.viewing)
    requireFutureServiceRequest request.payload (request.clock readings.service)
    _) = (do
      requireFutureViewingPreferences site request.payload (request.clock readings.viewing)
      requireFutureServiceRequest request.payload (request.clock readings.service)
      _) >>= _
  simp only [bind_assoc]
  rfl

/-- The checks before those of the listing store nothing. -/
theorem throws_reviewOthers (sources : Sources) (request : Request) (readings : Readings) :
    Throws Unstored (reviewOthers site sources request readings) := by
  unfold reviewOthers review
  refine Throws.bind (throws_requireFutureViewingPreferences _ _) (fun _ => ?_)
  refine Throws.bind (throws_requireFutureServiceRequest _ _) (fun _ => ?_)
  refine Throws.bind (Throws.whenGiven (fun _ => throws_readInquiryContent _ _ _)) (fun _ => ?_)
  refine Throws.bind (Throws.whenGiven (fun _ => throws_bindServiceRequest _ _ _ _)) (fun _ => ?_)
  refine Throws.bind (Throws.mapM (fun _ => throws_selectListing _ _ _ _) _) (fun _ => ?_)
  exact Throws.ok _

/-- **The listing of a submission disappeared**: the other checks pass, and the
listing is not public. -/
def Disappeared (site : Site) (sources : Sources) (request : Request) (readings : Readings) :
    Prop :=
  (∃ reference, Unlisted site sources request.payload reference)
    ∧ ∃ subjects, reviewOthers site sources request readings = .ok subjects

/-- **The errors of a review**: only a listing that disappeared is stored. -/
theorem review_error {sources : Sources} {request : Request} {readings : Readings}
    {error : Thrown JsonValue} (h : review site sources request readings = .error error) :
    Unstored error ∨ error = listingNotFound ∧ Disappeared site sources request readings := by
  rw [review_eq] at h
  cases hothers : reviewOthers site sources request readings with
  | error e =>
    rw [hothers] at h
    obtain rfl := Except.error.inj h
    exact Or.inl (throws_reviewOthers sources request readings e hothers)
  | ok subjects =>
    rw [hothers, Tx.ok_bind] at h
    cases hreference : request.payload.listingReference with
    | none =>
      rw [hreference] at h
      cases h
    | some reference =>
      rw [hreference] at h
      cases hlisting : inquiryListing site sources request.payload
          (request.clock readings.recorded) reference with
      | ok listing =>
        rw [show whenGiven (some reference) _ = _ from congrArg (Except.map some) hlisting] at h
        cases h
      | error e =>
        rw [show whenGiven (some reference) _ = _ from congrArg (Except.map some) hlisting] at h
        obtain rfl := Except.error.inj h
        refine (inquiryListing_error hlisting).imp id
          (fun hnone => ⟨hnone.1, ?_, subjects, hothers⟩)
        exact ⟨reference, hreference, hnone.2⟩

/-- **A listing that disappeared** is not found. -/
theorem review_of_disappeared {sources : Sources} {request : Request} {readings : Readings}
    (h : Disappeared site sources request readings) :
    review site sources request readings = .error listingNotFound := by
  obtain ⟨⟨reference, hreference, hseen, hnone⟩, subjects, hothers⟩ := h
  rw [review_eq, hothers, Tx.ok_bind, hreference]
  unfold whenGiven inquiryListing resolveReviewed resolveListing
  dsimp only
  rw [hnone, hseen]
  rfl

/-! ## What an execution writes -/

/-- The writes fail only where the database refuses a row. -/
theorem throws_recordInquiry (data : IntakeData) (request : Request) (subjects : Subjects)
    (drawn : Drawn) (now : Instant) :
    Throws (· = .other) (recordInquiry site data request subjects drawn now) := by
  unfold recordInquiry
  refine Throws.bind (Throws.found rfl) (fun _ => ?_)
  refine Throws.bind (Throws.found rfl) (fun _ => ?_)
  refine Throws.bind (Throws.demand rfl) (fun _ => ?_)
  exact Throws.bind (Throws.found rfl) (fun _ => Throws.ok _)

theorem rows_of_insertInquiry
    {inquiries inquiries' : Table String InquiryRow InquiryRow.submissionKey} {row : InquiryRow}
    (h : insertInquiry inquiries row = some inquiries') :
    inquiries.insert? row = some inquiries' := by
  unfold insertInquiry at h
  split_ifs at h
  exact h

/-- **An execution that succeeds** inserts the inquiry of its key, and there was none. -/
theorem receive_ok {request : Request} {met : Met} {data data' : IntakeData} {value : JsonValue}
    (h : receive site request met data = .ok (value, data')) :
    ∃ row : InquiryRow, row.submissionKey = request.submissionKey
      ∧ row.payloadDigest = request.hash site ∧ row.receiptSessionHash = request.session site
      ∧ data.inquiries.insert? row = some data'.inquiries := by
  obtain ⟨subjects, hreview, h⟩ := Tx.bind_eq_ok.mp h
  obtain ⟨⟨row, recorded⟩, hrecord, h⟩ := Tx.bind_eq_ok.mp h
  obtain rfl : recorded = data' := (Prod.mk.inj (Except.ok.inj h)).2
  unfold recordInquiry at hrecord
  simp only [Tx.found_bind, Tx.demand_bind] at hrecord
  obtain ⟨parties, -, methods, -, -, inquiries, hinquiries, hrow⟩ := hrecord
  obtain ⟨rfl, rfl⟩ := Prod.mk.inj (Except.ok.inj hrow)
  exact ⟨_, rfl, rfl, rfl, rows_of_insertInquiry hinquiries⟩

/-- **What an execution throws.** -/
theorem receive_error {request : Request} {met : Met} {data : IntakeData}
    {error : Thrown JsonValue} (h : receive site request met data = .error error) :
    Unstored error
      ∨ error = listingNotFound ∧ Disappeared site data.sources request met.readings := by
  unfold receive at h
  cases hreview : review site data.sources request met.readings with
  | error e =>
    rw [hreview] at h
    obtain rfl := Except.error.inj h
    exact review_error hreview
  | ok subjects =>
    rw [hreview, Tx.ok_bind] at h
    refine Or.inl (Throws.bind (fun e he => ?_) (fun _ => Throws.ok _) error h)
    rw [throws_recordInquiry _ _ _ _ _ e he]
    trivial

/-! ## What a transaction does -/

theorem not_butler (request : Request) (met : Met) :
    isButlerOperation (operationCall site request met).input = false := by
  have htype : startsWith operationType "butler." = false := by decide
  simp [isButlerOperation, operationCall, Request.input, visitor, htype]

/-- The operation of a key. -/
abbrev operation? (db : Db IntakeData) (key : String) : Option OperationRow :=
  db.operations.find (intakeKey key)

theorem intakeKey_injective {key key' : String} (h : intakeKey key = intakeKey key') :
    key = key' := congrArg OperationKey.idempotencyKey h

/-- **What a transaction does**: it writes nothing, and a success is then that of
the stored operation; it accepts an inquiry; or it stores that the listing was
not found. -/
inductive TransactCase (site : Site) (request : Request) (met : Met) (db : Db IntakeData) :
    Db IntakeData → Tx OperationSuccess → Prop
  | kept (answer : Tx OperationSuccess)
      (hok : ∀ value, answer = .ok value → ∃ op, operation? db request.submissionKey = some op
        ∧ op.status = .succeeded ∧ op.requestHash = request.hash site) :
      TransactCase site request met db db answer
  | accepted (table : OperationsTable) (data : IntakeData) (outcome : JsonValue)
      (hnone : operation? db request.submissionKey = none)
      (hinsert : db.operations.insert (newReceipt (operationCall site request met)) = some table)
      (hreceive : receive site request met db.data = .ok (outcome, data)) :
      TransactCase site request met db
        { db with
          operations := table.settle met.drawn.operationId .succeeded outcome met.completedAt
          data := data }
        (.ok ⟨met.drawn.operationId, false, some outcome, none⟩)
  | stored (table : OperationsTable) (outcome : JsonValue) (hlocked : met.locked = true)
      (hnone : operation? db request.submissionKey = none)
      (hinsert : db.operations.insert (newReceipt (operationCall site request met)) = some table)
      (hgone : Disappeared site db.data.sources request met.readings) :
      TransactCase site request met db
        { db with
          operations := table.settle met.drawn.operationId .failed outcome met.completedAt }
        (.error listingNotFound)

/-- The outer transaction undoes what is rolled back. -/
theorem transact_eq (request : Request) (met : Met) (db : Db IntakeData) :
    transact site request met db =
      match thrownBy (runOperation some db (operationCall site request met)).snd with
      | .ok value => ((runOperation some db (operationCall site request met)).fst, .ok value)
      | .error error =>
        (if rollsBack error then db
          else (runOperation some db (operationCall site request met)).fst, .error error) := rfl

/-- The first call of a key executes it. -/
theorem runOperation_first {request : Request} {met : Met} {db : Db IntakeData}
    {table : OperationsTable} (hlocked : met.locked = true)
    (hnone : operation? db request.submissionKey = none)
    (hinsert : db.operations.insert (newReceipt (operationCall site request met)) = some table) :
    runOperation some db (operationCall site request met)
      = execute some db (operationCall site request met) table := by
  have hlocked' : (operationCall site request met).locked = true := hlocked
  have hnone' : db.operations.find (operationCall site request met).input.key = none := hnone
  unfold runOperation
  rw [hlocked', hnone', hinsert, not_butler]
  rfl

/-- **An execution that is accepted.** -/
theorem transact_of_receive {request : Request} {met : Met} {db : Db IntakeData}
    {table : OperationsTable} {outcome : JsonValue} {data : IntakeData}
    (hlocked : met.locked = true) (hnone : operation? db request.submissionKey = none)
    (hinsert : db.operations.insert (newReceipt (operationCall site request met)) = some table)
    (hreceive : receive site request met db.data = .ok (outcome, data)) :
    transact site request met db =
      ({ db with
          operations := table.settle met.drawn.operationId .succeeded outcome met.completedAt
          data := data },
        .ok ⟨met.drawn.operationId, false, some outcome, none⟩) := by
  have hfn : (operationCall site request met).fn (operationCall site request met).context db.data
      = .returned (some outcome) data := congrArg Tx.effect hreceive
  rw [transact_eq, runOperation_first hlocked hnone hinsert]
  unfold execute
  rw [hfn]
  rfl

/-- **An execution whose listing disappeared** stores that outcome. -/
theorem transact_of_disappeared {request : Request} {met : Met} {db : Db IntakeData}
    {table : OperationsTable} (hlocked : met.locked = true)
    (hnone : operation? db request.submissionKey = none)
    (hinsert : db.operations.insert (newReceipt (operationCall site request met)) = some table)
    (hgone : Disappeared site db.data.sources request met.readings) :
    ∃ outcome, transact site request met db =
      ({ db with
          operations := table.settle met.drawn.operationId .failed outcome met.completedAt },
        .error listingNotFound) := by
  have hreceive : receive site request met db.data = .error listingNotFound := by
    unfold receive
    rw [review_of_disappeared hgone]
    rfl
  have hfn : (operationCall site request met).fn (operationCall site request met).context db.data
      = .threw listingNotFound := congrArg Tx.effect hreceive
  refine ⟨StoredFailure.toJson
    ⟨.validationFailed, some [("listingReference", ["not_found"])], none⟩, ?_⟩
  rw [transact_eq, runOperation_first hlocked hnone hinsert]
  unfold execute
  rw [hfn]
  rfl

/-- An execution that throws what is not stored writes nothing. -/
theorem transact_of_unstored {request : Request} {met : Met} {db : Db IntakeData}
    {table : OperationsTable} {error : Thrown JsonValue} (hlocked : met.locked = true)
    (hnone : operation? db request.submissionKey = none)
    (hinsert : db.operations.insert (newReceipt (operationCall site request met)) = some table)
    (hreceive : receive site request met db.data = .error error) (hunstored : Unstored error) :
    ∃ thrown, transact site request met db = (db, .error thrown) := by
  have hfn : (operationCall site request met).fn (operationCall site request met).context db.data
      = .threw error := congrArg Tx.effect hreceive
  rw [transact_eq, runOperation_first hlocked hnone hinsert]
  unfold execute
  rw [hfn]
  cases error with
  | other => exact ⟨.other, rfl⟩
  | appError failure =>
    obtain ⟨houtcome, hback⟩ := hunstored
    have hretry : failure.retryable = false := by
      obtain ⟨code, outcome, fieldErrors, current⟩ := failure
      unfold rollsBack at hback
      simp only [Bool.or_eq_true, Bool.and_eq_true, decide_eq_true_eq] at hback
      rcases hback with rfl | ⟨rfl, -⟩ <;> rfl
    have hstored : ∀ current : Option JsonValue, rollsBack (.appError
        ⟨failure.code, failure.code.outcome, failure.fieldErrors, current⟩) = true := fun _ => hback
    dsimp only
    rw [houtcome, if_neg (by simp), hretry, if_neg (by simp)]
    cases failure.current with
    | none =>
      dsimp only [Option.map_none]
      rw [failureError_toJson]
      exact ⟨_, congrArg (·, _) (if_pos (hstored none))⟩
    | some current =>
      dsimp only [Option.map_some]
      rw [failureError_toJson]
      exact ⟨_, congrArg (·, _) (if_pos (hstored _))⟩

/-- A transaction that answers without writing keeps everything. -/
theorem transact_of_kept {request : Request} {met : Met} {db : Db IntakeData}
    {answer : Answer JsonValue}
    (h : runOperation some db (operationCall site request met) = (db, answer)) :
    transact site request met db = (db, thrownBy answer) := by
  rw [transact_eq, h]
  dsimp only
  cases thrownBy answer with
  | ok value => rfl
  | error error => exact congrArg (·, _) (ite_self db)

/-- **A transaction does one of these.** -/
theorem transact_cases (site : Site) (request : Request) (met : Met) (db : Db IntakeData) :
    TransactCase site request met db (transact site request met db).fst
      (transact site request met db).snd := by
  by_cases hbusy : met.locked = false
  · have hr : runOperation some db (operationCall site request met)
        = (db, .failed (AppError.ofCode .operationPending)) := by
      have hlocked : (operationCall site request met).locked = false := hbusy
      unfold runOperation
      rw [hlocked]
      rfl
    rw [transact_of_kept hr]
    exact .kept _ (fun _ h => nomatch h)
  have hlocked : met.locked = true := Bool.eq_true_of_not_eq_false hbusy
  by_cases hfirst : operation? db request.submissionKey = none
      ∧ ∃ table, db.operations.insert (newReceipt (operationCall site request met)) = some table
  · obtain ⟨hnone, table, hinsert⟩ := hfirst
    cases hreceive : receive site request met db.data with
    | ok r =>
      rw [transact_of_receive hlocked hnone hinsert hreceive]
      exact .accepted table _ _ hnone hinsert hreceive
    | error error =>
      rcases receive_error hreceive with hunstored | ⟨rfl, hgone⟩
      · obtain ⟨thrown, h⟩ := transact_of_unstored hlocked hnone hinsert hreceive hunstored
        rw [h]
        exact .kept _ (fun _ h => nomatch h)
      · obtain ⟨outcome, h⟩ := transact_of_disappeared hlocked hnone hinsert hgone
        rw [h]
        exact .stored table outcome hlocked hnone hinsert hgone
  · have hcases := Operations.runOperation_cases some db (operationCall site request met)
      (not_butler request met)
    generalize hr : runOperation some db (operationCall site request met) = r at hcases
    obtain ⟨db', answer⟩ := r
    dsimp only at hcases
    cases hcases with
    | busy =>
      rw [transact_of_kept hr]
      exact .kept _ (fun _ h => nomatch h)
    | reused =>
      rw [transact_of_kept hr]
      exact .kept _ (fun _ h => nomatch h)
    | refused =>
      rw [transact_of_kept hr]
      exact .kept _ (fun _ h => nomatch h)
    | replayed row _ hrow hhash =>
      rw [transact_of_kept hr]
      refine .kept _ (fun value hvalue => ⟨row, hrow, ?_, hhash⟩)
      cases hanswer : (replayAnswer false row : Answer JsonValue) with
      | success value => exact (Operations.replayAnswer_success hanswer).1
      | failed error =>
        rw [hanswer] at hvalue
        cases hvalue
      | rolledBack error =>
        rw [hanswer] at hvalue
        cases hvalue
    | executed table _ _ hnone hinsert => exact absurd ⟨hnone, table, hinsert⟩ hfirst

end Intake
