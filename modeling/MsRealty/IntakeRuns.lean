import MsRealty.IntakeSteps

/-!
# Every interleaving of submissions

Any number of submissions, of any keys, payloads and receipt sessions, with
publication changing and clocks read between their steps. A key has at most one
inquiry, which carries the digest and the session of the call that was accepted,
and a call succeeds with that payload and that session only; all of this holds
in every run.

What need not hold is that a refusal leaves nothing behind. A listing that is
named without a manifest is looked up before the operation, so that a mistake is
not stored – but if it disappears between that check and the operation, the
operation stores `not_found` under the key, and a corrected payload is answered
as a reuse of the key. `intakeLaws_iff` says that this is all that goes wrong.
-/

namespace Intake

open Runs

variable {site : Site}

/-! ## What is asked of a run -/

/-- The inquiry of a key. -/
def World.inquiry? (w : World) (key : String) : Option InquiryRow := w.db.data.inquiries.get? key

/-- A moment of a run. -/
abbrev IntakeMoment := Moment World Event Answered

/-- The event is the transaction of a submission. -/
def Executing (w : World) (e : Event) (request : Request) (met : Met) : Prop :=
  ∃ id, e = .transact id met ∧ w.flights id = some ⟨request, .ready⟩

/-- **The call is accepted**: its transaction is the moment at which its key gets
an inquiry. -/
def Accepts (m : IntakeMoment) (request : Request) (row : InquiryRow) : Prop :=
  (∃ met, Executing m.before m.event request met)
    ∧ m.before.inquiry? request.submissionKey = none
    ∧ m.after.inquiry? request.submissionKey = some row

/-- The call an event is a step of. -/
def Event.call : Event → Option ℕ
  | .publish _ => none
  | .arrive id _ _ => some id
  | .check id _ _ _ => some id
  | .transact id _ => some id
  | .respond id => some id

/-- A submission in flight is answered. -/
def Answers (m : IntakeMoment) (request : Request) (answer : Tx SubmittedInquiry) : Prop :=
  (∃ id phase, m.event.call = some id ∧ m.before.flights id = some ⟨request, phase⟩)
    ∧ m.output = some answer

/-- **The errors of a source or of a time**: the listing, the selection, the
content or the service changed, the listing is not public, or a preferred time
or date has passed. -/
def IsRefusal : Thrown JsonValue → Prop
  | .other => False
  | .appError error =>
    error.code = .versionConflict ∨ error.code = .validationFailed
      ∧ ∃ e ∈ error.fieldErrors.getD [],
        isElapsedField e.fst = true ∨ e = ("listingReference", ["not_found"])

/-- **What a corrected submission meets**: the lock is free, its checks pass, and
the database has room for its rows. -/
structure Acceptable (site : Site) (w : World) (request : Request) (met : Met) : Prop where
  locked : met.locked = true
  operationId : met.drawn.operationId ∉ w.db.operations.rows.map OperationRow.id
  reviewed : ∃ subjects, review site w.db.data.sources request met.readings = .ok subjects
  party : w.db.data.parties.get? met.drawn.partyId = none
  method : w.db.data.contactMethods.get? met.drawn.methodId = none
  number : w.db.data.lastNumber (utcYear (request.clock met.readings.recorded)) + 1 ≤ lastSequence
  inquiry : ∀ row ∈ w.db.data.inquiries.rows, row.id ≠ met.drawn.inquiryId
    ∧ row.reference ≠ inquiryReference (utcYear (request.clock met.readings.recorded))
      (w.db.data.lastNumber (utcYear (request.clock met.readings.recorded)) + 1)

/-- **The laws of the intake.** -/
structure IntakeLaws (site : Site) (h : List IntakeMoment) : Prop where
  /-- A key is accepted at most once. -/
  once : h.Pairwise (fun m m' => ∀ request row request' row', Accepts m request row →
    Accepts m' request' row' → request'.submissionKey ≠ request.submissionKey)
  /-- An inquiry is never replaced. -/
  kept : ∀ m ∈ h, ∀ key row, m.before.inquiry? key = some row → m.after.inquiry? key = some row
  /-- An accepted call records its digest and its session. -/
  recorded : ∀ m ∈ h, ∀ request row, Accepts m request row →
    row.payloadDigest = request.hash site ∧ row.receiptSessionHash = request.session site
  /-- Every inquiry is that of an accepted call. -/
  accepted : ∀ past m future, h = past ++ m :: future → ∀ key row,
    m.before.inquiry? key = some row →
      ∃ m₀ ∈ past, ∃ request, Accepts m₀ request row ∧ request.submissionKey = key
  /-- A call succeeds with the payload and the session of the inquiry of its key, and
  is answered with the receipt of that inquiry. -/
  succeeded : ∀ m ∈ h, ∀ request submitted, Answers m request (.ok submitted) →
    ∃ row, m.before.inquiry? request.submissionKey = some row
      ∧ row.payloadDigest = request.hash site ∧ row.receiptSessionHash = request.session site
      ∧ submitted.receipt
        = withCurrentPublication site m.before.db.data.sources (toReceipt site row)
  /-- A refusal leaves no operation, no inquiry and no party behind. -/
  refused : ∀ m ∈ h, ∀ request error, Answers m request (.error error) → IsRefusal error →
    m.after.db = m.before.db
  /-- As long as a key has no inquiry, a corrected submission is accepted. -/
  corrected : ∀ m ∈ h, ∀ request met, Executing m.before m.event request met →
    m.before.inquiry? request.submissionKey = none → Acceptable site m.before request met →
      ∃ row, Accepts m request row

/-- **The listing disappears between the check and the operation**: the call runs
its operation for the first time, every other check of it passes, and the listing
it names without a manifest is not public now. -/
def DisappearsBetween (site : Site) (m : IntakeMoment) : Prop :=
  ∃ request met, Executing m.before m.event request met ∧ met.locked = true
    ∧ operation? m.before.db request.submissionKey = none
    ∧ met.drawn.operationId ∉ m.before.db.operations.rows.map OperationRow.id
    ∧ Disappeared site m.before.db.data.sources request met.readings

/-- A system that was just opened: no submission was made yet. -/
def Opened (w : World) : Prop :=
  (∀ key, operation? w.db key = none) ∧ (∀ key, w.inquiry? key = none)
    ∧ ∀ id, w.flights id = none

/-! ## What a step does -/

/-- What the error of a transaction answers. -/
def errorAnswer : Tx OperationSuccess → Answered
  | .ok _ => none
  | .error error => some (.error error)

/-- A step leaves the settled submissions, and settles none but those it says. -/
def SettlesOnly (w w' : World) (P : Request → OperationSuccess → Prop) : Prop :=
  ∀ id request value, w'.flights id = some ⟨request, .settled value⟩ →
    w.flights id = some ⟨request, .settled value⟩ ∨ P request value

/-- **What one step does**: it writes nothing to the tables, publication changes,
or a transaction runs. -/
inductive StepCase (site : Site) (w : World) (e : Event) : World → Answered → Prop
  | quiet (w' : World) (answered : Answered) (hdb : w'.db = w.db)
      (hsettles : SettlesOnly w w' (fun _ _ => False)) : StepCase site w e w' answered
  | published (sources : Sources) (w' : World) (he : e = .publish sources)
      (hdb : w'.db = { w.db with data.sources := sources })
      (hsettles : SettlesOnly w w' (fun _ _ => False)) : StepCase site w e w' none
  | executed (request : Request) (met : Met) (answer : Tx OperationSuccess) (w' : World)
      (hexec : Executing w e request met)
      (hcase : TransactCase site request met w.db w'.db answer)
      (hdb : (w'.db, answer) = transact site request met w.db)
      (hsettles : SettlesOnly w w' (fun r value => r = request ∧ answer = .ok value)) :
      StepCase site w e w' (errorAnswer answer)

/-- A submission that moves to a phase is settled only if the phase is. -/
theorem settlesOnly_move (w w₀ : World) (hflights : w₀.flights = w.flights) (id : ℕ)
    (request : Request) (phase : Phase) :
    SettlesOnly w (w₀.move id request phase)
      (fun r value => r = request ∧ phase = .settled value) := by
  intro id' request' value h
  unfold World.move at h
  dsimp only at h
  rw [Function.update_apply] at h
  split_ifs at h with hid
  · obtain ⟨rfl, rfl⟩ := Flight.mk.inj (Option.some.inj h)
    exact Or.inr ⟨rfl, rfl⟩
  · exact Or.inl (hflights ▸ h)

theorem SettlesOnly.mono {w w' : World} {P Q : Request → OperationSuccess → Prop}
    (h : SettlesOnly w w' P) (hPQ : ∀ r v, P r v → Q r v) : SettlesOnly w w' Q :=
  fun id request value hv => (h id request value hv).imp_right (hPQ request value)

/-- A move to a phase that is not settled settles nothing. -/
theorem quiet_move {w w₀ : World} {e : Event} {answered : Answered} {id : ℕ} {request : Request}
    {phase : Phase} (hdb : w₀.db = w.db) (hflights : w₀.flights = w.flights)
    (hphase : ∀ value, phase ≠ .settled value) :
    StepCase site w e (w₀.move id request phase) answered :=
  .quiet _ _ hdb ((settlesOnly_move w w₀ hflights id request phase).mono
    (fun _ value h => hphase value h.2))

theorem quiet_self (w : World) (e : Event) (answered : Answered) : StepCase site w e w answered :=
  .quiet _ _ rfl (fun _ _ _ h => Or.inl h)

theorem arrive_cases (w : World) (id : ℕ) (input : InquiryInput) (context : IntakeContext) :
    StepCase site w (.arrive id input context) (arrive site w id input context).fst
      (arrive site w id input context).snd := by
  unfold arrive
  split
  · exact quiet_self _ _ _
  · exact quiet_self _ _ _
  · split
    · exact quiet_move rfl rfl (fun _ h => nomatch h)
    · exact quiet_move rfl rfl (fun _ h => nomatch h)

theorem check_cases (w : World) (id : ℕ) (viewing service limited : Instant) :
    StepCase site w (.check id viewing service limited)
      (check site w id viewing service limited).fst
      (check site w id viewing service limited).snd := by
  unfold check
  split
  · dsimp only
    split
    · exact quiet_move rfl rfl (fun _ h => nomatch h)
    · exact quiet_move rfl rfl (fun _ h => nomatch h)
  · exact quiet_self _ _ _

theorem commit_cases (w : World) (id : ℕ) (met : Met) :
    StepCase site w (.transact id met) (commit site w id met).fst (commit site w id met).snd := by
  unfold commit
  split
  · next request hflight =>
    have hcase := transact_cases site request met w.db
    have hmove := settlesOnly_move w { w with db := (transact site request met w.db).fst } rfl id
      request
    dsimp only
    cases hanswer : (transact site request met w.db).snd with
    | ok value =>
      rw [hanswer] at hcase
      refine .executed request met (.ok value) _ ⟨id, rfl, hflight⟩ hcase
        (Prod.ext rfl hanswer.symm) ((hmove (.settled value)).mono ?_)
      rintro r v ⟨rfl, hphase⟩
      exact ⟨rfl, congrArg Except.ok (Phase.settled.inj hphase)⟩
    | error error =>
      rw [hanswer] at hcase
      refine .executed request met (.error error) _ ⟨id, rfl, hflight⟩ hcase
        (Prod.ext rfl hanswer.symm) ((hmove .answered).mono ?_)
      rintro r v ⟨-, hphase⟩
      cases hphase
  · exact quiet_self _ _ _

theorem respond_cases (w : World) (id : ℕ) :
    StepCase site w (.respond id) (respond site w id).fst (respond site w id).snd := by
  unfold respond
  split
  · exact quiet_move rfl rfl (fun _ h => nomatch h)
  · exact quiet_self _ _ _

/-- **Every step is of one of these kinds.** -/
theorem step_cases (site : Site) (w : World) (e : Event) :
    StepCase site w e (step site w e).fst (step site w e).snd := by
  cases e with
  | publish sources => exact .published sources _ rfl rfl (fun _ _ _ h => Or.inl h)
  | arrive id input context => exact arrive_cases w id input context
  | check id viewing service limited => exact check_cases w id viewing service limited
  | transact id met => exact commit_cases w id met
  | respond id => exact respond_cases w id

/-! ## What an acceptance leaves -/

/-- Settling the receipt of a first call leaves it under its key, and nothing else. -/
theorem operation_settled {request : Request} {met : Met} {db : Db IntakeData}
    {table : OperationsTable} (data : IntakeData) (status : OperationStatus) (outcome : JsonValue)
    (hinsert : db.operations.insert (newReceipt (operationCall site request met)) = some table)
    (key : String) :
    operation? { db with
        operations := table.settle met.drawn.operationId status outcome met.completedAt
        data := data } key
      = if key = request.submissionKey then
          some (OperationsTable.settleRow status outcome met.completedAt
            (newReceipt (operationCall site request met)))
        else operation? db key := by
  show (table.settle met.drawn.operationId status outcome met.completedAt).find (intakeKey key) = _
  split_ifs with hkey
  · rw [hkey]
    exact Operations.find_settle_insert hinsert status outcome
  · have hne : (newReceipt (operationCall site request met)).key ≠ intakeKey key :=
      fun h => hkey (intakeKey_injective h.symm)
    have hfind := OperationsTable.find_insert hinsert (intakeKey key)
    rw [if_neg hne] at hfind
    rw [OperationsTable.find_settle, hfind]
    cases hop : db.operations.find (intakeKey key) with
    | none => rw [operation?, hop]; rfl
    | some op =>
      have hid : op.id ≠ met.drawn.operationId := by
        unfold OperationsTable.insert at hinsert
        split_ifs at hinsert with hfree
        intro hsame
        refine hfree.1 (List.mem_map.mpr ⟨op, OperationsTable.mem_of_find hop, hsame⟩)
      rw [operation?, hop, Option.map_some, if_neg hid]

/-- An accepted inquiry is there afterwards, and the others stay. -/
theorem inquiry_received {request : Request} {met : Met} {data data' : IntakeData}
    {outcome : JsonValue} (h : receive site request met data = .ok (outcome, data')) :
    ∃ row : InquiryRow, row.payloadDigest = request.hash site
      ∧ row.receiptSessionHash = request.session site
      ∧ data.inquiries.get? request.submissionKey = none
      ∧ ∀ key, data'.inquiries.get? key
        = if key = request.submissionKey then some row else data.inquiries.get? key := by
  obtain ⟨row, hkey, hdigest, hsession, hinsert⟩ := receive_ok h
  refine ⟨row, hdigest, hsession, hkey ▸ Table.get?_of_insert? hinsert, fun key => ?_⟩
  rw [show data'.inquiries = data.inquiries.put row from ?_, Table.get?_put, hkey]
  · simp only [eq_comm]
  · unfold Table.insert? at hinsert
    rw [Table.get?_of_insert? hinsert] at hinsert
    exact (Option.some.inj hinsert).symm

/-! ## The invariant -/

/-- **What every reached state satisfies**: an operation that succeeded has its
inquiry, an inquiry its operation, and a settled submission its success. -/
structure IntakeInv (site : Site) (w : World) : Prop where
  stored : ∀ key op, operation? w.db key = some op → op.status = .succeeded →
    ∃ row, w.inquiry? key = some row ∧ row.payloadDigest = op.requestHash
  backed : ∀ key row, w.inquiry? key = some row → ∃ op, operation? w.db key = some op
  settled : ∀ id request value, w.flights id = some ⟨request, .settled value⟩ →
    ∃ op, operation? w.db request.submissionKey = some op ∧ op.status = .succeeded
      ∧ op.requestHash = request.hash site

theorem IntakeInv.of_opened {w : World} (h : Opened w) : IntakeInv site w where
  stored key op hop := absurd ((h.1 key).symm.trans hop) (by simp)
  backed key row hrow := absurd ((h.2.1 key).symm.trans hrow) (by simp)
  settled id request value hflight := absurd ((h.2.2 id).symm.trans hflight) (by simp)

/-- What leaves operations and inquiries alone keeps the invariant, if what it
settles succeeded. -/
theorem IntakeInv.of_same {w w' : World} {P : Request → OperationSuccess → Prop}
    (h : IntakeInv site w) (hops : w'.db.operations = w.db.operations)
    (hinquiries : w'.db.data.inquiries = w.db.data.inquiries) (hsettles : SettlesOnly w w' P)
    (hP : ∀ request value, P request value → ∃ op, operation? w.db request.submissionKey = some op
      ∧ op.status = .succeeded ∧ op.requestHash = request.hash site) : IntakeInv site w' where
  stored key op hop hstatus := by
    unfold operation? at hop
    rw [hops] at hop
    obtain ⟨row, hrow, hdigest⟩ := h.stored key op hop hstatus
    exact ⟨row, (congrArg (Table.get? · key) hinquiries).trans hrow, hdigest⟩
  backed key row hrow := by
    unfold operation?
    rw [hops]
    exact h.backed key row ((congrArg (Table.get? · key) hinquiries).symm.trans hrow)
  settled id request value hflight := by
    unfold operation?
    rw [hops]
    rcases hsettles id request value hflight with hold | hnew
    · exact h.settled id request value hold
    · exact hP request value hnew

/-- **Every step keeps the invariant.** -/
theorem keeps_intakeInv : Keeps (step site) (fun _ => True) (IntakeInv site) := by
  intro w e _ h
  have hcase := step_cases site w e
  generalize step site w e = r at hcase ⊢
  obtain ⟨w', answered⟩ := r
  dsimp only at hcase ⊢
  cases hcase with
  | quiet _ _ hdb hsettles =>
    exact h.of_same (congrArg Db.operations hdb)
      (congrArg (fun db => db.data.inquiries) hdb) hsettles (fun _ _ hfalse => hfalse.elim)
  | published sources _ _ hdb hsettles =>
    exact h.of_same (by rw [hdb]) (by rw [hdb]) hsettles (fun _ _ hfalse => hfalse.elim)
  | executed request met answer _ hexec hcase hdb hsettles =>
    generalize hdb' : w'.db = db' at hcase
    cases hcase with
    | kept _ hok =>
      refine h.of_same (congrArg Db.operations hdb') (congrArg (fun db => db.data.inquiries) hdb')
        hsettles ?_
      rintro _ value ⟨rfl, hanswer⟩
      exact hok value hanswer
    | accepted table data outcome hnone hinsert hreceive =>
      obtain ⟨row, hdigest, -, hfree, hget⟩ := inquiry_received hreceive
      have hop := operation_settled data .succeeded outcome hinsert
      have hinquiry : ∀ key, w'.inquiry? key
          = if key = request.submissionKey then some row else w.inquiry? key := by
        intro key
        show w'.db.data.inquiries.get? key = _
        rw [hdb']
        exact hget key
      refine ⟨fun key op hkey hstatus => ?_, fun key row' hrow' => ?_, fun id r value hflight => ?_⟩
      · rw [hdb', hop] at hkey
        rw [hinquiry]
        split_ifs at hkey ⊢ with hsame
        · obtain rfl := Option.some.inj hkey
          exact ⟨row, rfl, hdigest⟩
        · exact h.stored key op hkey hstatus
      · rw [hinquiry] at hrow'
        rw [hdb', hop]
        split_ifs at hrow' ⊢ with hsame
        · exact ⟨_, rfl⟩
        · exact h.backed key row' hrow'
      · rw [hdb', hop]
        rcases hsettles id r value hflight with hold | ⟨rfl, -⟩
        · have hother : r.submissionKey ≠ request.submissionKey := by
            intro hsame
            obtain ⟨op, hold, -⟩ := h.settled id r value hold
            exact absurd (hnone.symm.trans (hsame ▸ hold)) (by simp)
          rw [if_neg hother]
          exact h.settled id r value hold
        · rw [if_pos rfl]
          exact ⟨_, rfl, rfl, rfl⟩
    | stored table outcome hlocked hnone hinsert hgone =>
      have hop := operation_settled w.db.data .failed outcome hinsert
      have hinquiry : ∀ key, w'.inquiry? key = w.inquiry? key := by
        intro key
        show w'.db.data.inquiries.get? key = _
        rw [hdb']
        rfl
      refine ⟨fun key op hkey hstatus => ?_, fun key row' hrow' => ?_, fun id r value hflight => ?_⟩
      · rw [hdb', hop] at hkey
        rw [hinquiry]
        split_ifs at hkey with hsame
        · obtain rfl := Option.some.inj hkey
          cases hstatus
        · exact h.stored key op hkey hstatus
      · rw [hinquiry] at hrow'
        rw [hdb', hop]
        split_ifs with hsame
        · exact ⟨_, rfl⟩
        · exact h.backed key row' hrow'
      · rw [hdb', hop]
        rcases hsettles id r value hflight with hold | ⟨-, hanswer⟩
        · obtain ⟨op, hop', hrest⟩ := h.settled id r value hold
          rw [if_neg (fun hsame => absurd (hnone.symm.trans (hsame ▸ hop')) (by simp))]
          exact ⟨op, hop', hrest⟩
        · cases hanswer

/-! ## The laws of one step -/

theorem Executing.unique {w : World} {e : Event} {request request' : Request} {met met' : Met}
    (h : Executing w e request met) (h' : Executing w e request' met') :
    request = request' ∧ met = met' := by
  obtain ⟨id, rfl, hflight⟩ := h
  obtain ⟨id', he, hflight'⟩ := h'
  obtain ⟨rfl, rfl⟩ := Event.transact.inj he
  exact ⟨congrArg Flight.request (Option.some.inj (hflight.symm.trans hflight')), rfl⟩

/-- The step of a transaction is that transaction. -/
theorem step_executing (site : Site) {w : World} {e : Event} {request : Request} {met : Met}
    (h : Executing w e request met) :
    (step site w e).fst.db = (transact site request met w.db).fst
      ∧ (step site w e).snd = errorAnswer (transact site request met w.db).snd := by
  obtain ⟨id, rfl, hflight⟩ := h
  show (commit site w id met).fst.db = _ ∧ (commit site w id met).snd = _
  unfold commit
  rw [hflight]
  dsimp only
  cases (transact site request met w.db).snd with
  | ok value => exact ⟨rfl, rfl⟩
  | error error => exact ⟨rfl, rfl⟩

/-- **What a step does to the inquiries**: nothing, or it is the acceptance of a
call, which brings the inquiry of its key. -/
theorem step_inquiries (site : Site) (w : World) (e : Event) :
    (∀ key, (step site w e).fst.inquiry? key = w.inquiry? key)
      ∨ ∃ request row, Accepts (moment (step site) w e) request row
        ∧ row.payloadDigest = request.hash site ∧ row.receiptSessionHash = request.session site
        ∧ operation? w.db request.submissionKey = none
        ∧ ∀ key, (step site w e).fst.inquiry? key
          = if key = request.submissionKey then some row else w.inquiry? key := by
  have hcase := step_cases site w e
  have hsame : ∀ w' : World, w'.db.data.inquiries = w.db.data.inquiries →
      ∀ key, w'.inquiry? key = w.inquiry? key := fun w' h key => congrArg (Table.get? · key) h
  generalize hr : step site w e = r at hcase ⊢
  obtain ⟨w', answered⟩ := r
  dsimp only at hcase ⊢
  cases hcase with
  | quiet _ _ hdb => exact Or.inl (hsame w' (by rw [hdb]))
  | published sources _ he hdb => exact Or.inl (hsame w' (by rw [hdb]))
  | executed request met answer _ hexec hcase =>
    generalize hdb' : w'.db = db' at hcase
    cases hcase with
    | kept => exact Or.inl (hsame w' (by rw [hdb']))
    | stored => exact Or.inl (hsame w' (by rw [hdb']))
    | accepted table data outcome hnone hinsert hreceive =>
      obtain ⟨row, hdigest, hsession, hfree, hget⟩ := inquiry_received hreceive
      have hinquiry : ∀ key, w'.inquiry? key
          = if key = request.submissionKey then some row else w.inquiry? key := by
        intro key
        show w'.db.data.inquiries.get? key = _
        rw [hdb']
        exact hget key
      refine Or.inr ⟨request, row, ⟨⟨met, hexec⟩, hfree, ?_⟩, hdigest, hsession, hnone, hinquiry⟩
      show (step site w e).fst.inquiry? request.submissionKey = some row
      rw [hr, hinquiry, if_pos rfl]

/-- **An inquiry is never replaced.** -/
theorem step_kept {w : World} (e : Event) {key : String} {row : InquiryRow}
    (h : w.inquiry? key = some row) : (step site w e).fst.inquiry? key = some row := by
  rcases step_inquiries site w e with hsame | ⟨request, _, hacc, -, -, -, hinquiry⟩
  · rw [hsame, h]
  · rw [hinquiry, if_neg, h]
    rintro rfl
    exact absurd (hacc.2.1.symm.trans h) (by simp)

/-- **An accepted call records its digest and its session.** -/
theorem step_recorded {w : World} {e : Event} {request : Request} {row : InquiryRow}
    (h : Accepts (moment (step site) w e) request row) :
    row.payloadDigest = request.hash site ∧ row.receiptSessionHash = request.session site := by
  obtain ⟨⟨met, hexec⟩, hbefore, hafter⟩ := h
  rcases step_inquiries site w e with
    hsame | ⟨request', row', ⟨⟨met', hexec'⟩, -, hafter'⟩, hdigest, hsession, -, -⟩
  · exact absurd ((hsame _).symm.trans hafter |>.symm.trans hbefore) (by simp)
  · obtain ⟨rfl, -⟩ := hexec.unique hexec'
    obtain rfl := Option.some.inj (hafter.symm.trans hafter')
    exact ⟨hdigest, hsession⟩

/-- **An inquiry was there before, or the step is its acceptance.** -/
theorem step_origin {w : World} {e : Event} {key : String} {row : InquiryRow}
    (h : (step site w e).fst.inquiry? key = some row) :
    w.inquiry? key = some row
      ∨ ∃ request, Accepts (moment (step site) w e) request row ∧ request.submissionKey = key := by
  rcases step_inquiries site w e with hsame | ⟨request, row', hacc, -, -, -, hinquiry⟩
  · exact Or.inl ((hsame key).symm.trans h)
  · rw [hinquiry] at h
    split_ifs at h with hkey
    · obtain rfl := Option.some.inj h
      exact Or.inr ⟨request, hacc, hkey.symm⟩
    · exact Or.inl h

/-- **Only the receipt answers a success**, and it is read of a settled submission. -/
theorem respond_of_ok {w : World} {e : Event} {request : Request} {submitted : SubmittedInquiry}
    (h : Answers (moment (step site) w e) request (.ok submitted)) :
    ∃ id value, w.flights id = some ⟨request, .settled value⟩
      ∧ readInquiryReceipt site w.db.data request.submissionKey request.context.receiptSession
        = .ok submitted.receipt := by
  obtain ⟨⟨id, phase, hcall, hflight⟩, hout⟩ := h
  have hflight' : w.flights id = some ⟨request, phase⟩ := hflight
  have hout' : (step site w e).snd = some (.ok submitted) := hout
  cases e with
  | publish sources => cases hcall
  | arrive id' input context =>
    obtain rfl : id' = id := Option.some.inj hcall
    change (arrive site w id' input context).snd = _ at hout'
    unfold arrive at hout'
    rw [hflight'] at hout'
    cases hout'
  | check id' viewing service limited =>
    obtain rfl : id' = id := Option.some.inj hcall
    change (check site w id' viewing service limited).snd = _ at hout'
    unfold check at hout'
    rw [hflight'] at hout'
    cases phase with
    | checking =>
      dsimp only at hout'
      split at hout' <;> cases hout'
    | _ => cases hout'
  | transact id' met =>
    obtain rfl : id' = id := Option.some.inj hcall
    change (commit site w id' met).snd = _ at hout'
    unfold commit at hout'
    rw [hflight'] at hout'
    cases phase with
    | ready =>
      dsimp only at hout'
      split at hout' <;> cases hout'
    | _ => cases hout'
  | respond id' =>
    obtain rfl : id' = id := Option.some.inj hcall
    change (respond site w id').snd = _ at hout'
    unfold respond at hout'
    rw [hflight'] at hout'
    cases phase with
    | settled value =>
      refine ⟨id', value, hflight', ?_⟩
      cases hread : readInquiryReceipt site w.db.data request.submissionKey
          request.context.receiptSession with
      | error error =>
        dsimp only at hout'
        rw [hread] at hout'
        cases hout'
      | ok receipt =>
        dsimp only at hout'
        rw [hread] at hout'
        obtain rfl := Except.ok.inj (Option.some.inj hout')
        rfl
    | _ => cases hout'

/-- **A receipt that is read** is that of the inquiry of the key, for its session. -/
theorem readInquiryReceipt_ok {data : IntakeData} {key session : String} {receipt : InquiryReceipt}
    (h : readInquiryReceipt site data key session = .ok receipt) :
    ∃ row, data.inquiries.get? key = some row
      ∧ row.receiptSessionHash = receiptSessionHash site session
      ∧ receipt = withCurrentPublication site data.sources (toReceipt site row) := by
  unfold readInquiryReceipt at h
  split_ifs at h
  split at h
  · cases h
  · next row hrow =>
    split_ifs at h with hsession
    exact ⟨row, hrow, hsession, (Except.ok.inj h).symm⟩

/-- **A call succeeds with the payload and the session of its inquiry.** -/
theorem step_succeeded {w : World} {e : Event} (hinv : IntakeInv site w) {request : Request}
    {submitted : SubmittedInquiry}
    (h : Answers (moment (step site) w e) request (.ok submitted)) :
    ∃ row, w.inquiry? request.submissionKey = some row
      ∧ row.payloadDigest = request.hash site ∧ row.receiptSessionHash = request.session site
      ∧ submitted.receipt = withCurrentPublication site w.db.data.sources (toReceipt site row) := by
  obtain ⟨id, value, hflight, hread⟩ := respond_of_ok h
  obtain ⟨row, hrow, hsession, hreceipt⟩ := readInquiryReceipt_ok hread
  obtain ⟨op, hop, hstatus, hhash⟩ := hinv.settled id request value hflight
  obtain ⟨row', hrow', hdigest⟩ := hinv.stored _ op hop hstatus
  obtain rfl := Option.some.inj (hrow.symm.trans hrow')
  exact ⟨row, hrow, hdigest.trans hhash, hsession, hreceipt⟩

/-! ## Refusals -/

/-- **A refusal leaves nothing behind**, unless the listing disappeared between the
check and the operation. -/
theorem step_refused {w : World} {e : Event}
    (hlisted : ¬ DisappearsBetween site (moment (step site) w e)) {request : Request}
    {error : Thrown JsonValue} (h : Answers (moment (step site) w e) request (.error error)) :
    (step site w e).fst.db = w.db := by
  have hout : (step site w e).snd = some (.error error) := h.2
  have hcase := step_cases site w e
  generalize step site w e = r at hcase hout ⊢
  obtain ⟨w', answered⟩ := r
  dsimp only at hcase hout ⊢
  cases hcase with
  | quiet _ _ hdb => exact hdb
  | published => cases hout
  | executed request' met answer _ hexec hcase =>
    generalize hdb' : w'.db = db' at hcase ⊢
    cases hcase with
    | kept => rfl
    | accepted => cases hout
    | stored table outcome hlocked hnone hinsert hgone =>
      refine absurd ⟨request', met, hexec, hlocked, hnone, ?_, hgone⟩ hlisted
      unfold OperationsTable.insert at hinsert
      split_ifs at hinsert with hfree
      exact hfree.1

/-- A receipt whose id and key are free is inserted. -/
theorem insert_of_free {db : Db IntakeData} {request : Request} {met : Met}
    (hnone : operation? db request.submissionKey = none)
    (hid : met.drawn.operationId ∉ db.operations.rows.map OperationRow.id) :
    ∃ table, db.operations.insert (newReceipt (operationCall site request met)) = some table := by
  unfold OperationsTable.insert
  rw [dif_pos]
  · exact ⟨_, rfl⟩
  · refine ⟨hid, fun hkey => ?_⟩
    obtain ⟨op, hop, hsame⟩ := List.mem_map.mp hkey
    have hfind := OperationsTable.find_of_mem hop
    rw [hsame] at hfind
    exact absurd (hnone.symm.trans hfind) (by simp)

/-- **Where the listing disappeared**, the operation is stored all the same. -/
theorem stored_of_disappears {w : World} {e : Event}
    (h : DisappearsBetween site (moment (step site) w e)) :
    ∃ request, Answers (moment (step site) w e) request (.error listingNotFound)
      ∧ (step site w e).fst.db ≠ w.db := by
  obtain ⟨request, met, hexec, hlocked, hnone, hid, hgone⟩ := h
  obtain ⟨table, hinsert⟩ := insert_of_free hnone hid
  obtain ⟨outcome, htransact⟩ := transact_of_disappeared hlocked hnone hinsert hgone
  obtain ⟨hdb, hout⟩ := step_executing site hexec
  obtain ⟨id, he, hflight⟩ := hexec
  refine ⟨request, ⟨⟨id, .ready, ?_, hflight⟩, ?_⟩, fun hsame => ?_⟩
  · exact congrArg Event.call he
  · exact hout.trans (congrArg (fun r => errorAnswer r.snd) htransact)
  · have hop := operation_settled w.db.data .failed outcome hinsert request.submissionKey
    rw [if_pos rfl] at hop
    change transact site request met w.db = _ at htransact
    have hleft : (transact site request met w.db).fst = w.db := hdb.symm.trans hsame
    rw [htransact] at hleft
    exact absurd (hnone.symm.trans ((congrArg (operation? · _) hleft).symm.trans hop)) (by simp)

/-! ## Corrections -/

/-- No operation failed: every operation of a submission succeeded. -/
def NoneFailed (w : World) : Prop :=
  ∀ key op, operation? w.db key = some op → op.status = .succeeded

/-- **No operation fails**, unless a listing disappeared between its check and the
operation. -/
theorem step_noneFailed {w : World} {e : Event}
    (hlisted : ¬ DisappearsBetween site (moment (step site) w e)) (h : NoneFailed w) :
    NoneFailed (step site w e).fst := by
  have hcase := step_cases site w e
  generalize step site w e = r at hcase ⊢
  obtain ⟨w', answered⟩ := r
  dsimp only at hcase ⊢
  have hsame : w'.db.operations = w.db.operations → NoneFailed w' := by
    intro hops key op hop
    unfold operation? at hop
    rw [hops] at hop
    exact h key op hop
  cases hcase with
  | quiet _ _ hdb => exact hsame (by rw [hdb])
  | published sources _ he hdb => exact hsame (by rw [hdb])
  | executed request met answer _ hexec hcase =>
    generalize hdb' : w'.db = db' at hcase
    cases hcase with
    | kept => exact hsame (by rw [hdb'])
    | accepted table data outcome hnone hinsert =>
      intro key op hop
      rw [hdb', operation_settled data .succeeded outcome hinsert] at hop
      split_ifs at hop
      · obtain rfl := Option.some.inj hop
        rfl
      · exact h key op hop
    | stored table outcome hlocked hnone hinsert hgone =>
      refine absurd ⟨request, met, hexec, hlocked, hnone, ?_, hgone⟩ hlisted
      unfold OperationsTable.insert at hinsert
      split_ifs at hinsert with hfree
      exact hfree.1

theorem insert?_of_free {κ ρ : Type} [DecidableEq κ] {key : ρ → κ} {t : Table κ ρ key} {r : ρ}
    (h : t.get? (key r) = none) : t.insert? r = some (t.put r) := by
  unfold Table.insert?
  rw [h]

/-- An acceptable submission whose key has no inquiry records one. -/
theorem receive_of_acceptable {w : World} {request : Request} {met : Met}
    (h : Acceptable site w request met) (hnone : w.inquiry? request.submissionKey = none) :
    ∃ outcome data, receive site request met w.db.data = .ok (outcome, data) := by
  obtain ⟨subjects, hreview⟩ := h.reviewed
  have hparty := insert?_of_free (r := newParty request met.drawn) h.party
  have hmethod := insert?_of_free (r := newMethod site request met.drawn) h.method
  have hinquiry : ∀ row : InquiryRow, row.submissionKey = request.submissionKey →
      row.id = met.drawn.inquiryId →
      row.reference = inquiryReference (utcYear (request.clock met.readings.recorded))
        (w.db.data.lastNumber (utcYear (request.clock met.readings.recorded)) + 1) →
      insertInquiry w.db.data.inquiries row = some (w.db.data.inquiries.put row) := by
    intro row hkey hid hreference
    unfold insertInquiry
    rw [if_neg, insert?_of_free ((congrArg _ hkey).trans hnone)]
    rw [List.any_eq_true]
    rintro ⟨other, hother, htaken⟩
    obtain ⟨hotherId, hotherReference⟩ := h.inquiry other hother
    rcases Bool.or_eq_true_iff.mp htaken with htaken | htaken
    · exact hotherId ((of_decide_eq_true htaken).trans hid)
    · exact hotherReference ((of_decide_eq_true htaken).trans hreference)
  unfold receive
  rw [hreview, Tx.ok_bind]
  unfold recordInquiry
  dsimp only
  rw [hparty, hmethod, hinquiry _ rfl rfl rfl,
    show Tx.demand (w.db.data.lastNumber (utcYear (request.clock met.readings.recorded)) + 1
      ≤ lastSequence) .other = .ok () from if_pos h.number]
  exact ⟨_, _, rfl⟩

/-- **A corrected submission is accepted.** -/
theorem step_corrected {w : World} {e : Event} (hinv : IntakeInv site w) (hclean : NoneFailed w)
    {request : Request} {met : Met} (hexec : Executing w e request met)
    (hnone : w.inquiry? request.submissionKey = none) (h : Acceptable site w request met) :
    ∃ row, Accepts (moment (step site) w e) request row := by
  have hop : operation? w.db request.submissionKey = none := by
    cases hop : operation? w.db request.submissionKey with
    | none => rfl
    | some op =>
      obtain ⟨row, hrow, -⟩ := hinv.stored _ op hop (hclean _ op hop)
      exact absurd (hnone.symm.trans hrow) (by simp)
  obtain ⟨table, hinsert⟩ := insert_of_free hop h.operationId
  obtain ⟨outcome, data, hreceive⟩ := receive_of_acceptable h hnone
  have htransact := transact_of_receive h.locked hop hinsert hreceive
  obtain ⟨row, -, -, -, hget⟩ := inquiry_received hreceive
  refine ⟨row, ⟨met, hexec⟩, hnone, ?_⟩
  show (step site w e).fst.db.data.inquiries.get? request.submissionKey = some row
  rw [(step_executing site hexec).1, htransact]
  exact (hget _).trans (if_pos rfl)

/-! ## The laws of every run -/

/-- **The intake keeps its laws in exactly the runs in which no listing disappears
between the check of a submission and its operation.** -/
theorem intakeLaws_iff (site : Site) (start : World) (hstart : Opened start)
    (events : List Event) :
    IntakeLaws site (history (step site) start events)
      ↔ ∀ m ∈ history (step site) start events, ¬ DisappearsBetween site m := by
  have hinv : IntakeInv site start := IntakeInv.of_opened hstart
  refine ⟨fun hlaws m hm hgone => ?_, fun hlisted => ?_⟩
  · rw [eq_moment_of_mem hm] at hgone
    obtain ⟨request, hanswer, hwritten⟩ := stored_of_disappears hgone
    rw [← eq_moment_of_mem hm] at hanswer
    have hkept := hlaws.refused m hm request _ hanswer
      (Or.inr ⟨rfl, _, List.mem_singleton_self _, Or.inr rfl⟩)
    rw [eq_moment_of_mem hm] at hkept
    exact hwritten hkept
  · have hsteps : ∀ m ∈ history (step site) start events,
        IntakeInv site m.before ∧ IntakeInv site m.after :=
      history_invariant keeps_intakeInv (fun _ _ => trivial) hinv
    obtain ⟨-, hclean⟩ := history_of_moments (C := fun m => ¬ DisappearsBetween site m)
      (P := NoneFailed) (fun s e => step_noneFailed) hlisted
      (fun key op hop => absurd ((hstart.1 key).symm.trans hop) (by simp))
    refine ⟨?_, ?_, ?_, ?_, ?_, ?_, ?_⟩
    · refine history_pairwise (E := fun _ => True) (P := fun _ => True)
        (Q := fun m s => ∀ request row, Accepts m request row →
          ∃ row', s.inquiry? request.submissionKey = some row')
        (fun _ _ _ _ => trivial) ?_ ?_ ?_ (fun _ _ => trivial) trivial
      · exact fun s e _ _ request row hacc => ⟨row, hacc.2.2⟩
      · intro m s e _ _ hQ request row hacc
        obtain ⟨row', hrow'⟩ := hQ request row hacc
        exact ⟨row', step_kept e hrow'⟩
      · intro m s e _ _ hQ request row request' row' hacc hacc' hkey
        obtain ⟨old, hold⟩ := hQ request row hacc
        have hnone := hacc'.2.1
        rw [hkey] at hnone
        exact absurd (hnone.symm.trans hold) (by simp)
    · intro m hm key row hrow
      rw [eq_moment_of_mem hm]
      exact step_kept m.event hrow
    · intro m hm request row hacc
      rw [eq_moment_of_mem hm] at hacc
      exact step_recorded hacc
    · intro past m future hsplit key row hrow
      rcases history_origin (Q := fun w => w.inquiry? key = some row)
        (A := fun m => ∃ request, Accepts m request row ∧ request.submissionKey = key)
        (fun s e h => step_origin h) hsplit hrow with hold | horigin
      · exact absurd ((hstart.2.1 key).symm.trans hold) (by simp)
      · exact horigin
    · intro m hm request submitted hanswer
      rw [eq_moment_of_mem hm] at hanswer
      exact step_succeeded (hsteps m hm).1 hanswer
    · intro m hm request error hanswer _
      have hlisted' := hlisted m hm
      rw [eq_moment_of_mem hm] at hanswer hlisted' ⊢
      exact step_refused hlisted' hanswer
    · intro m hm request met hexec hnone hacc
      obtain ⟨row, haccepts⟩ := step_corrected (hsteps m hm).1 (hclean m hm).1 hexec hnone hacc
      rw [← eq_moment_of_mem hm] at haccepts
      exact ⟨row, haccepts⟩

/-! ## A listing that is withdrawn in between -/

/-- A site whose keyed hashes start with zeros. -/
def sampleSite : Site where
  schemas := ⟨id, id, fun _ => true, fun _ => none⟩
  toLowerCase := id
  keyedHash text := String.ofList (List.replicate 32 '0') ++ text
  hashRequest payload := (payload.listingReference.getD "") ++ payload.message.getD ""
  wallClockAsUtc instant _ := instant
  canonicalOrigin := "https://example.test"
  indexable _ := false

/-- A key the site issued. -/
def sampleKey : String := String.ofList (List.replicate 43 'A' ++ '.' :: List.replicate 32 '0')

/-- A question, about a listing or about none. -/
def sampleInput (reference : Option String) : InquiryInput where
  submissionKey := sampleKey
  website := none
  payload := {
    purpose := .question
    locale := .bg
    name := none
    contact := ⟨.email, "a@b.test"⟩
    message := some "?"
    listingReference := reference
    selectedListings := none
    comparisonReferences := none
    ownerInput := none
    viewingPreferences := none
    contentReference := none
    serviceRequest := none
    observedManifestId := none
    criteria := none
    callbackWindow := none
    marketingOptIn := false }

/-- The context of the visitor. -/
def sampleContext : IntakeContext := ⟨"203.0.113.1", "session", none, none⟩

/-- The submission as it runs. -/
def sampleRequest (reference : Option String) : Request :=
  ⟨sampleKey, none, (sampleInput reference).payload.withCriteria none, sampleContext⟩

/-- A published listing. -/
def sampleListing : Search.PublishedListing where
  listingId := "listing"
  reference := "MS-00001"
  locale := .bg
  purpose := .sale
  propertyType := .apartment
  manifestId := "manifest"
  commercialState := .available
  availabilityConfirmedAt := none
  recordedAvailabilityReviewDueAt := none
  hasRecordedAvailabilityPolicy := false
  freshnessConflicting := false
  placeChain := []
  placeAliases := []
  facts := ⟨none, none, none, fun _ => none, fun _ => none⟩
  title := none

/-- What is public: the listing, or nothing. -/
def sampleSources (listed : Bool) : Sources where
  published _ _ := if listed then some sampleListing else none
  approved _ _ _ := none
  scope := none
  validateOffering _ := .ok ()
  operatingPolicy _ := .null

/-- A system that was just opened. -/
def sampleWorld : World where
  db := {
    operations := ⟨[], List.nodup_nil, List.nodup_nil⟩
    audit := []
    data := ⟨sampleSources true, Table.empty, Table.empty, Table.empty, fun _ => 0, [], [], []⟩ }
  buckets := Table.empty
  flights _ := none

/-- What the transactions of the sample meet. -/
def sampleMet (suffix : String) : Met where
  locked := true
  drawn := ⟨"operation" ++ suffix, "party" ++ suffix, "method" ++ suffix, "inquiry" ++ suffix⟩
  readings := ⟨0, 0, 0⟩
  completedAt := 0

/-- The visitor asks about the listing, which is withdrawn after the check. -/
def withdrawnEvents : List Event :=
  [.arrive 1 (sampleInput (some "MS-00001")) sampleContext, .check 1 0 0 0,
    .publish (sampleSources false), .transact 1 (sampleMet "-1")]

/-- A submission that passes the checks before the operation. -/
theorem check_of_passed {w : World} {id : ℕ} {request : Request} {viewing service limited : Instant}
    (hflight : w.flights id = some ⟨request, .checking⟩)
    (hpassed : (precheck site w.buckets w.db.data.sources request viewing service limited).snd
      = .ok ()) :
    check site w id viewing service limited =
      ({ w with
          buckets := (precheck site w.buckets w.db.data.sources request viewing service
            limited).fst }.move id request .ready, none) := by
  unfold check
  rw [hflight]
  dsimp only
  rw [hpassed]

/-- The sample is within the rate limit, and its listing is public before. -/
theorem precheck_sample :
    (precheck sampleSite Table.empty (sampleSources true) (sampleRequest (some "MS-00001")) 0 0
      0).snd = .ok () := by
  have hallowed : (RateLimit.consumeRateLimit sampleSite.keyedHash Table.empty
      ⟨.inquiryIp, "203.0.113.1", none, none, 0⟩).snd.allowed = true := by decide +kernel
  show (do
    Tx.demand ((RateLimit.consumeRateLimit sampleSite.keyedHash Table.empty
      ⟨.inquiryIp, "203.0.113.1", none, none, 0⟩).snd.allowed = true) (Tx.ofCode .rateLimited)
    _) = .ok ()
  rw [show Tx.demand (_ = true) _ = .ok () from if_pos hallowed]
  rfl

/-- The system when the sample runs its operation. -/
def withdrawnWorld : World :=
  { (({ sampleWorld.move 1 (sampleRequest (some "MS-00001")) .checking with
      buckets := (precheck sampleSite Table.empty (sampleSources true)
        (sampleRequest (some "MS-00001")) 0 0 0).fst }).move 1 (sampleRequest (some "MS-00001"))
        .ready) with
    db.data.sources := sampleSources false }

theorem refinementIssues_sample :
    refinementIssues sampleSite (sampleInput (some "MS-00001")) = [] := by decide

theorem arrive_sample :
    arrive sampleSite sampleWorld 1 (sampleInput (some "MS-00001")) sampleContext
      = (sampleWorld.move 1 (sampleRequest (some "MS-00001")) .checking, none) := by
  have hgate : acceptRequest sampleSite (sampleInput (some "MS-00001")) sampleContext
      = .ok (sampleRequest (some "MS-00001")) := by
    unfold acceptRequest
    dsimp only
    rw [refinementIssues_sample]
    rfl
  unfold arrive
  rw [hgate]
  rfl

theorem final_withdrawn :
    final (step sampleSite) sampleWorld (withdrawnEvents.take 3) = withdrawnWorld := by
  show (step sampleSite (check sampleSite (arrive sampleSite sampleWorld 1
    (sampleInput (some "MS-00001")) sampleContext).fst 1 0 0 0).fst
    (.publish (sampleSources false))).fst = _
  rw [arrive_sample, check_of_passed rfl precheck_sample]
  rfl

/-- **The listing is withdrawn between the check and the operation**: the form is
well formed and passes the check, and the refusal is stored under its key. -/
theorem not_intakeLaws_withdrawn :
    refinementIssues sampleSite (sampleInput (some "MS-00001")) = [] ∧ Opened sampleWorld
      ∧ ¬ IntakeLaws sampleSite (history (step sampleSite) sampleWorld withdrawnEvents) := by
  refine ⟨refinementIssues_sample, ⟨fun _ => rfl, fun _ => rfl, fun _ => rfl⟩, fun hlaws => ?_⟩
  have hmem : moment (step sampleSite) withdrawnWorld (.transact 1 (sampleMet "-1"))
      ∈ history (step sampleSite) sampleWorld withdrawnEvents := by
    rw [← final_withdrawn]
    exact List.mem_cons_of_mem _ (List.mem_cons_of_mem _ (List.mem_cons_of_mem _
      List.mem_cons_self))
  have hgone : DisappearsBetween sampleSite
      (moment (step sampleSite) withdrawnWorld (.transact 1 (sampleMet "-1"))) := by
    refine ⟨sampleRequest (some "MS-00001"), sampleMet "-1", ⟨1, rfl, rfl⟩, rfl, rfl, ?_,
      ⟨"MS-00001", rfl, rfl, rfl⟩, _, rfl⟩
    show (sampleMet "-1").drawn.operationId ∉ ([] : List Uuid)
    exact List.not_mem_nil
  obtain ⟨request, hanswer, hwritten⟩ := stored_of_disappears hgone
  exact hwritten (hlaws.refused _ hmem request listingNotFound hanswer
    (Or.inr ⟨rfl, _, List.mem_singleton_self _, Or.inr rfl⟩))

/-- The visitor asks about no listing, and the answer is lost and asked for again. -/
def acceptedEvents : List Event :=
  [.arrive 1 (sampleInput none) sampleContext, .check 1 0 0 0, .transact 1 (sampleMet "-1"),
    .arrive 2 (sampleInput none) sampleContext, .transact 2 (sampleMet "-2"), .respond 2]

/-- **A retry of a submission that names no listing.** -/
theorem intakeLaws_iff_retried :
    IntakeLaws sampleSite (history (step sampleSite) sampleWorld acceptedEvents)
      ↔ ∀ m ∈ history (step sampleSite) sampleWorld acceptedEvents,
        ¬ DisappearsBetween sampleSite m :=
  intakeLaws_iff sampleSite sampleWorld ⟨fun _ => rfl, fun _ => rfl, fun _ => rfl⟩ acceptedEvents

end Intake
