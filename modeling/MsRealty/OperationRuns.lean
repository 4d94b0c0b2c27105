import MsRealty.Operations

/-!
# Every order of calls leaves one outcome

The calls of one idempotency key and the reconciliations of any receipt, in
any serialised order. A receipt moves through a short life: there is none, it
is settled by its first execution – succeeded, failed, or parked as unknown –
and only reconciliation moves a parked one on. `runOperation_cases` says what
one call can do, `reconcileOperation_find` what one reconciliation does to the
receipt of a key, and everything about runs follows from these two: a receipt
that succeeded or failed is final, and a call that finds a receipt neither
runs its function nor writes anything.
-/

namespace Operations

open Runs

variable {S V : Type*}

/-- An event of a run. -/
inductive Event (S V : Type*) where
  /-- A call of `runOperation`. -/
  | call (call : Call S V)
  /-- A call of `reconcileOperation`. -/
  | reconcile (operationId : Uuid) (settlement : Settlement V) (now : Instant)

/-- What an event is answered with. -/
inductive Output (V : Type*) where
  | answered (answer : Answer V)
  | reconciled (result : Option Bool)

/-- **One transaction of the run.** -/
def step (serialise : V → Option JsonValue) (db : Db S) :
    Event S V → Db S × Output V
  | .call call =>
    let r := runOperation serialise db call
    (r.fst, .answered r.snd)
  | .reconcile operationId settlement now =>
    let r := reconcileOperation serialise db operationId settlement now
    (r.fst, .reconciled r.snd)

/-- A moment of a run of operations. -/
abbrev OperationMoment (S V : Type*) := Moment (Db S) (Event S V) (Output V)

/-- Whether the moment is a first execution that succeeded, the only one
whose effects are kept. -/
def committed (m : OperationMoment S V) : Bool :=
  match m.output with
  | .answered (.success value) => !value.replayed
  | _ => false

/-- The calls of a run are of one key, and none is an automated attempt. -/
def Event.ForKey (key : OperationKey) : Event S V → Prop
  | .call c => c.input.key = key ∧ isButlerOperation c.input = false
  | .reconcile _ _ _ => True

/-- No outcome the event can store is an object tagged as the success of an
automated attempt. -/
def Event.Untagged (serialise : V → Option JsonValue) : Event S V → Prop
  | .call c => ∀ context data value data' result,
      c.fn context data = .returned value data' →
      toJson serialise value = some result → storedButlerSuccess result = false
  | .reconcile _ (.succeeded outcome) _ => ∀ result,
      toJson serialise outcome = some result → storedButlerSuccess result = false
  | .reconcile _ (.failed _) _ => True

/-! ## What one call can do -/

/-- **What the first execution can do**: commit the effect, park the receipt,
store a failure, or roll everything back. -/
inductive ExecuteCase (serialise : V → Option JsonValue) (db : Db S)
    (call : Call S V) (table : OperationsTable) : Db S → Answer V → Prop
  | committed (value : Option V) (data : S) (result : JsonValue)
      (hfn : call.fn call.context db.data = .returned value data)
      (hjson : toJson serialise value = some result) :
      ExecuteCase serialise db call table
        { db with
          operations := table.settle call.freshId .succeeded result call.now
          data := data }
        (.success ⟨call.freshId, false, some result, none⟩)
  | parked (code : ErrorCode) :
      ExecuteCase serialise db call table
        { db with
          operations := table.settle call.freshId .outcomeUnknown
            (StoredFailure.toJson ⟨code, none, none⟩) call.now }
        (.failed (AppError.ofCode .outcomeUnknown))
  | stored (stored : StoredFailure) :
      ExecuteCase serialise db call table
        { db with
          operations := table.settle call.freshId .failed stored.toJson call.now }
        (.failed ⟨stored.code, stored.code.outcome, stored.fieldErrors,
          stored.current⟩)
  | rolledBack (error : Thrown V) :
      ExecuteCase serialise db call table db (.rolledBack error)

theorem execute_cases (serialise : V → Option JsonValue) (db : Db S)
    (call : Call S V) (table : OperationsTable) :
    ExecuteCase serialise db call table (execute serialise db call table).fst
      (execute serialise db call table).snd := by
  unfold execute
  split
  · next value data hfn =>
    split
    · exact .rolledBack .other
    · next result hjson => exact .committed value data result hfn hjson
  · exact .rolledBack .other
  · next failure hfn =>
    split_ifs with hunknown hretryable
    · exact .parked failure.code
    · exact .rolledBack (.appError failure)
    · split
      · exact .rolledBack .other
      · dsimp only
        rw [failureError_toJson]
        exact .stored _

/-- **What a call of a key can do**: nothing, where the key is locked, used
for another request or already has a receipt, and otherwise what its first
execution does. -/
inductive CallCase (serialise : V → Option JsonValue) (db : Db S)
    (call : Call S V) : Db S → Answer V → Prop
  | busy (hlocked : call.locked = false) :
      CallCase serialise db call db (.failed (AppError.ofCode .operationPending))
  | reused (row : OperationRow) (hlocked : call.locked = true)
      (hrow : db.operations.find call.input.key = some row)
      (hhash : row.requestHash ≠ call.input.requestHash) :
      CallCase serialise db call db
        (.failed (AppError.ofCode .idempotencyKeyReused))
  | replayed (row : OperationRow) (hlocked : call.locked = true)
      (hrow : db.operations.find call.input.key = some row)
      (hhash : row.requestHash = call.input.requestHash) :
      CallCase serialise db call db (replayAnswer false row)
  | refused (hnone : db.operations.find call.input.key = none) :
      CallCase serialise db call db (.rolledBack .other)
  | executed (table : OperationsTable) (db' : Db S) (answer : Answer V)
      (hnone : db.operations.find call.input.key = none)
      (hinsert : db.operations.insert (newReceipt call) = some table)
      (h : ExecuteCase serialise db call table db' answer) :
      CallCase serialise db call db' answer

theorem runOperation_cases (serialise : V → Option JsonValue) (db : Db S)
    (call : Call S V) (hauto : isButlerOperation call.input = false) :
    CallCase serialise db call (runOperation serialise db call).fst
      (runOperation serialise db call).snd := by
  unfold runOperation
  cases hlocked : call.locked with
  | false => exact .busy hlocked
  | true =>
    simp only [Bool.not_true, Bool.false_eq_true, if_false, hauto]
    cases hrow : db.operations.find call.input.key with
    | none =>
      simp only [Option.map_none, decideReplay]
      cases hinsert : db.operations.insert (newReceipt call) with
      | none => exact .refused hrow
      | some table =>
        exact .executed table _ _ hrow hinsert (execute_cases serialise db call table)
    | some row =>
      simp only [Option.map_some, decideReplay, OperationRow.receipt]
      by_cases hhash : row.requestHash = call.input.requestHash
      · rw [if_neg (not_not_intro hhash)]
        split_ifs <;> exact .replayed row hlocked hrow hhash
      · rw [if_pos hhash]
        exact .reused row hlocked hrow hhash

/-- **A call that finds a receipt does nothing**: it writes nothing, and what
it answers does not depend on its function, which is not run. -/
theorem runOperation_of_receipt (serialise : V → Option JsonValue) (db : Db S)
    (call : Call S V) (fn : OperationContext → S → Effect S V)
    (hauto : isButlerOperation call.input = false) {row : OperationRow}
    (hrow : db.operations.find call.input.key = some row) :
    (runOperation serialise db call).fst = db
      ∧ runOperation serialise db { call with fn := fn }
        = runOperation serialise db call := by
  unfold runOperation
  simp only [hrow, hauto, Option.map_some, decideReplay, OperationRow.receipt]
  split_ifs <;> exact ⟨rfl, rfl⟩

/-- The receipt the first execution of a call settles. -/
theorem find_settle_insert {t table : OperationsTable} {call : Call S V}
    (hinsert : t.insert (newReceipt call) = some table) (status : OperationStatus)
    (outcome : JsonValue) :
    (table.settle call.freshId status outcome call.now).find call.input.key
      = some (OperationsTable.settleRow status outcome call.now
          (newReceipt call)) := by
  have hkey : (newReceipt call).key = call.input.key := rfl
  rw [OperationsTable.find_settle, OperationsTable.find_insert hinsert,
    if_pos hkey, Option.map_some]
  exact congrArg some (if_pos rfl)

/-! ## What one reconciliation can do -/

/-- **What a reconciliation can do to the receipt of a key**: nothing, or
settle it if it was awaiting reconciliation. The data is left alone. -/
inductive ReconcileCase (serialise : V → Option JsonValue) (db : Db S)
    (settlement : Settlement V) (key : OperationKey) : Db S → Prop
  | unchanged (db' : Db S) (hdata : db'.data = db.data)
      (hfind : db'.operations.find key = db.operations.find key) :
      ReconcileCase serialise db settlement key db'
  | settled (db' : Db S) (row : OperationRow) (status : OperationStatus)
      (outcome : JsonValue) (now : Instant) (hdata : db'.data = db.data)
      (hrow : db.operations.find key = some row)
      (hunknown : row.status = .outcomeUnknown)
      (hfind : db'.operations.find key
        = some (OperationsTable.settleRow status outcome now row))
      (hstatus : (status = .succeeded
          ∧ (((row.outcome.get? "current").bind
              (JsonValue.get? "butlerReceipt") = none) →
            ∃ value, settlement = .succeeded value
              ∧ toJson serialise value = some outcome))
        ∨ (status = .failed ∧ ∃ stored : StoredFailure, outcome = stored.toJson)) :
      ReconcileCase serialise db settlement key db'

/-- A reconciliation writes to one receipt, and only to one that awaits it. -/
theorem reconcileOperation_cases (serialise : V → Option JsonValue) (db : Db S)
    (operationId : Uuid) (settlement : Settlement V) (now : Instant)
    (key : OperationKey) :
    ReconcileCase serialise db settlement key
      (reconcileOperation serialise db operationId settlement now).fst := by
  unfold reconcileOperation
  split
  · exact .unchanged db rfl rfl
  next target htarget =>
  have hmem : target ∈ db.operations.rows := List.mem_of_find?_eq_some htarget
  obtain ⟨hid, hunknown⟩ : target.id = operationId
      ∧ target.status = .outcomeUnknown := by
    simpa using List.find?_some htarget
  -- settling the target changes the receipt of its own key and no other
  have hsettle : ∀ (db' : Db S) (status : OperationStatus) (outcome : JsonValue),
      db'.data = db.data →
      db'.operations = db.operations.settle operationId status outcome now →
      ((status = .succeeded
          ∧ (((target.outcome.get? "current").bind
              (JsonValue.get? "butlerReceipt") = none) →
            ∃ value, settlement = .succeeded value
              ∧ toJson serialise value = some outcome))
        ∨ (status = .failed ∧ ∃ stored : StoredFailure, outcome = stored.toJson)) →
      ReconcileCase serialise db settlement key db' := by
    intro db' status outcome hdata hops hstatus
    have hfind : db'.operations.find key = (db.operations.find key).map
        (fun row => if row.id = operationId
          then OperationsTable.settleRow status outcome now row else row) := by
      rw [hops, OperationsTable.find_settle]
    by_cases hkey : target.key = key
    · have hrow : db.operations.find key = some target :=
        hkey ▸ OperationsTable.find_of_mem hmem
      rw [hrow, Option.map_some, if_pos hid] at hfind
      exact .settled db' target status outcome now hdata hrow hunknown hfind hstatus
    · refine .unchanged db' hdata ?_
      cases hrow : db.operations.find key with
      | none => rw [hfind, hrow, Option.map_none]
      | some row =>
        have hne : row.id ≠ operationId := by
          intro heq
          have hsame : row = target := List.inj_on_of_nodup_map
            db.operations.primaryKey (OperationsTable.mem_of_find hrow) hmem
            (heq.trans hid.symm)
          exact hkey (hsame ▸ OperationsTable.find_key hrow)
        rw [hfind, hrow, Option.map_some, if_neg hne]
  cases settlement with
  | succeeded outcome =>
    dsimp only
    split
    · exact .unchanged db rfl rfl
    next result hjson =>
    refine hsettle _ .succeeded _ rfl rfl (Or.inl ⟨rfl, fun hprev => ?_⟩)
    rw [hprev]
    exact ⟨outcome, rfl, hjson⟩
  | failed code => exact hsettle _ .failed _ rfl rfl (Or.inr ⟨rfl, _, rfl⟩)

/-! ## What one step does to the receipt of a key -/

/-- A parked receipt carries the code of its failure and nothing else. -/
def IsParked (row : OperationRow) : Prop :=
  row.status = .outcomeUnknown
    ∧ ∃ code, row.outcome = StoredFailure.toJson ⟨code, none, none⟩

/-- A failed receipt carries a stored failure. -/
def IsFailed (row : OperationRow) : Prop :=
  row.status = .failed ∧ ∃ stored : StoredFailure, row.outcome = stored.toJson

/-- A succeeded receipt carries an outcome that is read back as it is. -/
def IsSucceeded (row : OperationRow) : Prop :=
  row.status = .succeeded ∧ storedButlerSuccess row.outcome = false

/-- **What a run leaves under its key**, once there is a receipt. -/
def WellStored (row : OperationRow) : Prop :=
  IsSucceeded row ∨ IsFailed row ∨ IsParked row

/-- **What one step does to the receipt of a key and to the data**: it keeps
both, it stores the outcome of the first execution, or it settles a parked
receipt. -/
inductive StepCase (serialise : V → Option JsonValue) (key : OperationKey)
    (db : Db S) (e : Event S V) : Prop
  | kept (hdata : (step serialise db e).fst.data = db.data)
      (hfind : (step serialise db e).fst.operations.find key
        = db.operations.find key)
      (hout : committed (moment (step serialise) db e) = false)
  | committed (call : Call S V) (value : Option V) (row : OperationRow)
      (hcall : e = .call call)
      (hnone : db.operations.find key = none)
      (hfind : (step serialise db e).fst.operations.find key = some row)
      (hrow : IsSucceeded row)
      (hfn : call.fn call.context db.data
        = .returned value (step serialise db e).fst.data)
      (hout : (step serialise db e).snd
        = .answered (.success ⟨row.id, false, some row.outcome, none⟩))
  | refused (row : OperationRow)
      (hnone : db.operations.find key = none)
      (hfind : (step serialise db e).fst.operations.find key = some row)
      (hrow : (IsFailed row ∧ ∃ error, failureError row.outcome = some error
          ∧ (step serialise db e).snd = .answered (.failed error))
        ∨ IsParked row ∧ ∃ error, (step serialise db e).snd
            = .answered (.failed error))
      (hdata : (step serialise db e).fst.data = db.data)
  | settled (row row' : OperationRow) (result : Option Bool)
      (hrow : db.operations.find key = some row) (hparked : IsParked row)
      (hfind : (step serialise db e).fst.operations.find key = some row')
      (hrow' : IsSucceeded row' ∨ IsFailed row')
      (hhash : row'.requestHash = row.requestHash)
      (hdata : (step serialise db e).fst.data = db.data)
      (hout : (step serialise db e).snd = .reconciled result)

/-- **A success that is replayed comes from a receipt that succeeded**, and
an outcome without the tag is answered as it is stored. -/
theorem replayAnswer_success {row : OperationRow} {value : OperationSuccess}
    (h : replayAnswer false row = (.success value : Answer V)) :
    row.status = .succeeded ∧ value.replayed = true ∧ value.operationId = row.id
      ∧ (storedButlerSuccess row.outcome = false →
        value.outcome = some row.outcome) := by
  unfold replayAnswer at h
  cases hs : row.status <;> simp only [hs] at h
  case succeeded =>
    split_ifs at h with htag
    · obtain rfl := Answer.success.inj h
      exact ⟨rfl, rfl, rfl, fun hf => absurd (htag.symm.trans hf) (by simp)⟩
    · obtain rfl := Answer.success.inj h
      exact ⟨rfl, rfl, rfl, fun _ => rfl⟩
  case failed => split at h <;> exact absurd h (by simp)
  all_goals exact absurd h (by simp)

/-- **What a call does to the data**: nothing, and then it does not answer a
fresh success, or what its function did, and then it does. -/
theorem runOperation_data (serialise : V → Option JsonValue) (db : Db S)
    (call : Call S V) (hauto : isButlerOperation call.input = false) :
    ((runOperation serialise db call).fst.data = db.data
        ∧ ∀ value, (runOperation serialise db call).snd = .success value →
          value.replayed = true)
      ∨ ∃ value, call.fn call.context db.data
          = .returned value (runOperation serialise db call).fst.data := by
  have hcases := runOperation_cases serialise db call hauto
  generalize runOperation serialise db call = r at hcases ⊢
  obtain ⟨db', answer⟩ := r
  cases hcases with
  | busy _ => exact Or.inl ⟨rfl, fun _ h => by cases h⟩
  | reused _ _ _ _ => exact Or.inl ⟨rfl, fun _ h => by cases h⟩
  | replayed row _ _ _ => exact Or.inl ⟨rfl, fun _ h => (replayAnswer_success h).2.1⟩
  | refused _ => exact Or.inl ⟨rfl, fun _ h => by cases h⟩
  | executed table _ _ _ _ h =>
    cases h with
    | committed value data result hfn _ => exact Or.inr ⟨value, hfn⟩
    | parked _ => exact Or.inl ⟨rfl, fun _ h => by cases h⟩
    | stored _ => exact Or.inl ⟨rfl, fun _ h => by cases h⟩
    | rolledBack _ => exact Or.inl ⟨rfl, fun _ h => by cases h⟩

/-- A replayed answer is never a fresh success. -/
theorem committed_of_replay {m : OperationMoment S V} {row : OperationRow}
    (h : m.output = .answered (replayAnswer false row)) : committed m = false := by
  unfold committed
  rw [h]
  cases hr : (replayAnswer false row : Answer V) with
  | success value => simp [(replayAnswer_success hr).2.1]
  | failed error => rfl
  | rolledBack error => rfl

theorem step_cases (serialise : V → Option JsonValue) (key : OperationKey)
    (db : Db S) (e : Event S V) (hkey : e.ForKey key)
    (htag : e.Untagged serialise)
    (hstored : ∀ row, db.operations.find key = some row → WellStored row) :
    StepCase serialise key db e := by
  cases e with
  | call call =>
    obtain ⟨rfl, hauto⟩ := hkey
    have hcase := runOperation_cases serialise db call hauto
    generalize hr : runOperation serialise db call = r at hcase
    obtain ⟨db', answer⟩ := r
    have hstep : step serialise db (.call call) = (db', .answered answer) := by
      show ((runOperation serialise db call).fst, _) = _
      rw [hr]
    dsimp only at hcase
    -- a transaction that writes nothing keeps the receipt and the data
    have hkept : db' = db →
        committed (moment (step serialise) db (.call call)) = false →
        StepCase serialise call.input.key db (.call call) := by
      rintro rfl hout
      exact .kept (by rw [hstep]) (by rw [hstep]) hout
    have hout : (moment (step serialise) db (.call call)).output
        = .answered answer := by
      show (step serialise db (.call call)).snd = _
      rw [hstep]
    cases hcase with
    | busy => exact hkept rfl (by unfold committed; rw [hout])
    | reused => exact hkept rfl (by unfold committed; rw [hout])
    | replayed row => exact hkept rfl (committed_of_replay hout)
    | refused => exact hkept rfl (by unfold committed; rw [hout])
    | executed table _ _ hnone hinsert h =>
      cases h with
      | committed value data result hfn hjson =>
        refine .committed call value _ rfl hnone
          (by rw [hstep]; exact find_settle_insert hinsert _ _)
          ⟨rfl, htag _ _ _ _ _ hfn hjson⟩ (by rw [hstep]; exact hfn)
          (by rw [hstep]; rfl)
      | parked code =>
        exact .refused _ hnone
          (by rw [hstep]; exact find_settle_insert hinsert _ _)
          (Or.inr ⟨⟨rfl, code, rfl⟩, _, by rw [hstep]⟩) (by rw [hstep])
      | stored stored =>
        exact .refused _ hnone
          (by rw [hstep]; exact find_settle_insert hinsert _ _)
          (Or.inl ⟨⟨rfl, stored, rfl⟩, _, failureError_toJson stored,
            by rw [hstep]⟩)
          (by rw [hstep])
      | rolledBack error => exact hkept rfl (by unfold committed; rw [hout])
  | reconcile operationId settlement now =>
    have hstep : step serialise db (.reconcile operationId settlement now)
        = ((reconcileOperation serialise db operationId settlement now).fst,
          .reconciled
            (reconcileOperation serialise db operationId settlement now).snd) := rfl
    cases reconcileOperation_cases serialise db operationId settlement now key with
    | unchanged hdata hfind => exact .kept hdata hfind rfl
    | settled row status outcome at_ hdata hrow hunknown hfind hstatus =>
      have hparked : IsParked row := by
        rcases hstored row hrow with h | h | h
        · exact absurd (h.1.symm.trans hunknown) (by simp)
        · exact absurd (h.1.symm.trans hunknown) (by simp)
        · exact h
      refine .settled row _ _ hrow hparked hfind ?_ rfl hdata (by rw [hstep])
      rcases hstatus with ⟨rfl, hjson⟩ | ⟨rfl, hfailed⟩
      · obtain ⟨code, hcode⟩ := hparked.2
        obtain ⟨value, rfl, hvalue⟩ := hjson (by
          rw [hcode]
          simp [StoredFailure.toJson, optionalMember, JsonValue.get?])
        exact Or.inl ⟨rfl, htag outcome hvalue⟩
      · exact Or.inr ⟨rfl, hfailed⟩

/-! ## What every run keeps -/

/-- **The invariant of a run of one key**: its receipt, once there is one, is
well stored, and the data is untouched unless that receipt succeeded. -/
def KeyInv (key : OperationKey) (start : S) (db : Db S) : Prop :=
  (∀ row, db.operations.find key = some row → WellStored row)
    ∧ (db.data = start
      ∨ ∃ row, db.operations.find key = some row ∧ IsSucceeded row)

/-- What the events of a run of one key satisfy. -/
def Admitted (serialise : V → Option JsonValue) (key : OperationKey)
    (e : Event S V) : Prop :=
  e.ForKey key ∧ e.Untagged serialise

variable {serialise : V → Option JsonValue} {key : OperationKey} {start : S}

theorem keeps_keyInv :
    Keeps (step serialise) (Admitted serialise key) (KeyInv key start) := by
  intro db e he hinv
  have hcase := step_cases serialise key db e he.1 he.2 hinv.1
  cases hcase with
  | kept hdata hfind =>
    refine ⟨fun row hrow => hinv.1 row (hfind ▸ hrow), ?_⟩
    rw [hdata, hfind]
    exact hinv.2
  | committed call value row hcall hnone hfind hrow =>
    refine ⟨fun row' hrow' => ?_, Or.inr ⟨row, hfind, hrow⟩⟩
    obtain rfl := Option.some.inj (hfind.symm.trans hrow')
    exact Or.inl hrow
  | refused row hnone hfind hrow hdata =>
    refine ⟨fun row' hrow' => ?_, ?_⟩
    · obtain rfl := Option.some.inj (hfind.symm.trans hrow')
      exact Or.inr (hrow.imp (fun h => h.1) (fun h => h.1))
    · rcases hinv.2 with h | ⟨row', hrow', -⟩
      · exact Or.inl (hdata.trans h)
      · exact absurd (hnone.symm.trans hrow') (by simp)
  | settled row row' result hrow hparked hfind hrow' hhash hdata =>
    refine ⟨fun row'' hrow'' => ?_, ?_⟩
    · obtain rfl := Option.some.inj (hfind.symm.trans hrow'')
      exact hrow'.imp id Or.inl
    · rcases hinv.2 with h | ⟨other, hother, hsucc⟩
      · exact Or.inl (hdata.trans h)
      · obtain rfl := Option.some.inj (hrow.symm.trans hother)
        exact absurd (hparked.1.symm.trans hsucc.1) (by simp)

/-- A receipt keeps its request hash. -/
theorem step_requestHash {db : Db S} {e : Event S V} (he : Admitted serialise key e)
    (hinv : KeyInv key start db) {hash : String}
    (h : ∃ row, db.operations.find key = some row ∧ row.requestHash = hash) :
    ∃ row, (step serialise db e).fst.operations.find key = some row
      ∧ row.requestHash = hash := by
  obtain ⟨row, hrow, rfl⟩ := h
  cases step_cases serialise key db e he.1 he.2 hinv.1 with
  | kept hdata hfind => exact ⟨row, hfind.trans hrow, rfl⟩
  | committed call value row' hcall hnone =>
    exact absurd (hnone.symm.trans hrow) (by simp)
  | refused row' hnone => exact absurd (hnone.symm.trans hrow) (by simp)
  | settled other row' result hother hparked hfind hrow' hhash =>
    obtain rfl := Option.some.inj (hrow.symm.trans hother)
    exact ⟨row', hfind, hhash⟩

/-- **A receipt that succeeded or failed is final.** -/
theorem step_final {db : Db S} {e : Event S V} (he : Admitted serialise key e)
    (hinv : KeyInv key start db) {row : OperationRow}
    (hrow : db.operations.find key = some row)
    (hstatus : row.status ≠ .outcomeUnknown) :
    (step serialise db e).fst.operations.find key = some row := by
  cases step_cases serialise key db e he.1 he.2 hinv.1 with
  | kept hdata hfind => exact hfind.trans hrow
  | committed call value row' hcall hnone =>
    exact absurd (hnone.symm.trans hrow) (by simp)
  | refused row' hnone => exact absurd (hnone.symm.trans hrow) (by simp)
  | settled other row' result hother hparked =>
    obtain rfl := Option.some.inj (hrow.symm.trans hother)
    exact absurd hparked.1 hstatus

/-- A call that finds a receipt, as a step: nothing is written, and the
function is not run. -/
theorem step_of_receipt {db : Db S} {call : Call S V}
    (he : Admitted serialise key (.call call)) {row : OperationRow}
    (hrow : db.operations.find key = some row)
    (fn : OperationContext → S → Effect S V) :
    (step serialise db (.call call)).fst = db
      ∧ step serialise db (.call { call with fn := fn })
        = step serialise db (.call call) := by
  obtain ⟨⟨rfl, hauto⟩, -⟩ := he
  obtain ⟨hdb, hfn⟩ := runOperation_of_receipt serialise db call fn hauto hrow
  refine ⟨hdb, ?_⟩
  show ((runOperation serialise db { call with fn := fn }).fst, _) = _
  rw [hfn]
  rfl

/-- The answer to a call that has the lock and finds a receipt: the stored
one for its own request, a conflict for another. -/
theorem answer_of_receipt {db : Db S} {call : Call S V}
    (he : Admitted serialise key (.call call)) (hlocked : call.locked = true)
    {row : OperationRow} (hrow : db.operations.find key = some row) :
    (step serialise db (.call call)).snd = .answered
      (if row.requestHash = call.input.requestHash then replayAnswer false row
        else .failed (AppError.ofCode .idempotencyKeyReused)) := by
  obtain ⟨⟨rfl, hauto⟩, -⟩ := he
  have hcase := runOperation_cases serialise db call hauto
  show Output.answered (runOperation serialise db call).snd = _
  generalize runOperation serialise db call = r at hcase
  obtain ⟨db', answer⟩ := r
  dsimp only at hcase ⊢
  cases hcase with
  | busy hbusy => exact absurd (hbusy.symm.trans hlocked) (by simp)
  | reused other _ hother hhash =>
    obtain rfl := Option.some.inj (hrow.symm.trans hother)
    rw [if_neg hhash]
  | replayed other _ hother hhash =>
    obtain rfl := Option.some.inj (hrow.symm.trans hother)
    rw [if_pos hhash]
  | refused hnone => exact absurd (hnone.symm.trans hrow) (by simp)
  | executed table _ _ hnone => exact absurd (hnone.symm.trans hrow) (by simp)

/-- **A success is the outcome of a receipt that succeeded.** -/
theorem success_stored {db : Db S} {e : Event S V} (he : Admitted serialise key e)
    (hinv : KeyInv key start db) {value : OperationSuccess}
    (h : (step serialise db e).snd = .answered (.success value)) :
    ∃ row, (step serialise db e).fst.operations.find key = some row
      ∧ IsSucceeded row ∧ value.outcome = some row.outcome
      ∧ value.operationId = row.id := by
  cases step_cases serialise key db e he.1 he.2 hinv.1 with
  | committed call _ row hcall hnone hfind hrow hfn hout =>
    obtain rfl := Answer.success.inj (Output.answered.inj (hout.symm.trans h))
    exact ⟨row, hfind, hrow, rfl, rfl⟩
  | refused row hnone hfind hrow =>
    rcases hrow with ⟨-, error, -, hout⟩ | ⟨-, error, hout⟩ <;>
      exact absurd (hout.symm.trans h) (by simp)
  | settled row row' result hrow hparked hfind hrow' hhash hdata hout =>
    exact absurd (hout.symm.trans h) (by simp)
  | kept hdata hfind hout =>
    cases e with
    | reconcile operationId settlement now => exact absurd h (by simp [step])
    | call call =>
      have hanswer : (runOperation serialise db call).snd = .success value :=
        Output.answered.inj h
      have hcase := runOperation_cases serialise db call he.1.2
      rw [hanswer] at hcase
      generalize hr : (runOperation serialise db call).fst = db' at hcase
      generalize hv : (Answer.success value : Answer V) = answer at hcase
      cases hcase with
      | replayed row hlocked hrow hhash =>
        obtain ⟨hstatus, -, hid, hout'⟩ := replayAnswer_success hv.symm
        rw [he.1.1] at hrow
        have hsucc : IsSucceeded row := by
          rcases hinv.1 row hrow with hrow' | hrow' | hrow'
          · exact hrow'
          · exact absurd (hrow'.1.symm.trans hstatus) (by simp)
          · exact absurd (hrow'.1.symm.trans hstatus) (by simp)
        exact ⟨row, hfind.trans hrow, hsucc, hout' hsucc.2, hid⟩
      | busy | reused | refused => exact absurd hv (by simp)
      | executed table _ _ hnone hinsert hexec =>
        cases hexec with
        | committed value' data result =>
          obtain rfl := Answer.success.inj hv
          exact absurd hout (by simp [committed, moment, step, hanswer])
        | parked | stored | rolledBack => exact absurd hv (by simp)

/-! ## The law -/

/-- **One outcome per key**: what the history of a run of one key satisfies,
from data `start` and no receipt. -/
structure OneOutcome (serialise : V → Option JsonValue) (key : OperationKey)
    (start : S) (h : List (OperationMoment S V)) : Prop where
  /-- The effects of the function are committed at most once. -/
  committed_once : h.countP committed ≤ 1
  /-- What is committed is what the function did to the data it met. -/
  committed_effect : ∀ m ∈ h, committed m = true → ∃ call value,
    m.event = .call call
      ∧ call.fn call.context m.before.data = .returned value m.after.data
  /-- Nothing else changes the data. -/
  data_kept : ∀ m ∈ h, committed m = false → m.after.data = m.before.data
  /-- A success is the outcome of the stored receipt. -/
  success_stored : ∀ m ∈ h, ∀ value, m.output = .answered (.success value) →
    ∃ row, m.after.operations.find key = some row ∧ row.status = .succeeded
      ∧ value.outcome = some row.outcome
  /-- Every two successes are of one operation and of one outcome. -/
  same_success : h.Pairwise (fun m m' => ∀ value value',
    m.output = .answered (.success value) →
    m'.output = .answered (.success value') →
    value.outcome = value'.outcome ∧ value.operationId = value'.operationId)
  /-- Once there is a receipt, a call with another request hash is a conflict,
  writes nothing and does not run its function. -/
  reused : h.Pairwise (fun m m' => ∀ row call,
    m.after.operations.find key = some row → m'.event = .call call →
    call.locked = true → call.input.requestHash ≠ row.requestHash →
    m'.output = .answered (.failed (AppError.ofCode .idempotencyKeyReused))
      ∧ m'.after = m'.before
      ∧ ∀ fn, step serialise m'.before (.call { call with fn := fn })
        = (m'.after, m'.output))
  /-- A receipt stored as failed has none of the effects committed. -/
  failed_no_effect : ∀ m ∈ h, ∀ row,
    m.after.operations.find key = some row → row.status = .failed →
    m.after.data = start
  /-- The call that stores a failure answers with it. -/
  failed_answer : ∀ m ∈ h, ∀ row call, m.event = .call call →
    m.before.operations.find key = none →
    m.after.operations.find key = some row → row.status = .failed →
    ∃ error, failureError row.outcome = some error
      ∧ m.output = .answered (.failed error)
  /-- Every later call with the hash of a failed receipt gets its code, its
  field errors and its current value. -/
  failed_replayed : h.Pairwise (fun m m' => ∀ row,
    m.after.operations.find key = some row → row.status = .failed →
    ∃ error, failureError row.outcome = some error
      ∧ ∀ call, m'.event = .call call → call.locked = true →
        call.input.requestHash = row.requestHash →
        m'.output = .answered (.failed error) ∧ m'.after = m'.before)
  /-- Once there is a receipt – in particular a parked one, before and after
  its reconciliation – no call runs its function again. -/
  not_executed_again : h.Pairwise (fun m m' => ∀ row call,
    m.after.operations.find key = some row → m'.event = .call call →
    m'.after = m'.before
      ∧ ∀ fn, step serialise m'.before (.call { call with fn := fn })
        = (m'.after, m'.output))

/-! Each clause of the law, for the runs of one key. -/

section Law

variable {db : Db S} {events : List (Event S V)}
  (hfresh : db.operations.find key = none)
  (hevents : ∀ e ∈ events, Admitted serialise key e)

include hfresh

theorem keyInv_start : KeyInv key db.data db :=
  ⟨fun row hrow => absurd (hfresh.symm.trans hrow) (by simp), Or.inl rfl⟩

include hevents

/-- The potential that pays for the one commit: there is no receipt yet. -/
def unsettled (key : OperationKey) (db : Db S) : ℕ :=
  if (db.operations.find key).isNone then 1 else 0

theorem countP_committed_le :
    (history (step serialise) db events).countP committed ≤ 1 := by
  refine (countP_history_le (unsettled key) committed keeps_keyInv
    (fun s e he hinv => ?_) hevents (keyInv_start hfresh)).trans ?_
  · cases step_cases serialise key s e he.1 he.2 hinv.1 with
    | kept hdata hfind hout => simp [unsettled, hfind, hout]
    | committed call value row hcall hnone hfind =>
      have hbefore : unsettled key s = 1 := by simp [unsettled, hnone]
      have hafter : unsettled key (step serialise s e).fst = 0 := by
        simp [unsettled, hfind]
      rw [hbefore, hafter]
      split <;> omega
    | refused row hnone hfind hrow =>
      have hout : committed (moment (step serialise) s e) = false := by
        rcases hrow with ⟨-, error, -, hout⟩ | ⟨-, error, hout⟩ <;>
          simp [committed, moment, hout]
      simp [unsettled, hnone, hfind, hout]
    | settled row row' result hrow hparked hfind hrow' hhash hdata hout =>
      simp [unsettled, hrow, hfind, committed, moment, hout]
  · unfold unsettled
    split <;> omega

theorem effect_of_committed : ∀ m ∈ history (step serialise) db events,
    committed m = true → ∃ call value, m.event = .call call
      ∧ call.fn call.context m.before.data = .returned value m.after.data := by
  refine history_forall keeps_keyInv (fun s e he hinv hcommitted => ?_) hevents
    (keyInv_start hfresh)
  cases step_cases serialise key s e he.1 he.2 hinv.1 with
  | kept _ _ hout => exact absurd (hout.symm.trans hcommitted) (by simp)
  | committed call value row hcall hnone hfind hrow hfn hout =>
    exact ⟨call, value, hcall, hfn⟩
  | refused row hnone hfind hrow =>
    rcases hrow with ⟨-, error, -, hout⟩ | ⟨-, error, hout⟩ <;>
      exact absurd hcommitted (by simp [committed, moment, hout])
  | settled row row' result hrow hparked hfind hrow' hhash hdata hout =>
    exact absurd hcommitted (by simp [committed, moment, hout])

theorem data_of_not_committed : ∀ m ∈ history (step serialise) db events,
    committed m = false → m.after.data = m.before.data := by
  refine history_forall keeps_keyInv (fun s e he hinv hout => ?_) hevents
    (keyInv_start hfresh)
  cases step_cases serialise key s e he.1 he.2 hinv.1 with
  | kept hdata => exact hdata
  | committed call value row hcall hnone hfind hrow hfn hout' =>
    exact absurd hout (by simp [committed, moment, hout'])
  | refused row hnone hfind hrow hdata => exact hdata
  | settled row row' result hrow hparked hfind hrow' hhash hdata => exact hdata

theorem pairwise_same_success :
    (history (step serialise) db events).Pairwise (fun m m' => ∀ value value',
      m.output = .answered (.success value) →
      m'.output = .answered (.success value') →
      value.outcome = value'.outcome ∧ value.operationId = value'.operationId) := by
  refine history_pairwise (Q := fun m s => ∀ value,
    m.output = .answered (.success value) →
      ∃ row, s.operations.find key = some row ∧ IsSucceeded row
        ∧ value.outcome = some row.outcome ∧ value.operationId = row.id)
    keeps_keyInv ?_ (fun m s e he hinv hQ value hout => ?_)
    (fun m s e he hinv hQ value value' hout hout' => ?_) hevents
    (keyInv_start hfresh)
  · exact fun s e he hinv value hout => success_stored he hinv hout
  · obtain ⟨row, hfind, hrow, hrest⟩ := hQ value hout
    exact ⟨row, step_final he hinv hfind (by rw [hrow.1]; simp), hrow, hrest⟩
  · obtain ⟨row, hfind, hrow, houtcome, hid⟩ := hQ value hout
    obtain ⟨row', hfind', hrow', houtcome', hid'⟩ := success_stored he hinv hout'
    have hsame := step_final he hinv hfind (by rw [hrow.1]; simp)
    obtain rfl := Option.some.inj (hsame.symm.trans hfind')
    exact ⟨houtcome.trans houtcome'.symm, hid.trans hid'.symm⟩

/-- **A receipt, once there is one, stays with its request hash**, so what a
step does to a receipt may be used at every later moment. -/
theorem pairwise_of_receipt {R : OperationMoment S V → OperationMoment S V → Prop}
    (huse : ∀ m s e, Admitted serialise key e →
      (∀ row, m.after.operations.find key = some row →
        ∃ row', s.operations.find key = some row'
          ∧ row'.requestHash = row.requestHash) →
      R m (moment (step serialise) s e)) :
    (history (step serialise) db events).Pairwise R := by
  refine history_pairwise (Q := fun m s => ∀ row,
    m.after.operations.find key = some row →
      ∃ row', s.operations.find key = some row'
        ∧ row'.requestHash = row.requestHash)
    keeps_keyInv (fun s e _ _ row hrow => ⟨row, hrow, rfl⟩) ?_
    (fun m s e he _ hQ => huse m s e he hQ) hevents (keyInv_start hfresh)
  intro m s e he hinv hQ row hrow
  exact step_requestHash he hinv (hQ row hrow)

theorem data_of_failed : ∀ m ∈ history (step serialise) db events, ∀ row,
    m.after.operations.find key = some row → row.status = .failed →
    m.after.data = db.data := by
  refine history_forall keeps_keyInv (fun s e he hinv row hrow hfailed => ?_)
    hevents (keyInv_start hfresh)
  rcases (keeps_keyInv s e he hinv).2 with hdata | ⟨row', hrow', hsucc⟩
  · exact hdata
  · obtain rfl := Option.some.inj (hrow.symm.trans hrow')
    exact absurd (hfailed.symm.trans hsucc.1) (by simp)

theorem answer_of_failed : ∀ m ∈ history (step serialise) db events, ∀ row call,
    m.event = .call call → m.before.operations.find key = none →
    m.after.operations.find key = some row → row.status = .failed →
    ∃ error, failureError row.outcome = some error
      ∧ m.output = .answered (.failed error) := by
  refine history_forall keeps_keyInv
    (fun s e he hinv row call hcall hnone hrow hfailed => ?_) hevents
    (keyInv_start hfresh)
  cases step_cases serialise key s e he.1 he.2 hinv.1 with
  | kept hdata hfind =>
    exact absurd ((hfind.trans hnone).symm.trans hrow) (by simp)
  | committed call' value row' hcall' hnone' hfind hrow' =>
    obtain rfl := Option.some.inj (hrow.symm.trans hfind)
    exact absurd (hfailed.symm.trans hrow'.1) (by simp)
  | refused row' hnone' hfind hrow' =>
    obtain rfl := Option.some.inj (hrow.symm.trans hfind)
    rcases hrow' with ⟨-, error, herror, hout⟩ | ⟨hparked, -⟩
    · exact ⟨error, herror, hout⟩
    · exact absurd (hfailed.symm.trans hparked.1) (by simp)
  | settled other row' result hother =>
    exact absurd (hnone.symm.trans hother) (by simp)

theorem pairwise_failed :
    (history (step serialise) db events).Pairwise (fun m m' => ∀ row,
      m.after.operations.find key = some row → row.status = .failed →
      ∃ error, failureError row.outcome = some error
        ∧ ∀ call, m'.event = .call call → call.locked = true →
          call.input.requestHash = row.requestHash →
          m'.output = .answered (.failed error) ∧ m'.after = m'.before) := by
  refine history_pairwise (Q := fun m s => ∀ row,
    m.after.operations.find key = some row → row.status = .failed →
      s.operations.find key = some row)
    keeps_keyInv (fun s e _ _ row hrow _ => hrow) ?_
    (fun m s e he hinv hQ row hrow hfailed => ?_) hevents (keyInv_start hfresh)
  · exact fun m s e he hinv hQ row hrow hfailed =>
      step_final he hinv (hQ row hrow hfailed) (by rw [hfailed]; simp)
  have hfind := hQ row hrow hfailed
  obtain ⟨stored, hstored⟩ : ∃ stored : StoredFailure,
      row.outcome = stored.toJson := by
    rcases hinv.1 row hfind with h | h | h
    · exact absurd (hfailed.symm.trans h.1) (by simp)
    · exact h.2
    · exact absurd (hfailed.symm.trans h.1) (by simp)
  refine ⟨_, by rw [hstored]; exact failureError_toJson stored,
    fun call hcall hlocked hhash => ?_⟩
  obtain rfl : e = .call call := hcall
  have hanswer := answer_of_receipt he hlocked hfind
  rw [if_pos hhash.symm] at hanswer
  refine ⟨hanswer.trans ?_, (step_of_receipt he hfind call.fn).1⟩
  simp only [replayAnswer, hfailed, hstored, failureError_toJson]

end Law

/-- **Every run of one key, in every order, leaves one outcome**, provided no
outcome it stores carries the tag of an automated success. -/
theorem oneOutcome_of_run (serialise : V → Option JsonValue) (key : OperationKey)
    (db : Db S) (events : List (Event S V))
    (hfresh : db.operations.find key = none)
    (hevents : ∀ e ∈ events, Admitted serialise key e) :
    OneOutcome serialise key db.data (history (step serialise) db events) where
  committed_once := countP_committed_le hfresh hevents
  committed_effect := effect_of_committed hfresh hevents
  data_kept := data_of_not_committed hfresh hevents
  success_stored := by
    refine history_forall keeps_keyInv (fun s e he hinv value hout => ?_) hevents
      (keyInv_start hfresh)
    obtain ⟨row, hfind, hrow, houtcome, -⟩ := success_stored he hinv hout
    exact ⟨row, hfind, hrow.1, houtcome⟩
  same_success := pairwise_same_success hfresh hevents
  reused := by
    refine pairwise_of_receipt hfresh hevents
      (fun m s e he hQ row call hrow hcall hlocked hhash => ?_)
    obtain ⟨row', hfind, hsame⟩ := hQ row hrow
    obtain rfl : e = .call call := hcall
    have hanswer := answer_of_receipt he hlocked hfind
    rw [if_neg (fun h => hhash (h.symm.trans hsame))] at hanswer
    exact ⟨hanswer, (step_of_receipt he hfind call.fn).1,
      fun fn => (step_of_receipt he hfind fn).2⟩
  failed_no_effect := data_of_failed hfresh hevents
  failed_answer := answer_of_failed hfresh hevents
  failed_replayed := pairwise_failed hfresh hevents
  not_executed_again := by
    refine pairwise_of_receipt hfresh hevents
      (fun m s e he hQ row call hrow hcall => ?_)
    obtain ⟨row', hfind, -⟩ := hQ row hrow
    obtain rfl : e = .call call := hcall
    exact ⟨(step_of_receipt he hfind call.fn).1,
      fun fn => (step_of_receipt he hfind fn).2⟩

/-- A call of a person's command `note.add` under the key `k-1`. -/
def noteCall (fn : OperationContext → ℕ → Effect ℕ JsonValue) :
    Call ℕ JsonValue where
  input := ⟨⟨.staff, "p-1"⟩, "note.add", "k-1", "h-1", none, none, false⟩
  fn := fn
  butlerCheck := fun _ _ => .error .other
  locked := true
  freshId := "op-1"
  now := 0

/-- A database without receipts. -/
def emptyDb : Db ℕ := ⟨⟨[], List.nodup_nil, List.nodup_nil⟩, [], 0⟩

/-- A command that adds one note, and its retry. -/
theorem oneOutcome_of_retry :
    OneOutcome some (noteCall (fun _ n => .returned none (n + 1))).input.key 0
      (history (step some) emptyDb
        [.call (noteCall (fun _ n => .returned none (n + 1))),
          .call (noteCall (fun _ n => .returned none (n + 1)))]) := by
  refine oneOutcome_of_run some _ emptyDb _ rfl (fun e he => ?_)
  have hcall : e = .call (noteCall (fun _ n => .returned none (n + 1))) := by
    simpa using he
  subst hcall
  refine ⟨⟨rfl, by decide⟩, fun _ data _ _ result hfn hjson => ?_⟩
  obtain ⟨rfl, -⟩ := Effect.returned.inj hfn
  obtain rfl := Option.some.inj hjson
  rfl

/-- A result that looks like the stored success of an automated attempt. -/
def taggedResult : JsonValue :=
  .obj [("kind", .str "butler_outcome_v1"), ("result", .str "first"),
    ("butlerReceipt", .null)]

/-- **A tagged result is answered in full by the first call and stripped by
the retry**: the two successes of the run differ. -/
theorem retry_of_taggedResult :
    ¬ OneOutcome some
      (noteCall (fun _ n => .returned (some taggedResult) n)).input.key 0
      (history (step some) emptyDb
        [.call (noteCall (fun _ n => .returned (some taggedResult) n)),
          .call (noteCall (fun _ n => .returned (some taggedResult) n))]) := by
  intro h
  have hpair := (List.pairwise_cons.mp h.same_success).1 _ List.mem_cons_self
    ⟨"op-1", false, some taggedResult, none⟩
    ⟨"op-1", true, some (.str "first"), some .null⟩ rfl rfl
  exact absurd (Option.some.inj hpair.1) (by simp [taggedResult])

end Operations
