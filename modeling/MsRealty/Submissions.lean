import MsRealty.OperationRuns
import MsRealty.StateMachine
import MsRealty.Unicode

/-!
# Commands of staff and clients

Most commands have one shape: what can be checked is checked before the
transaction, and the transaction runs through `runOperation`, whose savepoint
undoes it if it throws. The module has the parts such a transaction is written
with – conditions, lookups, refusals – and what a submission does to the data:
what its transaction did, and then the answer is a fresh success, or nothing
(`submit_cases`). An invariant of the data that every transaction keeps is an
invariant of every run (`data_invariant`).
-/

/-- A part of a transaction: it throws, or goes on with a value. -/
abbrev Tx (α : Type) := Except (Thrown JsonValue) α

namespace Tx

variable {α β S : Type}

/-- Throws unless the condition holds. -/
def demand (condition : Prop) [Decidable condition] (error : Thrown JsonValue) : Tx Unit :=
  if condition then .ok () else .error error

/-- The value, or the error that its absence is. -/
def found (value : Option α) (error : Thrown JsonValue) : Tx α :=
  match value with
  | some a => .ok a
  | none => .error error

/-- Throws what a check found to refuse, if anything. -/
def refuse (refusal : Option (Thrown JsonValue)) : Tx Unit :=
  match refusal with
  | none => .ok ()
  | some error => .error error

/-- Throws the code of a decision that is denied. -/
def allow (decision : Decision) (error : String → Thrown JsonValue) : Tx Unit :=
  match decision with
  | .allowed => .ok ()
  | .denied code => .error (error code)

variable {r : β}

/-- **A transaction that goes on past a check** passed it. -/
@[simp] theorem demand_bind {condition : Prop} [Decidable condition] {error : Thrown JsonValue}
    {f : Unit → Tx β} :
    (demand condition error >>= f) = .ok r ↔ condition ∧ f () = .ok r := by
  unfold demand
  split_ifs with h
  · exact ⟨fun hf => ⟨h, hf⟩, And.right⟩
  · exact ⟨fun hf => (nomatch hf), fun hf => absurd hf.1 h⟩

/-- **A transaction that goes on past a lookup** found a value. -/
@[simp] theorem found_bind {value : Option α} {error : Thrown JsonValue} {f : α → Tx β} :
    (found value error >>= f) = .ok r ↔ ∃ a, value = some a ∧ f a = .ok r := by
  cases value with
  | none => exact ⟨fun hf => (nomatch hf), fun ⟨_, h, _⟩ => (nomatch h)⟩
  | some a =>
    refine ⟨fun hf => ⟨a, rfl, hf⟩, ?_⟩
    rintro ⟨_, ⟨⟩, hf⟩
    exact hf

@[simp] theorem refuse_bind {refusal : Option (Thrown JsonValue)} {f : Unit → Tx β} :
    (refuse refusal >>= f) = .ok r ↔ refusal = none ∧ f () = .ok r := by
  cases refusal with
  | none => exact ⟨fun hf => ⟨rfl, hf⟩, And.right⟩
  | some error => exact ⟨fun hf => (nomatch hf), fun hf => (nomatch hf.1)⟩

@[simp] theorem allow_bind {decision : Decision} {error : String → Thrown JsonValue}
    {f : Unit → Tx β} :
    (allow decision error >>= f) = .ok r ↔ decision = .allowed ∧ f () = .ok r := by
  cases decision with
  | allowed => exact ⟨fun hf => ⟨rfl, hf⟩, And.right⟩
  | denied code => exact ⟨fun hf => (nomatch hf), fun hf => (nomatch hf.1)⟩

@[simp] theorem ok_bind {a : α} {f : α → Tx β} : ((.ok a : Tx α) >>= f) = f a := rfl

/-- A transaction that goes on past another one. -/
theorem bind_eq_ok {tx : Tx α} {f : α → Tx β} :
    (tx >>= f) = .ok r ↔ ∃ a, tx = .ok a ∧ f a = .ok r := by
  cases tx with
  | error error => exact ⟨fun hf => (nomatch hf), fun ⟨_, h, _⟩ => (nomatch h)⟩
  | ok a =>
    refine ⟨fun hf => ⟨a, rfl, hf⟩, ?_⟩
    rintro ⟨_, ⟨⟩, hf⟩
    exact hf

/-- **The effect of a transaction** on the data. -/
def effect (tx : Tx (JsonValue × S)) : Effect S JsonValue :=
  match tx with
  | .ok (value, data) => .returned (some value) data
  | .error error => .threw error

theorem effect_returned {tx : Tx (JsonValue × S)} {value : Option JsonValue} {data : S}
    (h : effect tx = .returned value data) : ∃ v, value = some v ∧ tx = .ok (v, data) := by
  cases tx with
  | error error => cases h
  | ok r =>
    obtain ⟨hvalue, rfl⟩ := Effect.returned.inj h
    exact ⟨r.fst, hvalue.symm, rfl⟩

/-! ## Schemas -/

/-- Whether a text has a length, in code units, between two bounds. -/
def textWithin (least most : ℕ) (text : String) : Bool :=
  least ≤ (Utf16.encode text.toList).length && (Utf16.encode text.toList).length ≤ most

/-- What the schemas of the inputs compute: `String.prototype.trim` and
`toUpperCase`, and the schemas of identifiers and of dates. -/
structure Schemas where
  trim : String → String
  toUpperCase : String → String
  isUuid : String → Bool
  datetime : String → Option Instant

/-! ## Errors -/

/-- An application error of a code. -/
def ofCode (code : ErrorCode) : Thrown JsonValue := .appError (AppError.ofCode code)

/-- An application error with a field error. -/
def fieldError (code : ErrorCode) (field message : String) : Thrown JsonValue :=
  .appError ⟨code, code.outcome, some [(field, [message])], none⟩

/-- `version`: the error of a row that was changed since. -/
def versionConflict (version : ℕ) : Thrown JsonValue :=
  .appError ⟨.versionConflict, ErrorCode.versionConflict.outcome, none,
    some (.obj [("version", .num version)])⟩

end Tx

namespace Submissions

open Operations Runs

variable {S : Type}

/-- **A submission**: what the checks before the transaction refuse, if anything,
and the call. -/
structure Submission (S : Type) where
  early : Option (Thrown JsonValue)
  call : Call S JsonValue

/-- **Submits a command.** -/
def submit (db : Db S) (s : Submission S) : Db S × Answer JsonValue :=
  match s.early with
  | some error => (db, .rolledBack error)
  | none => runOperation some db s.call

/-- Whether an answer is a success that was not answered before. -/
def Fresh (answer : Answer JsonValue) : Prop :=
  ∃ value, answer = .success value ∧ value.replayed = false

/-- An automated attempt is not executed. -/
theorem runButler_data (db : Db S) (call : Call S JsonValue) (table : OperationsTable) :
    (runButler db call table).fst.data = db.data ∧ ¬ Fresh (runButler db call table).snd := by
  unfold runButler
  refine ⟨rfl, ?_⟩
  dsimp only
  rw [failureError_toJson]
  rintro ⟨value, h, -⟩
  cases h

/-- What was stored is no fresh answer. -/
theorem not_fresh_replayAnswer (automated : Bool) (row : OperationRow) :
    ¬ Fresh (replayAnswer automated row) := by
  rintro ⟨value, h, hfresh⟩
  unfold replayAnswer at h
  cases hstatus : row.status with
  | succeeded =>
    rw [hstatus] at h
    dsimp only at h
    split_ifs at h
    · rw [← Answer.success.inj h] at hfresh
      cases hfresh
    · rw [← Answer.success.inj h] at hfresh
      cases hfresh
  | failed =>
    rw [hstatus] at h
    dsimp only at h
    split at h
    · cases h
    · cases h
  | _ =>
    rw [hstatus] at h
    cases h

theorem runOperation_cases_data (db : Db S) (call : Call S JsonValue) :
    ((runOperation some db call).fst.data = db.data ∧ ¬ Fresh (runOperation some db call).snd) ∨
      ((∃ value, call.fn call.context db.data =
        .returned value (runOperation some db call).fst.data) ∧
        Fresh (runOperation some db call).snd) := by
  by_cases hauto : isButlerOperation call.input = true
  · unfold runOperation
    split_ifs
    · exact .inl ⟨rfl, fun ⟨_, h, _⟩ => (nomatch h)⟩
    · refine .inl ?_
      dsimp only
      split
      · exact ⟨rfl, fun ⟨_, h, _⟩ => (nomatch h)⟩
      · exact ⟨rfl, not_fresh_replayAnswer _ _⟩
      · exact ⟨rfl, not_fresh_replayAnswer _ _⟩
      · split
        · exact ⟨rfl, fun ⟨_, h, _⟩ => (nomatch h)⟩
        · exact runButler_data _ _ _
  · have hcases := runOperation_cases some db call (Bool.eq_false_iff.mpr hauto)
    generalize runOperation some db call = r at hcases ⊢
    obtain ⟨db', answer⟩ := r
    cases hcases with
    | busy => exact .inl ⟨rfl, fun ⟨_, h, _⟩ => (nomatch h)⟩
    | reused => exact .inl ⟨rfl, fun ⟨_, h, _⟩ => (nomatch h)⟩
    | replayed row => exact .inl ⟨rfl, not_fresh_replayAnswer _ _⟩
    | refused => exact .inl ⟨rfl, fun ⟨_, h, _⟩ => (nomatch h)⟩
    | executed table _ _ _ _ h =>
      cases h with
      | committed value data result hfn => exact .inr ⟨⟨value, hfn⟩, _, rfl, rfl⟩
      | parked => exact .inl ⟨rfl, fun ⟨_, h, _⟩ => (nomatch h)⟩
      | stored => exact .inl ⟨rfl, fun ⟨_, h, _⟩ => (nomatch h)⟩
      | rolledBack => exact .inl ⟨rfl, fun ⟨_, h, _⟩ => (nomatch h)⟩

/-- **What a submission does to the data**: nothing, or what its transaction did,
and only then the answer is a fresh success. -/
theorem submit_cases (db : Db S) (s : Submission S) :
    ((submit db s).fst.data = db.data ∧ ¬ Fresh (submit db s).snd) ∨
      ((∃ value, s.call.fn s.call.context db.data = .returned value (submit db s).fst.data) ∧
        s.early = none ∧ Fresh (submit db s).snd) := by
  unfold submit
  cases hearly : s.early with
  | some error => exact .inl ⟨rfl, fun ⟨_, h, _⟩ => (nomatch h)⟩
  | none =>
    obtain h | ⟨hfn, hfresh⟩ := runOperation_cases_data db s.call
    · exact .inl h
    · exact .inr ⟨hfn, rfl, hfresh⟩

/-- A property of the data that every transaction keeps. -/
def KeepsData (E : Submission S → Prop) (P : S → Prop) : Prop :=
  ∀ s, E s → s.early = none → ∀ data value data', P data →
    s.call.fn s.call.context data = .returned value data' → P data'

/-- **The invariant rule for the data**: what holds at the start and is kept by
every transaction holds in every state that is reached. -/
theorem keeps_data {E : Submission S → Prop} {P : S → Prop} (hkeep : KeepsData E P) :
    Keeps submit E (fun db : Db S => P db.data) := by
  intro db s hs h
  obtain ⟨hdata, -⟩ | ⟨⟨value, hfn⟩, hearly, -⟩ := submit_cases db s
  · exact hdata.symm ▸ h
  · exact hkeep s hs hearly db.data value _ h hfn

/-- **A refused submission leaves the data.** -/
theorem data_of_refused (db : Db S) (s : Submission S) (h : ¬ Fresh (submit db s).snd) :
    (submit db s).fst.data = db.data := by
  obtain ⟨hdata, -⟩ | ⟨-, -, hfresh⟩ := submit_cases db s
  · exact hdata
  · exact absurd hfresh h

end Submissions
