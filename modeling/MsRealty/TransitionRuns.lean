import MsRealty.ReplayLog
import MsRealty.Runs
import MsRealty.Transition

/-!
# No transition is lost

Any number of calls of `executeTransition` on one table, in any interleaving
of their loads and commits; a call may also end without a commit. The load
locks the row in the database, which only rules interleavings out: nothing
here rests on it. What carries the laws is the version: a record's version
determines its state, because every commit raises it by one, so a call that
commits on its expected version commits on the state it decided on (`Inv`).
-/

namespace Transition

open Runs ReplayLog

variable {S E : Type*}

/-! ## The system -/

/-- **The state**: the tables, and what each call in flight has decided. -/
structure State (S E : Type*) where
  db : TransitionDb S E
  calls : ℕ → Option (Decided S E)

/-- **An event**: a call loads and decides, commits, or ends without a commit. -/
inductive Event (S E : Type*) where
  | load (call : ℕ) (command : TransitionCommand S E) (authz : Authz.AuthzData)
      (now : Instant)
  | commit (call : ℕ)
  | abort (call : ℕ)

/-- What an event is answered with. -/
inductive Output (S E : Type*) where
  | decided
  | answered (outcome : Outcome S E)
  | aborted
  | ignored

/-- **One event of the run.** -/
def step [DecidableEq S] (spec : TransitionSpec S E) (s : State S E) :
    Event S E → State S E × Output S E
  | .load call command authz now =>
    match s.calls call with
    | some _ => (s, .ignored)
    | none =>
      match decideTransition spec s.db command authz now with
      | .inl outcome => (s, .answered outcome)
      | .inr decided =>
        ({ s with calls := Function.update s.calls call (some decided) }, .decided)
  | .commit call =>
    match s.calls call with
    | none => (s, .ignored)
    | some decided =>
      let r := commitTransition s.db decided
      (⟨r.fst, Function.update s.calls call none⟩, .answered r.snd)
  | .abort call => ({ s with calls := Function.update s.calls call none }, .aborted)

/-- A moment of a run of transitions. -/
abbrev TransitionMoment (S E : Type*) := Moment (State S E) (Event S E) (Output S E)

/-! ## What an audit entry says -/

/-- **The step an audit entry records**: from the state and version it names,
along an edge of the machine its guard allows, to the next version. -/
structure Records [DecidableEq S] (spec : TransitionSpec S E) (before : S × ℤ)
    (entry : AuditRow S E) (after : S × ℤ) : Prop where
  fromState : entry.payload.fromState = before.fst
  expectedVersion : entry.payload.expectedVersion = before.snd
  after_eq : after = (entry.payload.toState, entry.payload.newVersion)
  newVersion : entry.payload.newVersion = before.snd + 1
  edge : spec.machine.Edge entry.payload.fromState entry.payload.toState
  guard : spec.guard entry.payload.fromState entry.payload.toState
    entry.payload.evidence entry.payload.actor = .allowed

/-- The state and the version of a record. -/
def TableRecord.position (record : TableRecord S) : S × ℤ := (record.state, record.version)

/-- The entries about a record. -/
def about (id : Uuid) (entries : List (AuditRow S E)) : List (AuditRow S E) :=
  entries.filter (fun e => e.payload.recordId = id)

variable [DecidableEq S] {spec : TransitionSpec S E}

/-- **What a call in flight has decided**: a step of the record it loaded. -/
structure Sound (spec : TransitionSpec S E) (decided : Decided S E) : Prop where
  expectedVersion : decided.expectedVersion = decided.loaded.version
  next_id : decided.next.id = decided.loaded.id
  entry : Records spec decided.loaded.position decided.audit decided.next.position
  recordId : decided.audit.payload.recordId = decided.loaded.id

theorem sound_of_decideTransition {db : TransitionDb S E} {command : TransitionCommand S E}
    {authz : Authz.AuthzData} {now : Instant} {decided : Decided S E}
    (h : decideTransition spec db command authz now = .inr decided) :
    Sound spec decided ∧ decided.loaded ∈ db.records.rows := by
  unfold decideTransition at h
  split at h
  · exact absurd h (by simp)
  · next record hload =>
    dsimp only at h
    split at h
    · exact absurd h (by simp)
    · exact absurd h (by simp)
    · next next activity audit happly =>
      obtain rfl := Sum.inr.inj h
      obtain ⟨-, hversion, hedge, hguard, rfl, hid, hfrom, hto, hexpected, hnew, hevidence,
        hactor⟩ := applyTransition_applied happly
      refine ⟨⟨hversion, rfl, ⟨hfrom, hexpected, ?_, hnew, ?_, ?_⟩, hid⟩,
        (Table.get?_eq_some.mp hload).1⟩
      · rw [hto, hnew]
        rfl
      · show spec.machine.Edge audit.fromState audit.toState
        rw [hfrom, hto]
        exact hedge
      · show spec.guard audit.fromState audit.toState audit.evidence audit.actor = .allowed
        rw [hfrom, hto, hevidence, hactor]
        exact hguard

/-! ## What a commit does -/

/-- **A commit**: the record stood at the state and version the entry starts
from, it now stands where the entry leads, and nothing else changed. -/
structure Commits (spec : TransitionSpec S E) (before after : TransitionDb S E)
    (record : TableRecord S) (entry : AuditRow S E) : Prop where
  /-- The record as the commit met it. -/
  source : ∃ row ∈ before.records.rows, row.id = record.id
    ∧ Records spec row.position entry record.position
  /-- The record as the commit left it. -/
  target : ∃ row ∈ after.records.rows, row.id = record.id
    ∧ row.position = record.position
  recordId : entry.payload.recordId = record.id
  audit : after.audit = before.audit ++ [entry]
  others : ∀ row : TableRecord S, row.id ≠ record.id →
    (row ∈ after.records.rows ↔ row ∈ before.records.rows)

omit [DecidableEq S] in
/-- What a commit can do: nothing, or save over the row of the expected
version. -/
theorem commitTransition_cases (db : TransitionDb S E) (decided : Decided S E) :
    (commitTransition db decided = (db, .thrown .versionConflict))
      ∨ ∃ row ∈ db.records.rows, row.id = decided.next.id
        ∧ row.version = decided.expectedVersion
        ∧ (commitTransition db decided).snd = .applied decided.next decided.audit
        ∧ (commitTransition db decided).fst.records
          = db.records.update (saveRow decided.next decided.expectedVersion)
            (saveRow_id decided.next decided.expectedVersion)
        ∧ (commitTransition db decided).fst.audit = db.audit ++ [decided.audit] := by
  unfold commitTransition
  split_ifs with hone
  · obtain ⟨row, hrows⟩ := List.length_eq_one_iff.mp hone
    have hrow : row ∈ db.records.rows.filter
        (selects decided.next decided.expectedVersion) := by
      rw [hrows]
      exact List.mem_singleton_self row
    obtain ⟨hrow, hselects⟩ := List.mem_filter.mp hrow
    obtain ⟨hid, hversion⟩ : row.id = decided.next.id
        ∧ row.version = decided.expectedVersion := by
      simpa [selects] using hselects
    exact Or.inr ⟨row, hrow, hid, hversion, rfl, rfl, rfl⟩
  · exact Or.inl rfl

omit [DecidableEq S] in
/-- The rows after a save: the saved one, and those of other ids. -/
theorem mem_saved {t : Table Uuid (TableRecord S) TableRecord.id}
    {next row : TableRecord S} {expectedVersion : ℤ} (hrow : row ∈ t.rows)
    (hid : row.id = next.id) (hversion : row.version = expectedVersion)
    {r : TableRecord S} :
    r ∈ (t.update (saveRow next expectedVersion) (saveRow_id next expectedVersion)).rows
      ↔ r = { row with state := next.state, version := next.version }
        ∨ (r ∈ t.rows ∧ r.id ≠ next.id) := by
  have hselects : selects next expectedVersion row = true := by
    simp [selects, hid, hversion]
  rw [Table.mem_update]
  refine ⟨?_, ?_⟩
  · rintro ⟨r₀, hr₀, rfl⟩
    by_cases hsame : r₀.id = next.id
    · obtain rfl := Table.eq_of_key hr₀ hrow (hsame.trans hid.symm)
      exact Or.inl (if_pos hselects)
    · refine Or.inr ⟨?_, by rwa [saveRow_id]⟩
      rw [saveRow, if_neg (by simp [selects, hsame])]
      exact hr₀
  · rintro (rfl | ⟨hr, hne⟩)
    · exact ⟨row, hrow, if_pos hselects⟩
    · exact ⟨r, hr, if_neg (by simp [selects, hne])⟩

/-! ## The invariant -/

/-- **A call in flight is current or superseded**: the record it loaded has
moved on to a higher version, or still stands where it was. -/
def Current (db : TransitionDb S E) (loaded : TableRecord S) : Prop :=
  ∃ row ∈ db.records.rows, row.id = loaded.id ∧ loaded.version ≤ row.version
    ∧ (loaded.version = row.version → loaded.state = row.state)

/-- **The audit trail explains the record**: the entries since the start take
the record from where it stood to where it stands. -/
def Explains (spec : TransitionSpec S E) (entries : List (AuditRow S E))
    (start reached : TableRecord S) : Prop :=
  reached.id = start.id
    ∧ Replays (Records spec) start.position (about start.id entries) reached.position

/-- **The invariant of a run** from `start`. -/
structure Inv (spec : TransitionSpec S E) (start : TransitionDb S E) (s : State S E) :
    Prop where
  explained : ∃ entries, s.db.audit = start.audit ++ entries
    ∧ ∀ r₀ ∈ start.records.rows, ∃ r ∈ s.db.records.rows, Explains spec entries r₀ r
  pending : ∀ call decided, s.calls call = some decided →
    Sound spec decided ∧ Current s.db decided.loaded

/-- **A sound call that commits, commits the step it decided on.** -/
theorem commits_of_pending {db : TransitionDb S E} {decided : Decided S E}
    (hsound : Sound spec decided) (hcurrent : Current db decided.loaded)
    {record : TableRecord S} {entry : AuditRow S E}
    (h : (commitTransition db decided).snd = .applied record entry) :
    Commits spec db (commitTransition db decided).fst record entry := by
  obtain hthrown | ⟨row, hrow, hid, hversion, happlied, hrecords, haudit⟩ :=
    commitTransition_cases db decided
  · rw [hthrown] at h
    exact absurd h (by simp)
  · obtain ⟨rfl, rfl⟩ := Outcome.applied.inj (happlied.symm.trans h)
    -- the version is the one that was loaded, so the state is too
    have hposition : row.position = decided.loaded.position := by
      obtain ⟨row', hrow', hid', -, hstate⟩ := hcurrent
      obtain rfl := Table.eq_of_key hrow' hrow
        (hid'.trans (hsound.next_id.symm.trans hid.symm))
      have hloaded := hversion.trans hsound.expectedVersion
      exact Prod.ext (hstate hloaded.symm).symm hloaded
    refine ⟨⟨row, hrow, hid, ?_⟩, ?_, hsound.recordId.trans hsound.next_id.symm, haudit,
      fun r hne => ?_⟩
    · rw [hposition]
      exact hsound.entry
    · rw [hrecords]
      exact ⟨_, (mem_saved hrow hid hversion).mpr (Or.inl rfl), hid, rfl⟩
    · rw [hrecords, mem_saved hrow hid hversion]
      refine ⟨?_, fun hr => Or.inr ⟨hr, hne⟩⟩
      rintro (rfl | ⟨hr, -⟩)
      · exact absurd hid hne
      · exact hr

/-- A commit supersedes the calls that loaded the record before it. -/
theorem Current.commit {before after : TransitionDb S E} {record loaded : TableRecord S}
    {entry : AuditRow S E} (hc : Commits spec before after record entry)
    (h : Current before loaded) : Current after loaded := by
  obtain ⟨row, hrow, hid, hle, hstate⟩ := h
  by_cases hsame : row.id = record.id
  · obtain ⟨source, hsource, hsid, hstep⟩ := hc.source
    obtain ⟨target, htarget, htid, hposition⟩ := hc.target
    obtain rfl := Table.eq_of_key hsource hrow (hsid.trans hsame.symm)
    have hversion : target.version = source.version + 1 := by
      have hsnd : target.version = record.version := congrArg Prod.snd hposition
      have hafter : record.version = entry.payload.newVersion :=
        congrArg Prod.snd hstep.after_eq
      rw [hsnd, hafter, hstep.newVersion]
      rfl
    refine ⟨target, htarget, htid.trans (hsid.symm.trans hid), ?_, fun heq => ?_⟩
    · omega
    · omega
  · exact ⟨row, (hc.others row hsame).mpr hrow, hid, hle, hstate⟩

/-- A commit adds its entry to the explanation of its record, and leaves the
explanation of every other record as it was. -/
theorem Explains.commit {before after : TransitionDb S E} {record r₀ r : TableRecord S}
    {entry : AuditRow S E} {entries : List (AuditRow S E)}
    (hc : Commits spec before after record entry) (hr : r ∈ before.records.rows)
    (h : Explains spec entries r₀ r) :
    ∃ r' ∈ after.records.rows, Explains spec (entries ++ [entry]) r₀ r' := by
  obtain ⟨hid, hreplays⟩ := h
  by_cases hsame : r.id = record.id
  · obtain ⟨source, hsource, hsid, hstep⟩ := hc.source
    obtain ⟨target, htarget, htid, hposition⟩ := hc.target
    obtain rfl := Table.eq_of_key hsource hr (hsid.trans hsame.symm)
    refine ⟨target, htarget, htid.trans (hsid.symm.trans hid), ?_⟩
    have habout : about r₀.id (entries ++ [entry]) = about r₀.id entries ++ [entry] := by
      simp [about, hc.recordId, ← hid, hsid]
    rw [habout, hposition]
    exact hreplays.snoc hstep
  · refine ⟨r, (hc.others r hsame).mpr hr, hid, ?_⟩
    have habout : about r₀.id (entries ++ [entry]) = about r₀.id entries := by
      simp [about, hc.recordId, ← hid, Ne.symm hsame]
    rw [habout]
    exact hreplays

omit [DecidableEq S] in
/-- What is in flight after a call has ended was in flight before. -/
theorem calls_of_cleared {calls : ℕ → Option (Decided S E)} {call c : ℕ}
    {decided : Decided S E} (h : Function.update calls call none c = some decided) :
    calls c = some decided := by
  by_cases hc : c = call
  · subst hc
    rw [Function.update_self] at h
    exact absurd h (by simp)
  · rwa [Function.update_of_ne hc] at h

theorem inv_commit {start : TransitionDb S E} {s : State S E} {call : ℕ}
    {decided : Decided S E} (hcall : s.calls call = some decided) (hi : Inv spec start s) :
    Inv spec start ⟨(commitTransition s.db decided).fst,
      Function.update s.calls call none⟩ := by
  obtain ⟨hsound, hcurrent⟩ := hi.pending call decided hcall
  obtain hthrown | ⟨row, -, -, -, happlied, -, -⟩ := commitTransition_cases s.db decided
  · rw [hthrown]
    exact ⟨hi.explained, fun c d hd => hi.pending c d (calls_of_cleared hd)⟩
  · have hc := commits_of_pending hsound hcurrent happlied
    obtain ⟨entries, haudit, hall⟩ := hi.explained
    refine ⟨⟨entries ++ [decided.audit], ?_, fun r₀ hr₀ => ?_⟩, fun c d hd => ?_⟩
    · rw [hc.audit, haudit, List.append_assoc]
    · obtain ⟨r, hr, hexplains⟩ := hall r₀ hr₀
      exact hexplains.commit hc hr
    · obtain ⟨hd, hcur⟩ := hi.pending c d (calls_of_cleared hd)
      exact ⟨hd, hcur.commit hc⟩

theorem inv_load {start : TransitionDb S E} {s : State S E} {call : ℕ}
    {decided : Decided S E} {command : TransitionCommand S E} {authz : Authz.AuthzData}
    {now : Instant} (h : decideTransition spec s.db command authz now = .inr decided)
    (hi : Inv spec start s) :
    Inv spec start { s with calls := Function.update s.calls call (some decided) } := by
  obtain ⟨hsound, hloaded⟩ := sound_of_decideTransition h
  refine ⟨hi.explained, fun c d hd => ?_⟩
  dsimp only at hd
  by_cases hc : c = call
  · subst hc
    rw [Function.update_self] at hd
    obtain rfl := Option.some.inj hd
    exact ⟨hsound, decided.loaded, hloaded, rfl, Int.le_refl _, fun _ => rfl⟩
  · rw [Function.update_of_ne hc] at hd
    exact hi.pending c d hd

/-- **Every event keeps the invariant.** -/
theorem keeps_inv (spec : TransitionSpec S E) (start : TransitionDb S E) :
    Keeps (step spec) (fun _ => True) (Inv spec start) := by
  intro s e _ hi
  cases e with
  | load call command authz now =>
    dsimp only [step]
    split
    · exact hi
    · split
      · exact hi
      · next decided hdecided => exact inv_load hdecided hi
  | commit call =>
    dsimp only [step]
    split
    · exact hi
    · next decided hcall => exact inv_commit hcall hi
  | abort call =>
    refine ⟨hi.explained, fun c d hd => hi.pending c d ?_⟩
    exact calls_of_cleared hd

/-! ## The law -/

/-- Whether a moment committed a transition. -/
def Applied (m : TransitionMoment S E) (record : TableRecord S) (entry : AuditRow S E) :
    Prop :=
  m.output = .answered (.applied record entry)

/-- **The law of transitions**, over the moments of a run from `start` that
has reached `reached`. -/
structure NoLostUpdate (spec : TransitionSpec S E) (start : TransitionDb S E)
    (moments : List (TransitionMoment S E)) (reached : TransitionDb S E) : Prop where
  /-- A committed transition starts from the state and version the record
  stands at, leads along an edge its guard allows to the next version, and
  adds its audit entry. -/
  applied : ∀ m ∈ moments, ∀ record entry, Applied m record entry →
    Commits spec m.before.db m.after.db record entry
  /-- Everything else leaves the tables unchanged. -/
  unchanged : ∀ m ∈ moments, (∀ record entry, ¬ Applied m record entry) →
    m.after.db = m.before.db
  /-- The audit entries since the start, in order, take every record from
  where it stood to where it stands, one version each. -/
  audit : ∃ entries, reached.audit = start.audit ++ entries
    ∧ ∀ r₀ ∈ start.records.rows, ∃ r ∈ reached.records.rows, r.id = r₀.id
      ∧ Replays (Records spec) r₀.position (about r₀.id entries) r.position
      ∧ r.position = (about r₀.id entries).foldl
        (fun _ e => (e.payload.toState, e.payload.newVersion)) r₀.position
      ∧ r.version = r₀.version + (about r₀.id entries).length

/-- An event that does not apply a transition leaves the tables unchanged. -/
theorem step_unchanged {s : State S E} {e : Event S E}
    (h : ∀ record entry, ¬ Applied (moment (step spec) s e) record entry) :
    (step spec s e).fst.db = s.db := by
  cases e with
  | load call command authz now =>
    dsimp only [step]
    split
    · rfl
    · split <;> rfl
  | commit call =>
    dsimp only [Applied, moment, step] at h ⊢
    cases hcall : s.calls call with
    | none => rfl
    | some decided =>
      rw [hcall] at h
      obtain hthrown | ⟨row, -, -, -, happlied, -, -⟩ :=
        commitTransition_cases s.db decided
      · dsimp only
        rw [hthrown]
      · exact absurd (congrArg Output.answered happlied) (h _ _)
  | abort call => rfl

/-- An event that applies a transition commits it. -/
theorem step_applied {start : TransitionDb S E} {s : State S E} {e : Event S E}
    (hi : Inv spec start s) {record : TableRecord S} {entry : AuditRow S E}
    (h : Applied (moment (step spec) s e) record entry) :
    Commits spec s.db (step spec s e).fst.db record entry := by
  cases e with
  | load call command authz now =>
    exfalso
    dsimp only [Applied, moment, step] at h
    split at h
    · exact absurd h (by simp)
    · split at h
      · next outcome hdecided =>
        -- a load never answers that its transition applied
        unfold decideTransition at hdecided
        split at hdecided
        · obtain rfl := Sum.inl.inj hdecided
          exact absurd h (by simp)
        · dsimp only at hdecided
          split at hdecided
          · obtain rfl := Sum.inl.inj hdecided
            exact absurd h (by simp)
          · obtain rfl := Sum.inl.inj hdecided
            exact absurd h (by simp)
          · exact absurd hdecided (by simp)
      · exact absurd h (by simp)
  | commit call =>
    dsimp only [Applied, moment, step] at h ⊢
    cases hcall : s.calls call with
    | none =>
      rw [hcall] at h
      exact absurd h (by simp)
    | some decided =>
      rw [hcall] at h
      obtain ⟨hsound, hcurrent⟩ := hi.pending call decided hcall
      exact commits_of_pending hsound hcurrent (Output.answered.inj h)
  | abort call => exact absurd h (by simp [Applied, moment, step])

/-- **No transition is lost.** In every run of calls on one table, from any
tables and with no call in flight: each committed transition starts from the
state and version the record stands at and raises the version by one along an
edge of the machine; the record is the fold of its audit entries; and a
denied, conflicting or unauthorised call changes nothing. -/
theorem noLostUpdate_of_run (spec : TransitionSpec S E) (start : TransitionDb S E)
    (events : List (Event S E)) :
    NoLostUpdate spec start (history (step spec) ⟨start, fun _ => none⟩ events)
      (final (step spec) ⟨start, fun _ => none⟩ events).db := by
  have hinit : Inv spec start ⟨start, fun _ => none⟩ := by
    refine ⟨⟨[], (List.append_nil _).symm, fun r₀ hr₀ => ⟨r₀, hr₀, rfl, rfl⟩⟩, ?_⟩
    exact fun _ _ h => absurd h (by simp)
  have hall : ∀ e ∈ events, (fun _ => True) e := fun _ _ => trivial
  refine ⟨?_, ?_, ?_⟩
  · exact history_forall (keeps_inv spec start)
      (fun s e _ hi record entry h => step_applied hi h) hall hinit
  · exact history_forall (keeps_inv spec start)
      (fun s e _ _ h => step_unchanged h) hall hinit
  · obtain ⟨entries, haudit, hexplained⟩ :=
      (final_invariant (keeps_inv spec start) hall hinit).explained
    refine ⟨entries, haudit, fun r₀ hr₀ => ?_⟩
    obtain ⟨r, hr, hid, hreplays⟩ := hexplained r₀ hr₀
    refine ⟨r, hr, hid, hreplays, ?_, ?_⟩
    · exact hreplays.eq_foldl (fun _ _ _ h => h.after_eq)
    · refine hreplays.counter_eq (φ := Prod.snd) (fun p e p' h => ?_)
      rw [h.after_eq]
      exact h.newVersion

end Transition
