import MsRealty.KeyCustody

/-!
# Custody over every run of key commands

The row of a set says who has it, and its events say how it came there. Both
are kept by one write: a row of the next version, whose event is recorded with
it (`Ok.record`). So they hold in every state that is reached
(`custody_of_run`), and a command that is refused changes neither.
-/

namespace KeyCustody

open Operations Runs Submissions

variable {data : CustodyData} {row : KeySet}

/-! ## Commands -/

/-- A key command. -/
inductive Command where
  | receive (raw : ReceiveInput)
  | move (raw : MoveInput)
  | amendDeadline (raw : AmendInput)

/-- The operation type of a command. -/
def Command.type : Command → String
  | .receive _ => "key.receive"
  | .move _ => "key.move"
  | .amendDeadline _ => "key.amend_deadline"

/-- The key of a command's operation. -/
def Command.idempotencyKey : Command → String
  | .receive raw => raw.operationId
  | .move raw => raw.operationId
  | .amendDeadline raw => raw.operationId

/-- The version a command expects. -/
def Command.expectedVersion : Command → Option ℤ
  | .receive _ => none
  | .move raw => some raw.expectedVersion
  | .amendDeadline raw => some raw.expectedVersion

/-- Whether the schema of a command accepts its input. -/
def Command.isValid (schemas : Tx.Schemas) : Command → Bool
  | .receive raw => (raw.parse schemas).isSome
  | .move raw => (raw.parse schemas).isSome
  | .amendDeadline raw => (raw.parse schemas).isSome

/-- The transaction of a command. -/
def Command.run (schemas : Tx.Schemas) (found : Findings) (context : OperationContext)
    (data : CustodyData) : Command → Tx (JsonValue × CustodyData)
  | .receive raw => do
    let input ← Tx.found (raw.parse schemas) .other
    receiveKeys input found context data
  | .move raw => do
    let input ← Tx.found (raw.parse schemas) .other
    moveKeys schemas input found context data
  | .amendDeadline raw => do
    let input ← Tx.found (raw.parse schemas) .other
    amendKeyDeadline input.fst input.snd found context data

/-- **What a call meets** outside the custody tables: who calls, the issues of
the schema, what the check of the caller refuses, and the operation. -/
structure CallFindings extends Findings where
  actor : Actor
  issues : FieldErrors
  early : Option (Thrown JsonValue)
  locked : Bool
  operationId : Uuid
  requestHash : String

/-- **The submission of a command.** -/
def Command.submission (schemas : Tx.Schemas) (c : Command) (found : CallFindings) :
    Submission CustodyData where
  early := if c.isValid schemas then found.early else
    some (.appError ⟨.validationFailed, ErrorCode.validationFailed.outcome, some found.issues, none⟩)
  call :=
    { input :=
        { actor := found.actor
          type := c.type
          idempotencyKey := c.idempotencyKey
          requestHash := found.requestHash
          expectedVersion := c.expectedVersion
          subject := none
          butlerAuthorization := false }
      fn := fun context data => Tx.effect (c.run schemas found.toFindings context data)
      butlerCheck := fun _ _ => .error .other
      locked := found.locked
      freshId := found.operationId
      now := found.now }

/-! ## What is kept -/

/-- **The row says who has the keys**: a holder and a day to be back when they
are checked out, a label when they are stored. -/
structure KeySet.Consistent (row : KeySet) : Prop where
  holder : row.holderId ≠ none ↔ row.state = .checkedOut
  due : row.dueAt ≠ none ↔ row.state = .checkedOut
  label : row.storageLabel ≠ none ↔ row.state = .stored

/-- The event of a row has what the row has. -/
structure CustodyEvent.Records (e : CustodyEvent) (row : KeySet) : Prop where
  state : e.state = row.state
  storageLabel : e.storageLabel = row.storageLabel
  holderId : e.holderId = row.holderId
  dueAt : e.dueAt = row.dueAt

/-- **The events of a row**: of the versions from the first to that of the row,
and the last one has what the row has. -/
structure CustodyData.Recorded (data : CustodyData) (row : KeySet) : Prop where
  versions : (data.eventsOf row.id).map CustodyEvent.version =
    (List.range' 1 row.version).reverse
  last : ∃ e older, data.eventsOf row.id = e :: older ∧ e.Records row

/-- **What every command keeps.** -/
structure CustodyData.Ok (data : CustodyData) : Prop where
  consistent : ∀ row ∈ data.keySets.rows, row.Consistent
  recorded : ∀ row ∈ data.keySets.rows, data.Recorded row
  known : ∀ e ∈ data.events, ∃ row ∈ data.keySets.rows, row.id = e.keySetId

theorem ok_empty : CustodyData.Ok ⟨Table.empty, [], []⟩ where
  consistent := fun _ h => absurd h List.not_mem_nil
  recorded := fun _ h => absurd h List.not_mem_nil
  known := fun _ h => absurd h List.not_mem_nil

theorem eventsOf_record (context : OperationContext) (found : Findings) (row : KeySet)
    (note action : String) (id : Uuid) :
    (recordCustody context found row note action data).eventsOf id =
      if row.id = id then row.event context note :: data.eventsOf id else data.eventsOf id := by
  show (row.event context note :: data.events).filter _ = _
  rw [List.filter_cons]
  split_ifs with h h' h'
  · rfl
  · exact absurd (of_decide_eq_true h) h'
  · exact absurd (decide_eq_true h') h
  · rfl

/-- **A row of the next version, recorded with its event, keeps everything.** -/
theorem CustodyData.Ok.record (h : data.Ok) {keySets : Table Uuid KeySet KeySet.id}
    (context : OperationContext) (found : Findings) (note action : String) {n : ℕ}
    (hrow : row.Consistent) (hversion : row.version = n + 1)
    (hbefore : (data.eventsOf row.id).map CustodyEvent.version = (List.range' 1 n).reverse)
    (hmem : ∀ r, r ∈ keySets.rows ↔ r = row ∨ r ∈ data.keySets.rows ∧ r.id ≠ row.id) :
    (recordCustody context found row note action { data with keySets := keySets }).Ok := by
  have hevents : ∀ id, (recordCustody context found row note action
      { data with keySets := keySets }).eventsOf id =
      if row.id = id then row.event context note :: data.eventsOf id else data.eventsOf id :=
    fun id => eventsOf_record context found row note action id
  refine ⟨fun r hr => ?_, fun r hr => ?_, ?_⟩
  · obtain rfl | ⟨hr, -⟩ := (hmem r).mp hr
    · exact hrow
    · exact h.consistent r hr
  · obtain rfl | ⟨hr, hid⟩ := (hmem r).mp hr
    · refine ⟨?_, _, _, (hevents r.id).trans (if_pos rfl), rfl, rfl, rfl, rfl⟩
      rw [hevents, if_pos rfl, List.map_cons, hbefore, hversion, List.range'_1_concat,
        List.reverse_append, List.reverse_singleton, List.singleton_append]
      show r.version :: _ = _
      rw [hversion, Nat.add_comm]
    · have hsame := (hevents r.id).trans (if_neg (Ne.symm hid))
      obtain ⟨hversions, e, older, heq, hrecords⟩ := h.recorded r hr
      exact ⟨by rw [hsame, hversions], e, older, hsame.trans heq, hrecords⟩
  · refine List.forall_mem_cons.mpr ⟨⟨row, (hmem row).mpr (.inl rfl), rfl⟩, fun e he => ?_⟩
    obtain ⟨r, hr, hid⟩ := h.known e he
    by_cases hsame : r.id = row.id
    · exact ⟨row, (hmem row).mpr (.inl rfl), hsame.symm.trans hid⟩
    · exact ⟨r, (hmem r).mpr (.inr ⟨hr, hsame⟩), hid⟩

/-- A row that replaces the one of its id. -/
theorem CustodyData.Ok.write (h : data.Ok) {changed : KeySet} (context : OperationContext)
    (found : Findings) (note action : String) (hrow : row ∈ data.keySets.rows)
    (hid : changed.id = row.id) (hchanged : changed.Consistent)
    (hversion : changed.version = row.version + 1) :
    (recordCustody context found changed note action (writeRow data changed)).Ok := by
  refine h.record context found note action hchanged hversion ?_ (fun r => Table.mem_put)
  rw [hid]
  exact (h.recorded row hrow).versions

/-! ## Every command -/

theorem receiveKeys_ok {input : ReceiveInput} {found : Findings} {context : OperationContext}
    {value : JsonValue} {data' : CustodyData} (h : data.Ok)
    (hrun : receiveKeys input found context data = .ok (value, data')) : data'.Ok := by
  simp only [receiveKeys, Tx.refuse_bind, Tx.found_bind, Tx.demand_bind] at hrun
  obtain ⟨-, property, -, -, -, keySets, hkeySets, hdone⟩ := hrun
  obtain ⟨-, rfl⟩ := Prod.mk.inj (Except.ok.inj hdone)
  have hfree := Table.get?_eq_none.mp (Table.get?_of_insert? hkeySets)
  refine h.record context found _ _ ?_ rfl ?_ (fun r => ?_)
  · exact ⟨by simp [ReceiveInput.row], by simp [ReceiveInput.row], by simp [ReceiveInput.row]⟩
  · have hnone : data.eventsOf (input.row property.fst found).id = [] := by
      refine List.filter_eq_nil_iff.mpr (fun e he heq => ?_)
      obtain ⟨r, hr, hid⟩ := h.known e he
      exact hfree r hr (hid.trans (of_decide_eq_true heq))
    rw [hnone]
    rfl
  · rw [Table.mem_insert? hkeySets]
    exact or_congr_right ⟨fun hr => ⟨hr, hfree r hr⟩, And.left⟩

/-- The row of a move says who has the keys. -/
theorem MoveInput.row_consistent (input : MoveInput) {dueAt : Option Instant} (now : Instant)
    (hdue : input.state = .checkedOut → dueAt ≠ none) : (input.row dueAt now row).Consistent := by
  unfold MoveInput.row
  refine ⟨?_, ?_, ?_⟩
  · by_cases hout : input.state = .checkedOut
    · simp [hout]
    · simp [hout]
  · by_cases hout : input.state = .checkedOut
    · simp [hout, hdue hout]
    · simp [hout]
  · by_cases hstored : input.state = .stored
    · simp [hstored]
    · simp [hstored]

theorem moveKeys_ok {schemas : Tx.Schemas} {input : MoveInput} {found : Findings}
    {context : OperationContext} {value : JsonValue} {data' : CustodyData} (h : data.Ok)
    (hrun : moveKeys schemas input found context data = .ok (value, data')) : data'.Ok := by
  simp only [moveKeys, Tx.refuse_bind, Tx.found_bind, Tx.demand_bind] at hrun
  obtain ⟨-, row, hrow, -, -, -, hdue, -, hdone⟩ := hrun
  obtain ⟨-, rfl⟩ := Prod.mk.inj (Except.ok.inj hdone)
  refine h.write context found _ _ (Table.get?_eq_some.mp hrow).1 rfl ?_ rfl
  refine input.row_consistent found.now (fun hout hnone => ?_)
  rw [hnone] at hdue
  exact absurd (hdue hout) Bool.false_ne_true

theorem amendKeyDeadline_ok {input : AmendInput} {dueAt : Instant} {found : Findings}
    {context : OperationContext} {value : JsonValue} {data' : CustodyData} (h : data.Ok)
    (hrun : amendKeyDeadline input dueAt found context data = .ok (value, data')) :
    data'.Ok := by
  simp only [amendKeyDeadline, Tx.refuse_bind, Tx.found_bind, Tx.demand_bind] at hrun
  obtain ⟨-, row, hrow, -, ⟨hout, -⟩, -, hdone⟩ := hrun
  obtain ⟨-, rfl⟩ := Prod.mk.inj (Except.ok.inj hdone)
  have hmem := (Table.get?_eq_some.mp hrow).1
  obtain ⟨hholder, -, hlabel⟩ := h.consistent row hmem
  refine h.write context found _ _ hmem rfl ⟨hholder, ?_, hlabel⟩ rfl
  exact iff_of_true (Option.some_ne_none dueAt) hout

theorem run_ok {schemas : Tx.Schemas} {c : Command} {found : Findings}
    {context : OperationContext} {value : JsonValue} {data' : CustodyData} (h : data.Ok)
    (hrun : c.run schemas found context data = .ok (value, data')) : data'.Ok := by
  cases c with
  | receive raw =>
    obtain ⟨input, -, hrun⟩ := Tx.found_bind.mp hrun
    exact receiveKeys_ok h hrun
  | move raw =>
    obtain ⟨input, -, hrun⟩ := Tx.found_bind.mp hrun
    exact moveKeys_ok h hrun
  | amendDeadline raw =>
    obtain ⟨input, -, hrun⟩ := Tx.found_bind.mp hrun
    exact amendKeyDeadline_ok h hrun

/-! ## Every run -/

/-- A submission of a key command. -/
def IsKeyCommand (s : Submission CustodyData) : Prop :=
  ∃ schemas c found, s = Command.submission schemas c found

theorem keeps_ok : KeepsData IsKeyCommand CustodyData.Ok := by
  rintro _ ⟨schemas, c, found, rfl⟩ - data value data' h hfn
  obtain ⟨v, -, hrun⟩ := Tx.effect_returned hfn
  exact run_ok h hrun

/-- The database before any key is received. -/
def emptyDb : Db CustodyData := ⟨⟨[], List.nodup_nil, List.nodup_nil⟩, [], Table.empty, [], []⟩

/-- **Key custody, in every run**: in every state that is reached a row has a
holder and a day to be back exactly when the set is checked out, and a label
exactly when it is stored; its events have the versions from the first to that
of the row, once each, and the last has the state of the row; and a command
that is refused changes neither rows nor events. -/
theorem custody_of_run (es : List (Submission CustodyData)) (hes : ∀ s ∈ es, IsKeyCommand s) :
    (∀ row ∈ (final submit emptyDb es).data.keySets.rows, row.Consistent ∧
      (final submit emptyDb es).data.Recorded row) ∧
    ∀ m ∈ history submit emptyDb es, ¬ Fresh m.output →
      m.after.data.keySets = m.before.data.keySets ∧ m.after.data.events = m.before.data.events := by
  refine ⟨fun row hrow => ?_, fun m hm hrefused => ?_⟩
  · have h := final_invariant (keeps_data keeps_ok) hes (s := emptyDb) ok_empty
    exact ⟨h.consistent row hrow, h.recorded row hrow⟩
  · rw [eq_moment_of_mem hm] at hrefused ⊢
    have hdata := data_of_refused m.before m.event hrefused
    show (submit m.before m.event).fst.data.keySets = _ ∧ _
    exact ⟨congrArg CustodyData.keySets hdata, congrArg CustodyData.events hdata⟩

/-! ## A set that is received -/

/-- Schemas whose texts are as they should be. -/
def sampleSchemas : Tx.Schemas := ⟨id, id, fun _ => true, fun _ => some 1000⟩

/-- A set is received, and its keys are checked out. -/
def sampleCommands : List Command :=
  [.receive ⟨⟨"operation-receive", "Received from the owner", true⟩, "MS-00012", "TAG-7", 2,
      "handover-3", "Cabinet B"⟩,
    .move ⟨⟨"operation-check-out", "Viewing on Monday", true⟩, "keys", 1, .checkedOut, "broker",
      "2026-10-05T09:00:00Z", ""⟩]

def sampleFindings (operationId : Uuid) : CallFindings where
  operator := none
  property := some ("property", none)
  eligibleHolder _ := true
  freshId := "keys"
  freshReference := "KEY-00001"
  now := 500
  hashRow _ := "hash"
  actor := ⟨.staff, "broker"⟩
  issues := []
  early := none
  locked := true
  operationId := operationId
  requestHash := "request"

def sampleRun : List (Submission CustodyData) :=
  sampleCommands.map (fun c => c.submission sampleSchemas (sampleFindings c.type))

theorem states_sampleRun : (final submit emptyDb sampleRun).data.keySets.rows.map
    (fun row => (row.version, row.state, row.holderId)) = [(2, .checkedOut, some "broker")] := by
  decide +kernel

/-- The set that was checked out has its holder, and two events. -/
theorem custody_of_sampleRun : ∃ row ∈ (final submit emptyDb sampleRun).data.keySets.rows,
    row.version = 2 ∧ row.Consistent ∧ (final submit emptyDb sampleRun).data.Recorded row := by
  have hmem : (2, CustodyState.checkedOut, some "broker") ∈
      (final submit emptyDb sampleRun).data.keySets.rows.map
        (fun row => (row.version, row.state, row.holderId)) := by
    rw [states_sampleRun]
    exact List.mem_cons_self
  obtain ⟨row, hrow, hstate⟩ := List.mem_map.mp hmem
  refine ⟨row, hrow, (Prod.mk.inj hstate).1, (custody_of_run sampleRun ?_).1 row hrow⟩
  intro s hs
  obtain ⟨c, -, rfl⟩ := List.mem_map.mp hs
  exact ⟨_, _, _, rfl⟩

end KeyCustody
