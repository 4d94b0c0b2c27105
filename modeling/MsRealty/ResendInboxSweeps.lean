import MsRealty.ResendInboxRuns

/-!
# When sweeps make progress

A sweep looks at the oldest waiting events, at most `limit`, and an event whose
reference never comes stays among them. Sweeps settle every event that can be
settled exactly if, for each of them, fewer than `limit` events that cannot be
are as old (`progress_iff`): enough older ones hide it for ever.
-/

namespace ResendInbox

open ExternalAction

variable {data : InboxData} {limit : ℕ} {id : Uuid} {ids : List Uuid} {now at' : Instant}
  {event : InboxEvent}

/-! ## What processing does to the events -/

/-- Whether a sweep selects an event. -/
def InboxEvent.isSweepable (event : InboxEvent) : Bool :=
  event.provider = "resend" && event.state = .received && supported event.eventType

/-- Whether processing an event settles it. -/
def settles (data : InboxData) (event : InboxEvent) : Bool :=
  event.signatureVerified && hasTarget data event

/-- **What processing does to an event.** -/
def serve (data : InboxData) (now : Instant) (event : InboxEvent) : InboxEvent :=
  if !event.isDue then event
  else if !hasTarget data event then event.await
  else event.finish now

/-- What processing some events does to an event. -/
def served (data : InboxData) (ids : List Uuid) (now : Instant) (event : InboxEvent) :
    InboxEvent :=
  if event.id ∈ ids then serve data now event else event

theorem sweepable_eq (data : InboxData) :
    sweepable data = data.events.rows.filter InboxEvent.isSweepable := rfl

theorem isDue_eq (event : InboxEvent) :
    event.isDue = (event.isSweepable && event.signatureVerified) := by
  unfold InboxEvent.isDue InboxEvent.isSweepable
  cases event.signatureVerified <;> simp

/-- What serving keeps of an event. -/
structure SameEvent (event event' : InboxEvent) : Prop where
  id : event'.id = event.id
  payload : event'.payload = event.payload
  signatureVerified : event'.signatureVerified = event.signatureVerified
  receivedAt : event'.receivedAt = event.receivedAt

theorem sameEvent_serve (data : InboxData) (now : Instant) (event : InboxEvent) :
    SameEvent event (serve data now event) := by
  unfold serve
  split
  · exact ⟨rfl, rfl, rfl, rfl⟩
  · split <;> exact ⟨rfl, rfl, rfl, rfl⟩

theorem sameEvent_served (data : InboxData) (ids : List Uuid) (now : Instant)
    (event : InboxEvent) : SameEvent event (served data ids now event) := by
  unfold served
  split
  · exact sameEvent_serve data now event
  · exact ⟨rfl, rfl, rfl, rfl⟩

/-- **A served event leaves the inbox** exactly if serving settles it. -/
theorem isSweepable_serve (data : InboxData) (now : Instant) (event : InboxEvent) :
    (serve data now event).isSweepable = (event.isSweepable && !settles data event) := by
  unfold serve settles
  rw [isDue_eq]
  cases hsweep : event.isSweepable <;> cases hsigned : event.signatureVerified <;>
    cases htarget : hasTarget data event <;> simp [hsweep]
  · exact hsweep
  · unfold InboxEvent.isSweepable InboxEvent.finish
    simp

theorem isSweepable_served (data : InboxData) (ids : List Uuid) (now : Instant)
    (event : InboxEvent) : (served data ids now event).isSweepable
      = (event.isSweepable && !(decide (event.id ∈ ids) && settles data event)) := by
  unfold served
  by_cases hid : event.id ∈ ids
  · rw [if_pos hid, isSweepable_serve]
    simp [hid]
  · rw [if_neg hid]
    simp [hid]

/-- **A report changes no target**: a settled action stays settled. -/
theorem hasTarget_recordDeliveryReport (report : DeliveryReport) (event : InboxEvent) :
    hasTarget (recordDeliveryReport data report at') event = hasTarget data event := by
  unfold hasTarget
  rw [actions_recordDeliveryReport]
  show Option.any _ ((data.actions.rows.map _).find? _) = _
  rw [List.find?_map]
  have hsame : isTarget event.payload.emailId ∘ (fun row => row.recordDeliveryReport report at')
      = isTarget event.payload.emailId := by
    funext row
    have hrow := sameEffect_recordDeliveryReport row report at'
    simp only [Function.comp_apply, isTarget, hrow.provider, hrow.providerReference]
  rw [hsame]
  cases data.actions.rows.find? (isTarget event.payload.emailId) with
  | none => rfl
  | some row =>
    rw [Option.map_some, Option.any_some, Option.any_some]
    unfold ExternalAction.recordDeliveryReport
    cases hmatches : row.matchesReport report with
    | false => rfl
    | true =>
      have hsources := (of_decide_eq_true hmatches).2.2
      have hsettled : row.state ∈ settledStates := by
        unfold DeliveryReport.sources at hsources
        split at hsources <;> cases hstate : row.state <;> simp_all [settledStates]
      rw [decide_eq_true hsettled]
      cases report.delivered <;> rfl

theorem hasTarget_processResendEvent (id : Uuid) (now : Instant) (event : InboxEvent) :
    hasTarget (processResendEvent data id now) event = hasTarget data event := by
  unfold processResendEvent
  split
  · rfl
  · next found _ =>
    split
    · rfl
    · split
      · rfl
      · exact hasTarget_recordDeliveryReport found.report event

theorem rows_setEvent {f : InboxEvent → InboxEvent} (hf : ∀ e, (f e).id = e.id) :
    (setEvent data id f hf).events.rows
      = data.events.rows.map (fun e => if e.id = id then f e else e) := by
  refine List.map_congr_left fun e _ => ?_
  simp only [decide_eq_true_eq]

/-- **The events after one was processed.** -/
theorem rows_processResendEvent (id : Uuid) (now : Instant) :
    (processResendEvent data id now).events.rows
      = data.events.rows.map (served data [id] now) := by
  unfold processResendEvent
  cases hget : data.events.get? id with
  | none =>
    have hno := Table.get?_eq_none.mp hget
    show data.events.rows = _
    refine (List.map_congr_left (g := (fun e => e)) fun e he => ?_).trans (List.map_id _) |>.symm
    exact if_neg fun hmem => hno e he (List.mem_singleton.mp hmem)
  | some found =>
    obtain ⟨hfound, hid⟩ := Table.get?_eq_some.mp hget
    -- The row of the identifier is the one that was read.
    have hserved : ∀ f : InboxEvent → InboxEvent, serve data now found = f found →
        data.events.rows.map (fun e => if e.id = id then f e else e)
          = data.events.rows.map (served data [id] now) := by
      intro f hf
      refine List.map_congr_left fun e he => ?_
      unfold served
      by_cases heq : e.id = id
      · obtain rfl := Table.eq_of_key he hfound (heq.trans hid.symm)
        rw [if_pos heq, if_pos (List.mem_singleton.mpr heq), hf]
      · rw [if_neg heq, if_neg fun hmem => heq (List.mem_singleton.mp hmem)]
    unfold serve at hserved
    by_cases hdue : found.isDue = true
    · by_cases htarget : hasTarget data found = true
      · simp only [hdue, htarget, Bool.not_true, Bool.false_eq_true, if_false] at hserved ⊢
        rw [rows_setEvent, events_recordDeliveryReport]
        exact hserved _ rfl
      · simp only [hdue, htarget, Bool.not_true, Bool.not_false, Bool.false_eq_true, if_false,
          if_true] at hserved ⊢
        rw [rows_setEvent]
        exact hserved _ rfl
    · simp only [hdue, Bool.not_false, if_true] at hserved ⊢
      rw [← hserved (fun e => e) rfl]
      refine (List.map_id _).symm.trans (List.map_congr_left fun e _ => ?_)
      exact (ite_self e).symm

theorem settles_of_same {data' : InboxData} {event event' : InboxEvent}
    (hsame : SameEvent event event')
    (htarget : ∀ e, hasTarget data' e = hasTarget data e) :
    settles data' event' = settles data event := by
  unfold settles
  rw [htarget, hsame.signatureVerified]
  unfold hasTarget
  rw [hsame.payload]

/-- Serving an event again, later in a sweep, does nothing. -/
theorem serve_serve {data' : InboxData} (htarget : ∀ e, hasTarget data' e = hasTarget data e)
    (event : InboxEvent) :
    serve data' now (serve data now event) = serve data now event := by
  have hsame := sameEvent_serve data now event
  have hdue' : (serve data now event).isDue
      = (event.isDue && !hasTarget data event) := by
    rw [isDue_eq, isSweepable_serve, hsame.signatureVerified, isDue_eq, settles]
    cases event.isSweepable <;> cases event.signatureVerified <;> simp
  have htarget' : hasTarget data' (serve data now event) = hasTarget data event := by
    rw [htarget]
    unfold hasTarget
    rw [hsame.payload]
  have hserve : ∀ e, serve data' now e = if !e.isDue then e
      else if !hasTarget data' e then e.await else e.finish now := fun _ => rfl
  rw [hserve, hdue', htarget']
  cases hdue : event.isDue <;> cases hhas : hasTarget data event <;> simp [serve, hdue, hhas]
  rfl

/-- **The events after a sweep.** -/
theorem processAll_spec (ids : List Uuid) (now : Instant) :
    (processAll data ids now).events.rows = data.events.rows.map (served data ids now)
      ∧ ∀ e, hasTarget (processAll data ids now) e = hasTarget data e := by
  induction ids generalizing data with
  | nil =>
    refine ⟨(List.map_id _).symm.trans (List.map_congr_left fun e _ => ?_), fun e => rfl⟩
    simp [served]
  | cons id ids ih =>
    obtain ⟨hrows, htargets⟩ := @ih (processResendEvent data id now)
    have hfirst : ∀ e, hasTarget (processResendEvent data id now) e = hasTarget data e :=
      hasTarget_processResendEvent id now
    refine ⟨?_, fun e => (htargets e).trans (hfirst e)⟩
    show (processAll (processResendEvent data id now) ids now).events.rows = _
    rw [hrows, rows_processResendEvent, List.map_map]
    refine List.map_congr_left fun e _ => ?_
    have hid := (sameEvent_served data [id] now e).id
    have hserve : ∀ e, serve (processResendEvent data id now) now e = serve data now e := by
      intro e
      unfold serve
      rw [hfirst]
    rw [Function.comp_apply, served, hid, hserve]
    unfold served
    by_cases hhead : e.id = id
    · rw [if_pos (List.mem_singleton.mpr hhead), if_pos (List.mem_cons.mpr (.inl hhead)),
        serve_serve (fun _ => rfl), ite_self]
    · rw [if_neg fun hmem => hhead (List.mem_singleton.mp hmem)]
      refine if_congr ?_ rfl rfl
      rw [List.mem_cons]
      exact ⟨.inr, fun h => h.resolve_left hhead⟩

/-- **What waits after a sweep.** -/
theorem sweepable_processAll (ids : List Uuid) (now : Instant) :
    sweepable (processAll data ids now)
      = ((sweepable data).filter
          (fun e => !(decide (e.id ∈ ids) && settles data e))).map (served data ids now) := by
  rw [sweepable_eq, sweepable_eq, (processAll_spec ids now).1, List.filter_map, List.filter_filter]
  refine congrArg (List.map _) (List.filter_congr fun e _ => ?_)
  rw [Function.comp_apply, isSweepable_served, Bool.and_comm]

/-! ## Blocking events -/

/-- Whether an event cannot be settled and is as old as an instant. -/
def blocks (data : InboxData) (instant : Instant) (event : InboxEvent) : Bool :=
  !settles data event && decide (event.receivedAt ≤ instant)

/-- **The condition**: every event that has its action is signed, and fewer than
`limit` events that cannot be settled are as old. -/
def Unblocked (limit : ℕ) (data : InboxData) : Prop :=
  ∀ e ∈ sweepable data, hasTarget data e = true →
    e.signatureVerified = true ∧ (sweepable data).countP (blocks data e.receivedAt) < limit

/-- **Sweeps make progress**: however the database lists events of one instant,
after finitely many sweeps no event that has its action waits. -/
def Progress (limit : ℕ) (data : InboxData) : Prop :=
  ∀ run : ℕ → InboxData, run 0 = data → (∀ n, Sweeps limit (run n) (run (n + 1))) →
    ∃ n, ∀ e ∈ sweepable (run n), hasTarget (run n) e = false

theorem blocks_of_same {data' : InboxData} {event event' : InboxEvent} (instant : Instant)
    (hsame : SameEvent event event')
    (htarget : ∀ e, hasTarget data' e = hasTarget data e) :
    blocks data' instant event' = blocks data instant event := by
  unfold blocks
  rw [settles_of_same hsame htarget, hsame.receivedAt]

/-- **A sweep neither adds nor removes blocking events.** -/
theorem countP_blocks_processAll (ids : List Uuid) (now instant : Instant) :
    (sweepable (processAll data ids now)).countP (blocks (processAll data ids now) instant)
      = (sweepable data).countP (blocks data instant) := by
  rw [sweepable_processAll, List.countP_map, List.countP_filter]
  refine List.countP_congr fun e _ => ?_
  rw [Function.comp_apply, blocks_of_same instant (sameEvent_served data ids now e)
    (processAll_spec ids now).2]
  unfold blocks
  cases settles data e <;> simp

variable {data' : InboxData} {instant : Instant}

theorem Sweeps.hasTarget_eq (h : Sweeps limit data data') (e : InboxEvent) :
    hasTarget data' e = hasTarget data e := by
  obtain ⟨listed, now, -, -, rfl⟩ := h
  exact (processAll_spec _ now).2 e

theorem Sweeps.countP_blocks (h : Sweeps limit data data') :
    (sweepable data').countP (blocks data' instant)
      = (sweepable data).countP (blocks data instant) := by
  obtain ⟨listed, now, -, -, rfl⟩ := h
  exact countP_blocks_processAll _ now instant

/-- What waits after a sweep waited before it. -/
theorem Sweeps.exists_same (h : Sweeps limit data data') {e : InboxEvent}
    (he : e ∈ sweepable data') : ∃ e₀ ∈ sweepable data, SameEvent e₀ e := by
  obtain ⟨listed, now, -, -, rfl⟩ := h
  rw [sweepable_processAll] at he
  obtain ⟨e₀, he₀, rfl⟩ := List.mem_map.mp he
  exact ⟨e₀, (List.mem_filter.mp he₀).1, sameEvent_served data _ now e₀⟩

theorem hasTarget_of_same {e e' : InboxEvent} (hsame : SameEvent e e') :
    hasTarget data e' = hasTarget data e := by
  unfold hasTarget
  rw [hsame.payload]

/-- **The condition stays**, whatever a sweep processes. -/
theorem Unblocked.of_sweeps (h : Unblocked limit data) (hsweeps : Sweeps limit data data') :
    Unblocked limit data' := by
  intro e he htarget
  obtain ⟨e₀, he₀, hsame⟩ := hsweeps.exists_same he
  rw [hsweeps.hasTarget_eq, hasTarget_of_same hsame] at htarget
  rw [hsweeps.countP_blocks, hsame.receivedAt, hsame.signatureVerified]
  exact h e₀ he₀ htarget

/-! ## Progress -/

/-- Fewer items satisfy a condition than a weaker one that one more satisfies. -/
theorem countP_lt_countP {α : Type*} {l : List α} {p q : α → Bool} {a : α} (ha : a ∈ l)
    (hpq : ∀ b ∈ l, p b = true → q b = true) (hq : q a = true) (hp : p a = false) :
    l.countP p < l.countP q := by
  induction l with
  | nil => cases ha
  | cons b l ih =>
    obtain ⟨hb, hl⟩ := List.forall_mem_cons.mp hpq
    have hle := List.countP_mono_left hl
    rw [List.countP_cons, List.countP_cons]
    rcases List.mem_cons.mp ha with rfl | ha
    · rw [hp, hq]
      simpa using Nat.lt_succ_of_le hle
    · have hlt := ih ha hl
      cases hpb : p b with
      | false => simpa using Nat.lt_of_lt_of_le hlt (Nat.le_add_right _ _)
      | true => simpa [hb hpb] using hlt

/-- **The oldest event that can be settled is among those a sweep processes.** -/
theorem exists_mem_take {listed : List InboxEvent} (hperm : listed.Perm (sweepable data))
    (hsorted : listed.Pairwise (fun a b => a.receivedAt ≤ b.receivedAt))
    (h : Unblocked limit data) {e : InboxEvent} (he : e ∈ sweepable data)
    (htarget : hasTarget data e = true) :
    ∃ e ∈ listed.take limit, settles data e = true := by
  have hsettles : settles data e = true := by
    rw [settles, (h e he htarget).1, htarget]
    rfl
  cases hfind : listed.find? (settles data) with
  | none => exact absurd hsettles (List.find?_eq_none.mp hfind e (hperm.mem_iff.mpr he))
  | some first =>
    obtain ⟨hfirst, before, after, rfl, hbefore⟩ := List.find?_eq_some_iff_append.mp hfind
    have hmem : first ∈ sweepable data :=
      hperm.mem_iff.mp (List.mem_append_right _ List.mem_cons_self)
    have holder : ∀ b ∈ before, b.receivedAt ≤ first.receivedAt := fun b hb =>
      (List.pairwise_append.mp hsorted).2.2 b hb first List.mem_cons_self
    have hfirstTarget : hasTarget data first = true := by
      simp only [settles, Bool.and_eq_true] at hfirst
      exact hfirst.2
    have hcount := (h first hmem hfirstTarget).2
    rw [← hperm.countP_eq, List.countP_append] at hcount
    have hblock : before.countP (blocks data first.receivedAt) = before.length := by
      refine List.countP_eq_length.mpr fun b hb => ?_
      have hno := hbefore b hb
      simp only [Bool.not_eq_true'] at hno
      simp [blocks, hno, holder b hb]
    refine ⟨first, ?_, hfirst⟩
    rw [List.mem_take_iff_getElem]
    refine ⟨before.length, ?_, ?_⟩
    · simp only [List.length_append, List.length_cons]
      omega
    · simp

/-- How many events wait that can be settled. -/
def waiting (data : InboxData) : ℕ := (sweepable data).countP (settles data)

/-- **A sweep settles an event**, if there is one it can settle. -/
theorem waiting_lt (h : Unblocked limit data) (hsweeps : Sweeps limit data data')
    (hleft : ∃ e ∈ sweepable data, hasTarget data e = true) : waiting data' < waiting data := by
  obtain ⟨e, he, htarget⟩ := hleft
  obtain ⟨listed, now, hperm, hsorted, rfl⟩ := hsweeps
  obtain ⟨first, hfirst, hsettles⟩ := exists_mem_take hperm hsorted h he htarget
  have hmem : first ∈ sweepable data := hperm.mem_iff.mp (List.mem_of_mem_take hfirst)
  unfold waiting
  rw [sweepable_processAll, List.countP_map, List.countP_filter]
  have hid : first.id ∈ (listed.take limit).map InboxEvent.id := List.mem_map_of_mem hfirst
  refine countP_lt_countP hmem (fun b _ hb => ?_) hsettles ?_
  swap
  · rw [decide_eq_true hid, hsettles]
    exact Bool.and_false _
  rw [Function.comp_apply, settles_of_same (sameEvent_served data _ now b)
    (processAll_spec _ now).2, Bool.and_eq_true] at hb
  exact hb.1

/-- The condition is enough. -/
theorem progress_of_unblocked (h : Unblocked limit data) : Progress limit data := by
  intro run hstart hsweeps
  by_contra hnever
  have hleft : ∀ n, ∃ e ∈ sweepable (run n), hasTarget (run n) e = true := by
    intro n
    by_contra hno
    refine hnever ⟨n, fun e he => ?_⟩
    cases htarget : hasTarget (run n) e with
    | false => rfl
    | true => exact absurd ⟨e, he, htarget⟩ hno
  have hunblocked : ∀ n, Unblocked limit (run n) := by
    intro n
    induction n with
    | zero => exact hstart ▸ h
    | succ n ih => exact ih.of_sweeps (hsweeps n)
  have hrank : ∀ n, waiting (run n) + n ≤ waiting (run 0) := by
    intro n
    induction n with
    | zero => exact le_rfl
    | succ n ih =>
      have hlt := waiting_lt (hunblocked n) (hsweeps n) (hleft n)
      omega
  have hend := hrank (waiting (run 0) + 1)
  omega

/-! ## Starvation -/

/-- An order in which the database may list events: of one instant, those that
cannot be settled first. -/
def listsBefore (data : InboxData) (a b : InboxEvent) : Bool :=
  decide (a.receivedAt < b.receivedAt)
    || decide (a.receivedAt = b.receivedAt) && (!settles data a || settles data b)

theorem listsBefore_iff {a b : InboxEvent} : listsBefore data a b = true ↔
    a.receivedAt < b.receivedAt ∨ a.receivedAt = b.receivedAt ∧
      (settles data a = true → settles data b = true) := by
  unfold listsBefore
  cases settles data a <;> simp

theorem listsBefore_trans (data : InboxData) (a b c : InboxEvent)
    (hab : listsBefore data a b = true) (hbc : listsBefore data b c = true) :
    listsBefore data a c = true := by
  rw [listsBefore_iff] at *
  rcases hab with hab | ⟨hab, hsettles⟩ <;> rcases hbc with hbc | ⟨hbc, hsettles'⟩
  · exact .inl (hab.trans hbc)
  · exact .inl (hbc ▸ hab)
  · exact .inl (hab ▸ hbc)
  · exact .inr ⟨hab.trans hbc, fun h => hsettles' (hsettles h)⟩

theorem listsBefore_total (data : InboxData) (a b : InboxEvent) :
    (listsBefore data a b || listsBefore data b a) = true := by
  rw [Bool.or_eq_true, listsBefore_iff, listsBefore_iff]
  rcases lt_trichotomy a.receivedAt b.receivedAt with h | h | h
  · exact .inl (.inl h)
  · by_cases hb : settles data b = true
    · exact .inl (.inr ⟨h, fun _ => hb⟩)
    · exact .inr (.inr ⟨h.symm, fun hb' => absurd hb' hb⟩)
  · exact .inr (.inl h)

theorem receivedAt_le_of_listsBefore {a b : InboxEvent} (h : listsBefore data a b = true) :
    a.receivedAt ≤ b.receivedAt :=
  (listsBefore_iff.mp h).elim le_of_lt fun h => h.1.le

/-- The events in that order. -/
def listed (data : InboxData) : List InboxEvent := (sweepable data).mergeSort (listsBefore data)

/-- A sweep that lists the events in that order. -/
def unluckySweep (limit : ℕ) (data : InboxData) : InboxData :=
  processAll data (((listed data).take limit).map InboxEvent.id) 0

theorem sweeps_unluckySweep (limit : ℕ) (data : InboxData) :
    Sweeps limit data (unluckySweep limit data) := by
  refine ⟨listed data, 0, List.mergeSort_perm _ _, ?_, rfl⟩
  exact (List.pairwise_mergeSort (listsBefore_trans data) (listsBefore_total data)
    (sweepable data)).imp receivedAt_le_of_listsBefore

/-- **An event is stuck**: it has its action and waits, and is unsigned or behind
`limit` events that cannot be settled. -/
def Stuck (limit : ℕ) (data : InboxData) : Prop :=
  ∃ e ∈ sweepable data, hasTarget data e = true
    ∧ (e.signatureVerified = false ∨ limit ≤ (sweepable data).countP (blocks data e.receivedAt))

theorem stuck_of_not_unblocked (h : ¬ Unblocked limit data) : Stuck limit data := by
  unfold Unblocked at h
  push Not at h
  obtain ⟨e, he, htarget, hblocked⟩ := h
  refine ⟨e, he, htarget, ?_⟩
  cases hsigned : e.signatureVerified with
  | false => exact .inl rfl
  | true => exact .inr (hblocked hsigned)

/-- **An event behind `limit` others** is not among those the sweep processes. -/
theorem not_mem_take {e : InboxEvent} (he : e ∈ sweepable data) (hsettles : settles data e = true)
    (hbehind : limit ≤ (sweepable data).countP (blocks data e.receivedAt)) :
    e.id ∉ ((listed data).take limit).map InboxEvent.id := by
  have hperm : (listed data).Perm (sweepable data) := List.mergeSort_perm _ _
  have hsorted := List.pairwise_mergeSort (listsBefore_trans data) (listsBefore_total data)
    (sweepable data)
  obtain ⟨before, after, hsplit⟩ := List.mem_iff_append.mp (hperm.mem_iff.mpr he)
  rw [show (sweepable data).mergeSort (listsBefore data) = listed data from rfl, hsplit] at hsorted
  -- What comes after the event does not block it.
  have hafter : (e :: after).countP (blocks data e.receivedAt) = 0 := by
    refine List.countP_eq_zero.mpr fun u hu => ?_
    rcases List.mem_cons.mp hu with rfl | hu
    · simp [blocks, hsettles]
    · have hlist := (List.pairwise_cons.mp (List.pairwise_append.mp hsorted).2.1).1 u hu
      simp only [blocks, Bool.and_eq_true, Bool.not_eq_true', decide_eq_true_eq, not_and, not_le]
      intro hno
      refine (listsBefore_iff.mp hlist).resolve_right fun hsame => ?_
      rw [hsame.2 hsettles] at hno
      cases hno
  rw [← hperm.countP_eq, hsplit, List.countP_append, hafter, Nat.add_zero] at hbehind
  have hlength : limit ≤ before.length := hbehind.trans List.countP_le_length
  have hnodup : ((listed data).map InboxEvent.id).Nodup := by
    rw [(hperm.map InboxEvent.id).nodup_iff]
    exact data.events.unique_filter _
  rw [hsplit, List.map_append, List.map_cons] at hnodup
  rw [hsplit, List.take_append_of_le_length hlength]
  intro hmem
  have hmem' : e.id ∈ before.map InboxEvent.id := by
    obtain ⟨u, hu, heq⟩ := List.mem_map.mp hmem
    exact List.mem_map.mpr ⟨u, List.mem_of_mem_take hu, heq⟩
  exact (List.nodup_append.mp hnodup).2.2 e.id hmem' e.id List.mem_cons_self rfl

/-- **What is stuck stays stuck** when the database lists events so. -/
theorem Stuck.unluckySweep (h : Stuck limit data) : Stuck limit (unluckySweep limit data) := by
  obtain ⟨e, he, htarget, hbehind⟩ := h
  have hsweeps := sweeps_unluckySweep limit data
  have hmem : e.id ∉ ((listed data).take limit).map InboxEvent.id ∨ settles data e = false := by
    cases hsettles : settles data e with
    | false => exact .inr rfl
    | true =>
      refine .inl (not_mem_take he hsettles (hbehind.resolve_left fun hunsigned => ?_))
      rw [settles, hunsigned] at hsettles
      cases hsettles
  have hsame := sameEvent_served data (((listed data).take limit).map InboxEvent.id) 0 e
  refine ⟨served data (((listed data).take limit).map InboxEvent.id) 0 e, ?_, ?_, ?_⟩
  · show _ ∈ sweepable (processAll data _ 0)
    rw [sweepable_processAll]
    refine List.mem_map_of_mem (List.mem_filter.mpr ⟨he, ?_⟩)
    rcases hmem with hid | hsettles
    · simp only [decide_eq_false hid, Bool.false_and, Bool.not_false]
    · simp only [hsettles, Bool.and_false, Bool.not_false]
  · rw [hsweeps.hasTarget_eq, hasTarget_of_same hsame, htarget]
  · rw [hsweeps.countP_blocks, hsame.receivedAt, hsame.signatureVerified]
    exact hbehind

/-- The condition is needed. -/
theorem unblocked_of_progress (h : Progress limit data) : Unblocked limit data := by
  by_contra hblocked
  have hstuck : ∀ n, Stuck limit ((unluckySweep limit)^[n] data) := by
    intro n
    induction n with
    | zero => exact stuck_of_not_unblocked hblocked
    | succ n ih =>
      rw [Function.iterate_succ_apply']
      exact ih.unluckySweep
  obtain ⟨n, hdone⟩ := h (fun n => (unluckySweep limit)^[n] data) rfl fun n => by
    rw [Function.iterate_succ_apply']
    exact sweeps_unluckySweep limit _
  obtain ⟨e, he, htarget, -⟩ := hstuck n
  rw [hdone e he] at htarget
  cases htarget

/-- **Sweeps make progress exactly if no event is hidden** by `limit` events that
are as old and cannot be settled. -/
theorem progress_iff (limit : ℕ) (data : InboxData) : Progress limit data ↔ Unblocked limit data :=
  ⟨unblocked_of_progress, progress_of_unblocked⟩

/-- A stored delivery of a mail. -/
def sampleDelivery (id emailId : String) (receivedAt : Instant) : InboxEvent where
  id := id
  provider := "resend"
  eventId := id
  eventType := delivered
  signatureVerified := true
  payload := ⟨some emailId, "2026-03-01T10:00:00Z", by decide +kernel⟩
  state := .received
  receivedAt := receivedAt
  processedAt := none
  errorCode := none

/-- A delivery whose reference never comes, and a later one of an accepted mail. -/
def sampleInbox : InboxData where
  events := ⟨[sampleDelivery "i-1" "lost" 0, sampleDelivery "i-2" "reference" 1], by decide⟩
  actions := ⟨[{ sampleAction with
    state := .acknowledged, providerReference := some "reference" }], List.nodup_singleton _⟩
  messages := Table.empty
  attempts := Table.empty

/-- **One lost delivery hides a later one** from every sweep of one event. -/
theorem not_progress_sampleInbox : ¬ Progress 1 sampleInbox := by
  intro h
  have hcount := (unblocked_of_progress h (sampleDelivery "i-2" "reference" 1) (by
    rw [sweepable_eq, List.mem_filter]
    exact ⟨List.mem_cons_of_mem _ List.mem_cons_self, by decide +kernel⟩) (by decide +kernel)).2
  exact absurd hcount (by decide +kernel)

/-! ## What the server runs -/

/-- **What the server does to the inbox**: a webhook is received, or a sweep runs. -/
inductive Call (isUuid : String → Bool) (secret : String) (limit : ℕ) : InboxData → InboxData → Prop
  | webhook {data data' : InboxData} {request : WebhookRequest} {freshId : Uuid} {now : Instant}
      {duplicate : Bool} :
    receiveResendWebhook isUuid secret request data freshId now = .ok (duplicate, data') →
    Call isUuid secret limit data data'
  | sweep {data data' : InboxData} : Sweeps limit data data' → Call isUuid secret limit data data'

/-- An event that a step stores was read from a request that was verified. -/
def FromWebhook (isUuid : String → Bool) (secret : String) : Step → Prop
  | .store _ eventId event _ => ∃ request, readWebhook isUuid secret request = .ok (eventId, event)
  | _ => True

end ResendInbox
