import Mathlib.Data.List.Nodup
import MsRealty.Dispatch

/-!
# The ledger of external actions and the alert planner

The table of external actions with its two unique columns, the planner of
search alerts over it (`planSearchAlerts`), and the system they form with the
work on each action. A planning run is one transaction: it cancels the queued
digests whose snapshot no longer holds, and queues a new one only if the
subscription has no other action in the period.

An update of many rows – a delivery report, or the cancellation of every
queued digest when the rule changes – is one event for each row.
-/

/-- **The table of external actions**: ids and effect keys are unique. -/
structure Ledger where
  rows : List ExternalAction
  primaryKey : (rows.map ExternalAction.id).Nodup
  effectKeys : (rows.map ExternalAction.effectKey).Nodup

namespace Ledger

/-- The row of an id. -/
def find? (t : Ledger) (id : Uuid) : Option ExternalAction :=
  t.rows.find? (fun r => decide (r.id = id))

/-- Replaces one row by another version of it. -/
def replace (row r : ExternalAction) : ExternalAction :=
  if r.id = row.id ∧ r.effectKey = row.effectKey then row else r

theorem id_comp_replace (row : ExternalAction) :
    ExternalAction.id ∘ replace row = ExternalAction.id := by
  funext r
  show (replace row r).id = r.id
  unfold replace
  split_ifs with h
  · exact h.1.symm
  · rfl

theorem effectKey_comp_replace (row : ExternalAction) :
    ExternalAction.effectKey ∘ replace row = ExternalAction.effectKey := by
  funext r
  show (replace row r).effectKey = r.effectKey
  unfold replace
  split_ifs with h
  · exact h.2.symm
  · rfl

/-- Updates the table with another version of one row. -/
def set (t : Ledger) (row : ExternalAction) : Ledger where
  rows := t.rows.map (replace row)
  primaryKey := by
    rw [List.map_map, id_comp_replace]
    exact t.primaryKey
  effectKeys := by
    rw [List.map_map, effectKey_comp_replace]
    exact t.effectKeys

/-- **Inserts a row**, unless its id or its effect key is taken. -/
def insert (t : Ledger) (row : ExternalAction) : Option Ledger :=
  if h : row.id ∉ t.rows.map ExternalAction.id
      ∧ row.effectKey ∉ t.rows.map ExternalAction.effectKey then
    some
      { rows := row :: t.rows
        primaryKey := by
          rw [List.map_cons]
          exact List.nodup_cons.mpr ⟨h.1, t.primaryKey⟩
        effectKeys := by
          rw [List.map_cons]
          exact List.nodup_cons.mpr ⟨h.2, t.effectKeys⟩ }
  else none

variable {t : Ledger} {row r : ExternalAction}

theorem eq_of_id (h : row ∈ t.rows) (h' : r ∈ t.rows) (hid : row.id = r.id) :
    row = r :=
  List.inj_on_of_nodup_map t.primaryKey h h' hid

theorem find?_mem {id : Uuid} (h : t.find? id = some row) :
    row ∈ t.rows ∧ row.id = id :=
  ⟨List.mem_of_find?_eq_some h, by simpa using List.find?_some h⟩

/-- **The rows after an update**: the new version, and every other row. -/
theorem mem_set (row : ExternalAction) {old : ExternalAction} (hold : old ∈ t.rows)
    (hid : row.id = old.id)
    (hkey : row.effectKey = old.effectKey) :
    r ∈ (t.set row).rows ↔ r = row ∨ (r ∈ t.rows ∧ r.id ≠ row.id) := by
  show r ∈ t.rows.map (replace row) ↔ _
  rw [List.mem_map]
  unfold replace
  refine ⟨?_, ?_⟩
  · rintro ⟨x, hx, rfl⟩
    by_cases h : x.id = row.id ∧ x.effectKey = row.effectKey
    · rw [if_pos h]
      exact Or.inl rfl
    · rw [if_neg h]
      refine Or.inr ⟨hx, fun hxid => h ⟨hxid, ?_⟩⟩
      rw [eq_of_id hx hold (hxid.trans hid), hkey]
  · rintro (rfl | ⟨hr, hne⟩)
    · exact ⟨old, hold, if_pos ⟨hid.symm, hkey.symm⟩⟩
    · exact ⟨r, hr, if_neg (fun h => hne h.1)⟩

/-- **The rows after an insertion.** -/
theorem insert_cases {t' : Ledger} (h : t.insert row = some t') :
    t'.rows = row :: t.rows ∧ ∀ r ∈ t.rows, r.id ≠ row.id := by
  unfold insert at h
  split_ifs at h with hfree
  cases h
  refine ⟨rfl, fun r hr hid => hfree.1 ?_⟩
  rw [← hid]
  exact List.mem_map_of_mem hr

end Ledger

namespace Alerts

open Outbox ExternalAction JsonValue Dispatch

/-! ## Planning -/

/-- What a planning run reads outside the ledger. -/
structure PlanReads where
  /-- `lockedRecipient`. -/
  eligible : Option Eligible
  /-- `approvedAlertRule`. -/
  approval : Option AlertApproval
  /-- `matchingItems`, and whether its scan stopped early. -/
  items : List AlertItem
  incomplete : Bool
  /-- The id the database gives a new row. -/
  freshId : Uuid
  /-- The wall clock when a cancellation is written. -/
  clock : Instant

/-- What a planning run answers. -/
inductive PlanResult where
  | disabled
  | ineligible
  | ruleUnapproved
  | noMatches
  | periodComplete
  | queued (actionId : Uuid)
  | existing (actionId : Uuid)
  /-- The run threw, and its transaction was rolled back. -/
  | threw

/-- The digests of a subscription. -/
def isSubject (subscriptionId : Uuid) (row : ExternalAction) : Bool :=
  decide (row.subjectType = some alertSubjectType
    ∧ row.subjectId = some subscriptionId)

variable (env : Platform)

/-- Whether a queued digest is still the one that would be planned. -/
def snapshotHolds (eligible : Eligible) (approval : AlertApproval) (period : String)
    (row : ExternalAction) : Bool :=
  match env.safeParse row.payload with
  | none => false
  | some payload =>
    let digest := payload.digest
    decide (row.payloadDigest = env.hashRequest row.payload
      ∧ row.sourceGeneration = some eligible.subscription.version
      ∧ digest.period = period
      ∧ digest.ruleApprovalId = approval.id
      ∧ digest.ruleHash = approval.hash
      ∧ digest.criteriaHash = env.hashRequest eligible.subscription.criteria
      ∧ digest.contactVersion = eligible.contactVersion
      ∧ payload.recipient = eligible.recipient)

/-- **Reviews the queued digests** in order: cancels those whose snapshot no
longer holds, up to the first one that holds. -/
def reviewQueued (holds : ExternalAction → Bool) (clock : Instant) :
    Ledger → List ExternalAction → Ledger × Option ExternalAction
  | t, [] => (t, none)
  | t, row :: rows =>
    if holds row then (t, some row)
    else reviewQueued holds clock
      (t.set (Alerts.cancel row "alert_snapshot_changed" clock)) rows

/-- The payload of a new digest. -/
def newPayload (rule : AlertRule) (now : Instant) (frequency : AlertFrequency)
    (period : String) (eligible : Eligible) (approval : AlertApproval)
    (items : List AlertItem) (incomplete : Bool) : AlertPayload where
  recipient := eligible.recipient
  digest :=
    { subscriptionVersion := eligible.subscription.version
      ruleApprovalId := approval.id
      ruleHash := approval.hash
      contactMethodId := eligible.contactId
      contactVersion := eligible.contactVersion
      policyVersion := eligible.subscription.policyVersion
      templateVersion := rule.templateVersion
      criteriaSnapshot := eligible.subscription.criteria
      criteriaHash := env.hashRequest eligible.subscription.criteria
      locale := eligible.locale
      timezone := eligible.subscription.timezone
      frequency := frequency
      period := period
      plannedAt := env.toISOString now
      preferencesUrl := env.alertPreferencesUrl rule.clientOrigin eligible.locale
      scanIncomplete := incomplete
      items := items }

/-- The identity of a new digest: its subscription, period and content. -/
def effectKey (subscriptionId : Uuid) (period : String) (eligible : Eligible)
    (approval : AlertApproval) (items : List AlertItem) : String :=
  let content := env.hashRequest
    (.obj [("approvalId", .str approval.id), ("items", .arr (items.map itemJson)),
      ("criteria", eligible.subscription.criteria)])
  "search-alert:" ++ subscriptionId ++ ":" ++ period ++ ":v"
    ++ toString eligible.subscription.version ++ ":"
    ++ String.ofList (content.toList.take 24)

/-- The row of a new digest. -/
def newDigest (id subscriptionId : Uuid) (now : Instant) (key : String)
    (version : ℕ) (payload : AlertPayload) : ExternalAction where
  id := id
  version := 1
  updatedAt := now
  kind := .emailSend
  effectKey := key
  subjectType := some alertSubjectType
  subjectId := some subscriptionId
  sourceGeneration := some version
  payload := payloadJson payload
  payloadDigest := env.hashRequest (payloadJson payload)
  secretPayload := none
  state := .queued
  attempts := 0
  provider := none
  providerReference := none
  lastErrorCode := none
  firstAttemptAt := none
  lastAttemptAt := none
  acknowledgedAt := none
  verifiedAt := none
  failedAt := none
  reconciledAt := none

/-- Whether the last digest was sent in the period; `none` if the question
throws. -/
def sentInPeriod (subscription : Subscription) (frequency : AlertFrequency)
    (period : String) : Option Bool :=
  match subscription.lastSentAt with
  | none => some false
  | some last =>
    (alertPeriod env.localDate last subscription.timezone frequency).map
      (fun p => decide (p = period))

/-- Whether the row is a digest of the subscription and period that is not
cancelled. -/
def reservesPeriod (subscriptionId : Uuid) (period : String) (row : ExternalAction) :
    Bool :=
  isSubject subscriptionId row && decide (row.state ≠ .cancelled)
    && decide (periodOf row.payload = some period)

/-- Queues a new digest, unless its key is taken. -/
def queueDigest (t : Ledger) (row : ExternalAction) : Ledger × PlanResult :=
  match t.insert row with
  | some t' => (t', .queued row.id)
  | none => (t, .periodComplete)

/-- **The planning run of a due period**, after the review of the queue. -/
def planPeriod (subscriptionId : Uuid) (rule : AlertRule) (now : Instant)
    (frequency : AlertFrequency) (period : String) (eligible : Eligible)
    (approval : AlertApproval) (reads : PlanReads) (t : Ledger) : Ledger × PlanResult :=
  if t.rows.any (reservesPeriod subscriptionId period) then (t, .periodComplete)
  else
    match sentInPeriod env eligible.subscription frequency period with
    | none => (t, .threw)
    | some true => (t, .periodComplete)
    | some false =>
      if reads.items.isEmpty then (t, .noMatches)
      else
        let payload := newPayload env rule now frequency period eligible approval
          reads.items reads.incomplete
        match env.safeParse (payloadJson payload) with
        | none => (t, .ineligible)
        | some _ =>
          queueDigest t (newDigest env reads.freshId subscriptionId now
            (effectKey env subscriptionId period eligible approval reads.items)
            eligible.subscription.version payload)

/-- **`planSearchAlerts`.** -/
def planSearchAlerts (t : Ledger) (subscriptionId : Uuid) (rule : Option AlertRule)
    (now : Instant) (reads : PlanReads) : Ledger × PlanResult :=
  match rule, reads.eligible, reads.approval with
  | none, _, _ => (t, .disabled)
  | some _, none, _ => (t, .ineligible)
  | some _, some _, none => (t, .ruleUnapproved)
  | some rule, some eligible, some approval =>
    let frequency := eligible.subscription.frequency.getD .daily
    match alertPeriod env.localDate now eligible.subscription.timezone frequency with
    | none => (t, .threw)
    | some period =>
      let queued := (t.rows.filter (fun row => isSubject subscriptionId row
        && decide (row.state = .queued))).mergeSort (fun a b => decide (a.id ≤ b.id))
      match reviewQueued (snapshotHolds env eligible approval period) reads.clock t
          queued with
      | (t', some row) => (t', .existing row.id)
      | (t', none) =>
        match planPeriod env subscriptionId rule now frequency period eligible approval
            reads t' with
        -- A run that throws leaves nothing behind.
        | (_, .threw) => (t, .threw)
        | planned => planned

/-! ## The system -/

/-- **The state of the alerts**: the ledger, and the runs and the lock holder
of each action. -/
structure AlertState where
  ledger : Ledger
  runs : Uuid → RunId → Phase
  holders : Uuid → Option RunId

/-- An event: a planning run, or an event of the work on one action. -/
inductive AlertEvent where
  | plan (subscriptionId : Uuid) (rule : Option AlertRule) (now : Instant)
      (reads : PlanReads)
  | act (actionId : Uuid) (event : Dispatch.Event)

/-- What an event is answered with. -/
inductive AlertOutput where
  | planned (result : PlanResult)
  | acted (output : Dispatch.Output)
  | missing

namespace AlertState

/-- The work on one action. -/
def action (s : AlertState) (row : ExternalAction) : Dispatch.State :=
  ⟨row, s.runs row.id, s.holders row.id⟩

/-- Writes the work on one action back. -/
def put (s : AlertState) (id : Uuid) (w : Dispatch.State) : AlertState where
  ledger := s.ledger.set w.row
  runs := Function.update s.runs id w.runs
  holders := Function.update s.holders id w.holder

end AlertState

/-- **One event of the alert system.** -/
def alertStep (s : AlertState) : AlertEvent → AlertState × AlertOutput
  | .plan subscriptionId rule now reads =>
    let r := planSearchAlerts env s.ledger subscriptionId rule now reads
    ({ s with ledger := r.fst }, .planned r.snd)
  | .act actionId event =>
    match s.ledger.find? actionId with
    | none => (s, .missing)
    | some row =>
      let r := Dispatch.step env (s.action row) event
      (s.put actionId r.fst, .acted r.snd)

theorem alertStep_missing {s : AlertState} {actionId : Uuid} (event : Dispatch.Event)
    (h : s.ledger.find? actionId = none) :
    alertStep env s (.act actionId event) = (s, .missing) := by
  dsimp only [alertStep]
  rw [h]

theorem alertStep_act {s : AlertState} {actionId : Uuid} {row : ExternalAction}
    (event : Dispatch.Event) (h : s.ledger.find? actionId = some row) :
    alertStep env s (.act actionId event)
      = (s.put actionId (Dispatch.step env (s.action row) event).fst,
        .acted (Dispatch.step env (s.action row) event).snd) := by
  dsimp only [alertStep]
  rw [h]

end Alerts
