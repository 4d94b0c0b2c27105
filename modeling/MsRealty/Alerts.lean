import MsRealty.Calendar
import MsRealty.Outbox

/-!
# Search alerts

The planner and the dispatcher of search-alert digests
(`src/server/subscriptions/`). A digest is due once per *period*: a calendar
day or a week of the subscriber's local dates (`alertPeriod`). The planner
turns a due period into one queued external action; the dispatcher claims the
action, re-checks in a second transaction that everything the digest was
planned from still holds, and sends it while it holds the row's lock.

What the code reads outside the ledger – the subscription and its consent,
the approved rule, the published listings – and the library functions it
calls are parameters: the former belong to the event, since they may change
between any two of them, and the latter are gathered in `Platform`.
-/

/-- How often a subscriber wants a digest. -/
inductive AlertFrequency where
  | daily
  | weekly
  deriving DecidableEq

/-- A local date as a date formatter displays it: its year is a year of the
era, counted from 1. -/
structure LocalDate extends CivilDate where
  year_pos : 1 ≤ year

/-- 1970-01-01, as a local date. -/
def LocalDate.epoch : LocalDate := { CivilDate.epoch with year_pos := by decide }

/-- One listing of a digest. -/
structure AlertItem where
  listingId : Uuid
  listingRevisionId : Uuid
  manifestId : Uuid
  reference : String
  title : Option String
  sourceUrl : String
  /-- Whether the listing matches; otherwise it needs confirmation. -/
  isMatch : Bool
  unconfirmed : List String

/-- **The snapshot a digest is planned from.** -/
structure AlertDigest where
  subscriptionVersion : ℕ
  ruleApprovalId : Uuid
  ruleHash : String
  contactMethodId : Uuid
  contactVersion : ℕ
  policyVersion : String
  templateVersion : String
  criteriaSnapshot : JsonValue
  criteriaHash : String
  locale : String
  timezone : String
  frequency : AlertFrequency
  period : String
  plannedAt : String
  preferencesUrl : String
  scanIncomplete : Bool
  items : List AlertItem

/-- The payload of a digest. Its channel and template are fixed. -/
structure AlertPayload where
  recipient : String
  digest : AlertDigest

/-- The library functions the code calls. -/
structure Platform where
  /-- The local date `Intl.DateTimeFormat` displays in a time zone. -/
  localDate : String → Instant → LocalDate
  /-- `hashRequest`: the digest of the canonical JSON text. -/
  hashRequest : JsonValue → String
  /-- `alertPayload.safeParse`. -/
  safeParse : JsonValue → Option AlertPayload
  /-- `alertPreferencesUrl`, from an origin and a locale. -/
  alertPreferencesUrl : String → String → String
  /-- `Date.prototype.toISOString`. -/
  toISOString : Instant → String

namespace AlertFrequency

/-- The name of a frequency in the database. -/
def name : AlertFrequency → String
  | .daily => "daily"
  | .weekly => "weekly"

end AlertFrequency

namespace Alerts

open Outbox ExternalAction JsonValue

/-! ## Periods -/

/-- **The period an instant falls in**, as a label. `localDate` is the date
the formatter displays. A week is named by its Monday; the date is read back
through the ISO format, whose years have four digits, so a week of another
year has no label. -/
def alertPeriod (localDate : String → Instant → LocalDate) (now : Instant)
    (timezone : String) (frequency : AlertFrequency) : Option String :=
  let date := localDate timezone now
  match frequency with
  | .daily => some ("day:" ++ String.ofList (date.isoText 1))
  | .weekly =>
    if 1000 ≤ date.year ∧ date.year ≤ 9999 then
      some ("week:" ++ String.ofList (date.monday.isoText 4))
    else none

/-- What the label of a period stands for: the local date, or its week. -/
def sameBucket (localDate : String → Instant → LocalDate) (timezone : String)
    (frequency : AlertFrequency) (now now' : Instant) : Prop :=
  let date := localDate timezone now
  let date' := localDate timezone now'
  match frequency with
  | .daily => date.toCivilDate = date'.toCivilDate
  | .weekly => (date.days + 3) / 7 = (date'.days + 3) / 7

theorem label_inj {pre : String} {l l' : List Char} :
    some (pre ++ String.ofList l) = some (pre ++ String.ofList l') ↔ l = l' := by
  rw [Option.some_inj, String.append_right_inj, String.ofList_inj]

/-- **Periods of one cadence partition time**: two instants with a label have
the same one exactly when they lie on the same local date, or in the same
week of local dates. -/
theorem alertPeriod_eq_iff {localDate : String → Instant → LocalDate}
    {timezone : String} {frequency : AlertFrequency} {now now' : Instant}
    {period period' : String}
    (h : alertPeriod localDate now timezone frequency = some period)
    (h' : alertPeriod localDate now' timezone frequency = some period') :
    period = period' ↔ sameBucket localDate timezone frequency now now' := by
  rw [← Option.some_inj, ← h, ← h']
  unfold sameBucket alertPeriod at *
  cases frequency with
  | daily =>
    have hyear := (localDate timezone now).year_pos
    have hyear' := (localDate timezone now').year_pos
    rw [label_inj]
    exact CivilDate.isoText_inj (by omega) (by omega)
  | weekly =>
    dsimp only at h h' ⊢
    split_ifs at h h' with hyear hyear'
    rw [if_pos hyear, if_pos hyear', label_inj, ← CivilDate.monday_eq_iff]
    have hmonday := CivilDate.le_year_monday (localDate timezone now).toCivilDate
    have hmonday' := CivilDate.le_year_monday (localDate timezone now').toCivilDate
    exact CivilDate.isoText_inj (by omega) (by omega)

/-! ## Payloads -/

/-- The JSON of an optional text. -/
def optionalText : Option String → JsonValue
  | some s => .str s
  | none => .null

/-- The JSON of a listing of a digest. -/
def itemJson (item : AlertItem) : JsonValue :=
  .obj
    [("listingId", .str item.listingId),
      ("listingRevisionId", .str item.listingRevisionId),
      ("manifestId", .str item.manifestId),
      ("reference", .str item.reference),
      ("title", optionalText item.title),
      ("sourceUrl", .str item.sourceUrl),
      ("match", .str (if item.isMatch then "match" else "needs_confirmation")),
      ("unconfirmed", .arr (item.unconfirmed.map .str))]

/-- The JSON of the snapshot. -/
def digestJson (digest : AlertDigest) : JsonValue :=
  .obj
    [("schemaVersion", .num 1),
      ("subscriptionVersion", .num digest.subscriptionVersion),
      ("ruleApprovalId", .str digest.ruleApprovalId),
      ("ruleHash", .str digest.ruleHash),
      ("contactMethodId", .str digest.contactMethodId),
      ("contactVersion", .num digest.contactVersion),
      ("policyVersion", .str digest.policyVersion),
      ("templateVersion", .str digest.templateVersion),
      ("criteriaSnapshot", digest.criteriaSnapshot),
      ("criteriaHash", .str digest.criteriaHash),
      ("locale", .str digest.locale),
      ("timezone", .str digest.timezone),
      ("frequency", .str digest.frequency.name),
      ("period", .str digest.period),
      ("plannedAt", .str digest.plannedAt),
      ("preferencesUrl", .str digest.preferencesUrl),
      ("scanIncomplete", .bool digest.scanIncomplete),
      ("items", .arr (digest.items.map itemJson))]

/-- The JSON of a payload. -/
def payloadJson (payload : AlertPayload) : JsonValue :=
  .obj
    [("channel", .str "email"),
      ("recipient", .str payload.recipient),
      ("template", .str alertTemplate),
      ("params", .obj [("digest", digestJson payload.digest)])]

/-- **The period of a stored payload**, as the planner's query reads it. -/
def periodOf (payload : JsonValue) : Option String := do
  let params ← payload.get? "params"
  let digest ← params.get? "digest"
  let period ← digest.get? "period"
  period.asString?

/-! ## What the planner and the dispatcher read -/

/-- The rule digests are sent under. -/
structure AlertRule where
  templateVersion : String
  publicOrigin : String
  clientOrigin : String

/-- A subscription, as far as alerts read it. -/
structure Subscription where
  version : ℕ
  timezone : String
  frequency : Option AlertFrequency
  policyVersion : String
  criteria : JsonValue
  lastSentAt : Option Instant

/-- `lockedRecipient`: a subscription that may be served. -/
structure Eligible where
  subscription : Subscription
  contactId : Uuid
  contactVersion : ℕ
  recipient : String
  /-- The locale of the saved search. -/
  locale : String

/-- `approvedAlertRule`: the live approval of the rule. -/
structure AlertApproval where
  id : Uuid
  hash : String

/-- What a re-check of a planned digest reads. -/
structure CurrentReads where
  eligible : Option Eligible
  /-- The live approval, if it is the one asked for. -/
  approval : String → Option AlertApproval
  /-- `renderSearchAlert` accepts the message. -/
  rendered : Bool
  /-- `matchingItems`: those of the planned listings that still match. -/
  current : List AlertItem → List AlertItem
  /-- The wall clock when a cancellation is written. -/
  clock : Instant

variable (env : Platform)

/-- Whether the row is a digest whose payload is the one that was planned. -/
def isDigest (row : ExternalAction) : Bool :=
  decide (row.kind = .emailSend ∧ row.subjectType = some alertSubjectType
    ∧ row.subjectId.isSome ∧ row.payloadDigest = env.hashRequest row.payload)

/-- Whether the subscriber, the consent and the saved search are those the
digest was planned from. -/
def subscriptionUnchanged (row : ExternalAction) (payload : AlertPayload)
    (eligible : Eligible) : Bool :=
  let digest := payload.digest
  let subscription := eligible.subscription
  decide (row.sourceGeneration = some subscription.version
    ∧ digest.subscriptionVersion = subscription.version
    ∧ digest.contactMethodId = eligible.contactId
    ∧ digest.contactVersion = eligible.contactVersion
    ∧ payload.recipient = eligible.recipient
    ∧ digest.policyVersion = subscription.policyVersion
    ∧ digest.criteriaHash = env.hashRequest subscription.criteria
    ∧ env.hashRequest digest.criteriaSnapshot = digest.criteriaHash
    ∧ digest.locale = eligible.locale
    ∧ digest.timezone = subscription.timezone
    ∧ some digest.frequency = subscription.frequency)

/-- Whether the listings that still match are the planned ones. -/
def itemsUnchanged (planned current : List AlertItem) : Bool :=
  decide (current.length = planned.length
    ∧ ∀ item ∈ planned, ∃ live ∈ current,
      env.hashRequest (itemJson live) = env.hashRequest (itemJson item))

/-- **The payload, if everything it was planned from still holds.** An instant
without a period is an error. -/
def currentPayload (row : ExternalAction) (now : Instant) (reads : CurrentReads) :
    Except Unit (Option AlertPayload) :=
  match env.safeParse row.payload, reads.eligible with
  | some payload, some eligible =>
    let digest := payload.digest
    if !isDigest env row || !subscriptionUnchanged env row payload eligible then
      .ok none
    else
      match alertPeriod env.localDate now eligible.subscription.timezone
          digest.frequency with
      | none => .error ()
      | some period =>
        match reads.approval digest.ruleApprovalId with
        | none => .ok none
        | some approval =>
          if digest.period = period ∧ approval.hash = digest.ruleHash
              ∧ reads.rendered = true
              ∧ itemsUnchanged env digest.items (reads.current digest.items) = true then
            .ok (some payload)
          else .ok none
  | _, _ => .ok none

/-! ## Dispatch -/

/-- `cancel`: cancels a row that is queued or attempting. -/
def cancel (row : ExternalAction) (code : String) (now : Instant) : ExternalAction :=
  if row.state ∈ [ExternalActionState.queued, .attempting] then row.cancel code now
  else row

/-- **The first transaction of `dispatchSearchAlert`.** -/
def claimAlert (row : ExternalAction) (rule : Option AlertRule) (provider : String)
    (now : Instant) (reads : CurrentReads) : ClaimResult :=
  if row.state ≠ .queued ∨ rule.isNone then .declined
  else
    match currentPayload env row now reads with
    | .error _ => .declined
    | .ok none => .cancelled (cancel row "alert_eligibility_changed" reads.clock)
    | .ok (some _) =>
      if row.windowPassed now then
        .cancelled (cancel row "alert_retry_window_expired" reads.clock)
      else
        let updated := { row.claim provider now with updatedAt := now }
        .claimed updated updated

/-- The message of a digest. -/
def outboundAlert (row : ExternalAction) (payload : AlertPayload) : OutboundMessage where
  outboxId := row.id
  idempotencyKey := row.effectKey
  channel := some (.str "email")
  recipient := some (.str payload.recipient)
  template := some (.str alertTemplate)
  params := some (.obj [("digest", digestJson payload.digest)])
  secretParams := none

/-- **The second transaction, up to the provider call.** `copy` is the row as
the claim left it, `row` the row as it is now. The cancellation comes before
the row is read again. -/
def handoffAlert (row copy : ExternalAction) (now : Instant) (reads : CurrentReads) :
    HandoffResult :=
  match currentPayload env copy now reads with
  | .error _ => .ended
  | .ok none => .cancelled (cancel row "alert_eligibility_changed" reads.clock)
  | .ok (some payload) =>
    if row.state ≠ .attempting ∨ row.version ≠ copy.version then .ended
    else .send (outboundAlert copy payload) true

/-- **The second transaction, after the provider call.** The row's lock is
held since the state was read, and the update is unconditional. -/
def settleAlert (row copy : ExternalAction) (now : Instant) :
    Option ProviderResult → ExternalAction
  | none =>
    { row with
      state := .outcomeUnknown
      lastErrorCode := some "provider_unreachable"
      version := copy.version + 1 }
  | some (.accepted providerMessageId) =>
    { row with
      state := .acknowledged
      updatedAt := now
      version := copy.version + 1
      providerReference := some providerMessageId
      acknowledgedAt := some now
      lastErrorCode := none }
  | some (.rejected _ retryable) =>
    if retryable && decide (copy.attempts < maxDeliveryAttempts) then
      { row with
        state := .queued
        updatedAt := now
        version := copy.version + 1
        lastErrorCode := some "provider_rejected" }
    else
      { row with
        state := .failed
        updatedAt := now
        version := copy.version + 1
        lastErrorCode := some "provider_rejected"
        failedAt := some now }

/-! ## What the pieces do -/

variable {env}

/-- **The first transaction acts on queued rows only**, and claims inside the
retry window only. -/
theorem claimAlert_claimed {row next copy : ExternalAction} {rule : Option AlertRule}
    {provider : String} {now : Instant} {reads : CurrentReads}
    (h : claimAlert env row rule provider now reads = .claimed next copy) :
    row.state = .queued ∧ row.windowPassed now = false
      ∧ next = { row.claim provider now with updatedAt := now } ∧ copy = next := by
  unfold claimAlert at h
  by_cases hguard : row.state ≠ .queued ∨ rule.isNone
  · rw [if_pos hguard] at h
    exact nomatch h
  · rw [if_neg hguard] at h
    have hstate : row.state = .queued := by
      by_contra hne
      exact hguard (Or.inl hne)
    split at h
    · exact nomatch h
    · exact nomatch h
    · cases hwindow : row.windowPassed now with
      | true => rw [hwindow] at h; exact nomatch h
      | false =>
        rw [hwindow] at h
        cases h
        exact ⟨hstate, rfl, rfl, rfl⟩

theorem claimAlert_cancelled {row next : ExternalAction} {rule : Option AlertRule}
    {provider : String} {now : Instant} {reads : CurrentReads}
    (h : claimAlert env row rule provider now reads = .cancelled next) :
    row.state = .queued ∧ ∃ code, next = row.cancel code reads.clock := by
  unfold claimAlert at h
  by_cases hguard : row.state ≠ .queued ∨ rule.isNone
  · rw [if_pos hguard] at h
    exact nomatch h
  · rw [if_neg hguard] at h
    have hstate : row.state = .queued := by
      by_contra hne
      exact hguard (Or.inl hne)
    have hcancel : ∀ code, cancel row code reads.clock = row.cancel code reads.clock :=
      fun code => if_pos (by rw [hstate]; decide)
    refine ⟨hstate, ?_⟩
    split at h
    · exact nomatch h
    · exact ⟨_, (ClaimResult.cancelled.inj h).symm.trans (hcancel _)⟩
    · split_ifs at h
      exact ⟨_, (ClaimResult.cancelled.inj h).symm.trans (hcancel _)⟩

/-- **A digest is handed over only by the run that holds its claim.** -/
theorem handoffAlert_send {row copy : ExternalAction} {now : Instant}
    {reads : CurrentReads} {message : OutboundMessage} {bounded : Bool}
    (h : handoffAlert env row copy now reads = .send message bounded) :
    bounded = true ∧ row.state = .attempting := by
  unfold handoffAlert at h
  split at h
  · exact nomatch h
  · exact nomatch h
  · split_ifs at h with hrow
    cases h
    refine ⟨rfl, ?_⟩
    by_contra hne
    exact hrow (Or.inl hne)

theorem handoffAlert_cancelled {row copy next : ExternalAction} {now : Instant}
    {reads : CurrentReads} (h : handoffAlert env row copy now reads = .cancelled next) :
    ∃ code, next = cancel row code reads.clock := by
  unfold handoffAlert at h
  split at h
  · exact nomatch h
  · exact ⟨_, (HandoffResult.cancelled.inj h).symm⟩
  · split_ifs at h

end Alerts
