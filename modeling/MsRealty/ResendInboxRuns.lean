import MsRealty.ResendInbox
import Mathlib.Data.List.ReduceOption

/-!
# What delivery reports settle

The reports about one accepted mail may be received any number of times, in any
order, before or after the dispatch commits the provider's reference, with
sweeps in between. Each is applied at most once, and once all of them are
processed the action has failed if any of them is a failure, and is verified
otherwise (`converges_of_run`).

The first failure that is applied decides the rest: a later one finds a failed
action, which no report overwrites. So the error codes and the states of the
message and of its attempt do depend on the order when failures differ
(`not_orderIndependent`).
-/

namespace ResendInbox

open ExternalAction Runs

variable {data : InboxData} {row : ExternalAction} {at' now : Instant} {code : Option String}
  {report : DeliveryReport} {id messageId attemptId : Uuid}

/-! ## What a report leaves alone -/

@[simp] theorem events_syncMessageOutcome :
    (syncMessageOutcome data row at' code).events = data.events := by
  unfold syncMessageOutcome
  split
  · rfl
  · split <;> rfl

@[simp] theorem actions_syncMessageOutcome :
    (syncMessageOutcome data row at' code).actions = data.actions := by
  unfold syncMessageOutcome
  split
  · rfl
  · split <;> rfl

/-- The message of another action stays. -/
theorem message_of_not_isSubject (h : ¬ IsSubject row messageId) :
    (syncMessageOutcome data row at' code).messages.get? messageId
      = data.messages.get? messageId := by
  unfold syncMessageOutcome
  split
  · rfl
  · next other hother =>
    split
    · rfl
    · next htype =>
      have hne : messageId ≠ other := by
        rintro rfl
        exact h ⟨not_not.mp htype, hother⟩
      rw [Table.get?_updateWhere]
      cases hget : data.messages.get? messageId with
      | none => rfl
      | some message =>
        have hid := (Table.get?_eq_some.mp hget).2
        simp [hid, hne]

/-- The attempt of another action stays. -/
theorem attempt_of_ne {attempt : MessageAttempt}
    (hget : data.attempts.get? attemptId = some attempt)
    (h : attempt.externalActionId ≠ some row.id) :
    (syncMessageOutcome data row at' code).attempts.get? attemptId = some attempt := by
  unfold syncMessageOutcome
  split
  · exact hget
  · split
    · exact hget
    · simp [hget, MessageAttempt.isLast, h]

/-- **The message of an action has its outcome.** -/
theorem message_of_isSubject (h : IsSubject row messageId) :
    (syncMessageOutcome data row at' code).messages.get? messageId
      = (data.messages.get? messageId).map (fun message => message.settle row at' code) := by
  unfold syncMessageOutcome
  rw [h.2]
  simp only [h.1, ne_eq, not_true_eq_false, if_false, Table.get?_updateWhere]
  cases hget : data.messages.get? messageId with
  | none => rfl
  | some message => simp [(Table.get?_eq_some.mp hget).2]

/-- **The last attempt of an action has its outcome.** -/
theorem attempt_of_isLast {attempt : MessageAttempt} (h : IsSubject row messageId)
    (hget : data.attempts.get? attemptId = some attempt) (hlast : attempt.isLast row = true) :
    (syncMessageOutcome data row at' code).attempts.get? attemptId
      = some (attempt.settle row at' code) := by
  unfold syncMessageOutcome
  rw [h.2]
  simp [h.1, hget, hlast]

/-- What a report keeps of an action. -/
structure SameEffect (row row' : ExternalAction) : Prop where
  id : row'.id = row.id
  provider : row'.provider = row.provider
  providerReference : row'.providerReference = row.providerReference
  subjectType : row'.subjectType = row.subjectType
  subjectId : row'.subjectId = row.subjectId
  attempts : row'.attempts = row.attempts

theorem sameEffect_recordDeliveryReport (row : ExternalAction) (report : DeliveryReport)
    (at' : Instant) : SameEffect row (row.recordDeliveryReport report at') := by
  unfold ExternalAction.recordDeliveryReport
  split
  · exact ⟨rfl, rfl, rfl, rfl, rfl, rfl⟩
  · split <;> exact ⟨rfl, rfl, rfl, rfl, rfl, rfl⟩

/-- The outcomes of several actions, one after the other. -/
def syncAll (data : InboxData) (rows : List ExternalAction) (at' : Instant)
    (code : Option String) : InboxData :=
  rows.foldl (fun data row => syncMessageOutcome data row at' code) data

theorem recordDeliveryReport_eq (data : InboxData) (report : DeliveryReport) (at' : Instant) :
    recordDeliveryReport data report at' = syncAll
      { data with
        actions := data.actions.update (fun row => row.recordDeliveryReport report at')
          (fun row => recordDeliveryReport_id row report at') }
      ((data.actions.rows.filter (fun row => row.matchesReport report)).map
        (fun row => row.recordDeliveryReport report at')) at' report.code := rfl

theorem syncAll_tables (rows : List ExternalAction) :
    (syncAll data rows at' code).events = data.events
      ∧ (syncAll data rows at' code).actions = data.actions := by
  induction rows generalizing data with
  | nil => exact ⟨rfl, rfl⟩
  | cons row rows ih =>
    obtain ⟨hevents, hactions⟩ := @ih (syncMessageOutcome data row at' code)
    exact ⟨hevents.trans events_syncMessageOutcome, hactions.trans actions_syncMessageOutcome⟩

theorem message_syncAll {rows : List ExternalAction}
    (h : ∀ row ∈ rows, ¬ IsSubject row messageId) :
    (syncAll data rows at' code).messages.get? messageId = data.messages.get? messageId := by
  induction rows generalizing data with
  | nil => rfl
  | cons row rows ih =>
    obtain ⟨hrow, hrows⟩ := List.forall_mem_cons.mp h
    exact (ih hrows).trans (message_of_not_isSubject hrow)

theorem attempt_syncAll {rows : List ExternalAction} {attempt : MessageAttempt}
    (hget : data.attempts.get? attemptId = some attempt)
    (h : ∀ row ∈ rows, attempt.externalActionId ≠ some row.id) :
    (syncAll data rows at' code).attempts.get? attemptId = some attempt := by
  induction rows generalizing data with
  | nil => exact hget
  | cons row rows ih =>
    obtain ⟨hrow, hrows⟩ := List.forall_mem_cons.mp h
    exact ih (attempt_of_ne hget hrow) hrows

@[simp] theorem events_recordDeliveryReport :
    (recordDeliveryReport data report at').events = data.events := by
  rw [recordDeliveryReport_eq]
  exact (syncAll_tables _).1

@[simp] theorem actions_recordDeliveryReport :
    (recordDeliveryReport data report at').actions
      = data.actions.update (fun row => row.recordDeliveryReport report at')
        (fun row => recordDeliveryReport_id row report at') := by
  rw [recordDeliveryReport_eq]
  exact (syncAll_tables _).2

/-! ## One mail -/

/-- **A mail that is being sent**: its action as it was claimed, its message and
attempt, and the reference the provider has given it. -/
structure Mail where
  actionId : Uuid
  messageId : Uuid
  attemptId : Uuid
  attemptNumber : ℕ
  claimedVersion : ℕ
  reference : String

/-- What a mail came to, as its three rows say. -/
structure Outcome where
  state : ExternalActionState
  errorCode : Option String
  messageState : MessageState
  attemptState : MessageState
  attemptErrorCode : Option String
  deriving DecidableEq

/-- The outcome the tables show. -/
def mailOutcome (data : InboxData) (mail : Mail) : Option Outcome := do
  let row ← data.actions.get? mail.actionId
  let message ← data.messages.get? mail.messageId
  let attempt ← data.attempts.get? mail.attemptId
  return ⟨row.state, row.lastErrorCode, message.state, attempt.state, attempt.errorCode⟩

/-- The outcome the provider's acceptance leaves. -/
def accepted : Outcome := ⟨.acknowledged, none, .providerAccepted, .providerAccepted, none⟩

/-- The outcome of a delivery. -/
def deliveredOutcome : Outcome := ⟨.verified, none, .delivered, .delivered, some delivered⟩

/-- The outcome of a failure. -/
def failedOutcome (type : String) : Outcome :=
  let state := if type = "email.bounced" then .bounced else .failed
  ⟨.failed, some type, state, state, some type⟩

/-- **What one report makes of an outcome.** -/
def applyReport (outcome : Outcome) (type : String) : Outcome :=
  if type = delivered then
    if outcome.state ∈ [ExternalActionState.acknowledged, .outcomeUnknown] then
      { deliveredOutcome with errorCode := outcome.errorCode }
    else outcome
  else if outcome.state ∈ [ExternalActionState.acknowledged, .outcomeUnknown, .verified] then
    failedOutcome type
  else outcome

/-- What an accepted mail comes to by some reports, in their order. -/
def outcomeAfter (types : List String) : Outcome := types.foldl applyReport accepted

/-- The outcome of an accepted mail by the first failure among its reports. -/
def outcomeOf (firstFailure : Option String) : Outcome :=
  (firstFailure.map failedOutcome).getD deliveredOutcome

/-- **The first failure decides**, and without one the delivery does. -/
theorem outcomeAfter_eq {types : List String} (hsupported : ∀ type ∈ types, supported type = true)
    (hne : types ≠ []) :
    outcomeAfter types = outcomeOf (types.find? (fun type => type ∈ failures)) := by
  induction types using List.reverseRecOn with
  | nil => exact absurd rfl hne
  | append_singleton types type ih =>
    have htype := hsupported type (List.mem_append_right _ (List.mem_singleton_self type))
    have hrest : ∀ t ∈ types, supported t = true :=
      fun t ht => hsupported t (List.mem_append_left _ ht)
    rw [outcomeAfter, List.foldl_append, List.foldl_cons, List.foldl_nil, List.find?_append]
    show applyReport (outcomeAfter types) type = _
    rcases of_decide_eq_true htype with rfl | hfailure
    · have hlast : [delivered].find? (fun type => type ∈ failures) = none := rfl
      rw [hlast, Option.or_none]
      by_cases hempty : types = []
      · subst hempty
        rfl
      · rw [ih hrest hempty]
        cases types.find? (fun type => type ∈ failures) <;> rfl
    · have hlast : [type].find? (fun type => type ∈ failures) = some type := by simp [hfailure]
      have hother : type ≠ delivered := by
        rintro rfl
        exact absurd hfailure (by decide)
      rw [hlast, applyReport, if_neg hother]
      by_cases hempty : types = []
      · subst hempty
        rfl
      · rw [ih hrest hempty]
        cases types.find? (fun type => type ∈ failures) <;> rfl

/-! ## The rows of a mail -/

/-- The row of the mail's action. -/
structure IsMail (mail : Mail) (row : ExternalAction) : Prop where
  provider : row.provider = some "resend"
  subject : IsSubject row mail.messageId
  attempts : row.attempts = mail.attemptNumber

/-- The row of the mail's attempt. -/
structure IsAttempt (mail : Mail) (attempt : MessageAttempt) : Prop where
  externalActionId : attempt.externalActionId = some mail.actionId
  attemptNumber : attempt.attemptNumber = mail.attemptNumber

/-- The mail's action is the only one with its reference and its message. -/
def Alone (mail : Mail) (data : InboxData) : Prop :=
  ∀ row ∈ data.actions.rows, row.id ≠ mail.actionId →
    ¬ (row.provider = some "resend" ∧ row.providerReference = some mail.reference)
      ∧ ¬ IsSubject row mail.messageId

/-- **The mail is with the provider**: its action is claimed and nothing is
known of its reference. -/
structure Pending (mail : Mail) (data : InboxData) : Prop where
  action : ∃ row, data.actions.get? mail.actionId = some row ∧ IsMail mail row
    ∧ row.state = .attempting ∧ row.version = mail.claimedVersion ∧ row.providerReference = none
  message : (data.messages.get? mail.messageId).isSome = true
  attempt : ∃ attempt, data.attempts.get? mail.attemptId = some attempt ∧ IsAttempt mail attempt

/-- **The mail is accepted** and came to an outcome. -/
structure Committed (mail : Mail) (data : InboxData) (outcome : Outcome) : Prop where
  action : ∃ row, data.actions.get? mail.actionId = some row ∧ IsMail mail row
    ∧ row.providerReference = some mail.reference ∧ row.state = outcome.state
    ∧ row.lastErrorCode = outcome.errorCode
  message : ∃ message, data.messages.get? mail.messageId = some message
    ∧ message.state = outcome.messageState
  attempt : ∃ attempt, data.attempts.get? mail.attemptId = some attempt ∧ IsAttempt mail attempt
    ∧ attempt.state = outcome.attemptState ∧ attempt.errorCode = outcome.attemptErrorCode

variable {mail : Mail} {outcome : Outcome} {event : InboxEvent}

theorem Committed.mailOutcome_eq (h : Committed mail data outcome) :
    mailOutcome data mail = some outcome := by
  obtain ⟨row, hrow, -, -, hstate, hcode⟩ := h.action
  obtain ⟨message, hmessage, hmessageState⟩ := h.message
  obtain ⟨attempt, hattempt, -, hattemptState, hattemptCode⟩ := h.attempt
  simp [mailOutcome, hrow, hmessage, hattempt, hstate, hcode, hmessageState, hattemptState,
    hattemptCode]

/-- A row with the reference is the row of the mail. -/
theorem Alone.id_of_isTarget (h : Alone mail data) (hrow : row ∈ data.actions.rows)
    (htarget : isTarget (some mail.reference) row = true) : row.id = mail.actionId := by
  by_contra hne
  refine (h row hrow hne).1 ?_
  simpa [isTarget] using htarget

/-- While the mail is with the provider no action has its reference. -/
theorem Pending.not_hasTarget (h : Pending mail data) (halone : Alone mail data)
    (hevent : event.payload.emailId = some mail.reference) : hasTarget data event = false := by
  have hnone : data.actions.rows.find? (isTarget event.payload.emailId) = none := by
    rw [hevent]
    refine List.find?_eq_none.mpr fun row hrow htarget => ?_
    obtain ⟨row', hget, -, -, -, hreference⟩ := h.action
    obtain ⟨hrow', hid'⟩ := Table.get?_eq_some.mp hget
    obtain rfl := Table.eq_of_key hrow hrow' ((halone.id_of_isTarget hrow htarget).trans hid'.symm)
    simp [isTarget, hreference] at htarget
  rw [hasTarget, hnone]
  rfl

/-! ## What a report does to a mail -/

theorem Alone.recordDeliveryReport (h : Alone mail data) :
    Alone mail (recordDeliveryReport data report at') := by
  intro row hrow hne
  rw [actions_recordDeliveryReport, Table.mem_update] at hrow
  obtain ⟨row₀, hrow₀, rfl⟩ := hrow
  have hsame := sameEffect_recordDeliveryReport row₀ report at'
  rw [hsame.id] at hne
  rw [hsame.provider, hsame.providerReference, IsSubject, hsame.subjectType, hsame.subjectId]
  exact h row₀ hrow₀ hne

theorem get?_actions_recordDeliveryReport (id : Uuid) :
    (recordDeliveryReport data report at').actions.get? id
      = (data.actions.get? id).map (fun row => row.recordDeliveryReport report at') := by
  rw [actions_recordDeliveryReport, Table.get?_update]

variable (at') in
/-- **A report that does not reach the mail's action** leaves its rows. -/
theorem rows_of_not_matches {attempt : MessageAttempt} (halone : Alone mail data)
    (hget : data.actions.get? mail.actionId = some row)
    (hno : row.matchesReport report = false)
    (hattempt : data.attempts.get? mail.attemptId = some attempt) (his : IsAttempt mail attempt) :
    (recordDeliveryReport data report at').actions.get? mail.actionId = some row
      ∧ (recordDeliveryReport data report at').messages.get? mail.messageId
        = data.messages.get? mail.messageId
      ∧ (recordDeliveryReport data report at').attempts.get? mail.attemptId = some attempt := by
  have hother : ∀ row' ∈ (data.actions.rows.filter (fun row => row.matchesReport report)).map
      (fun row => row.recordDeliveryReport report at'),
      row'.id ≠ mail.actionId ∧ ¬ IsSubject row' mail.messageId := by
    intro row' hrow'
    obtain ⟨row₀, hrow₀, rfl⟩ := List.mem_map.mp hrow'
    obtain ⟨hmem, hmatches⟩ := List.mem_filter.mp hrow₀
    have hsame := sameEffect_recordDeliveryReport row₀ report at'
    have hne : row₀.id ≠ mail.actionId := by
      intro hid
      obtain ⟨hrow, hrowId⟩ := Table.get?_eq_some.mp hget
      obtain rfl := Table.eq_of_key hmem hrow (hid.trans hrowId.symm)
      exact absurd hmatches (by simp [hno])
    rw [IsSubject, hsame.id, hsame.subjectType, hsame.subjectId]
    exact ⟨hne, (halone row₀ hmem hne).2⟩
  refine ⟨?_, ?_, ?_⟩
  · rw [get?_actions_recordDeliveryReport, hget, Option.map_some, ExternalAction.recordDeliveryReport,
      hno]
    rfl
  · rw [recordDeliveryReport_eq]
    exact message_syncAll fun row' hrow' => (hother row' hrow').2
  · rw [recordDeliveryReport_eq]
    refine attempt_syncAll hattempt fun row' hrow' heq => (hother row' hrow').1 ?_
    exact (Option.some.inj (his.externalActionId.symm.trans heq)).symm

variable (at') in
/-- **A report that reaches the mail's action** settles its message and its
attempt too. -/
theorem rows_of_matches {attempt : MessageAttempt} (halone : Alone mail data)
    (hget : data.actions.get? mail.actionId = some row) (hmail : IsMail mail row)
    (hreport : report.providerMessageId = mail.reference ∧ report.provider = "resend")
    (hmatches : row.matchesReport report = true)
    (hattempt : data.attempts.get? mail.attemptId = some attempt) (his : IsAttempt mail attempt) :
    (recordDeliveryReport data report at').actions.get? mail.actionId
        = some (row.recordDeliveryReport report at')
      ∧ (recordDeliveryReport data report at').messages.get? mail.messageId
        = (data.messages.get? mail.messageId).map
          (fun message => message.settle (row.recordDeliveryReport report at') at' report.code)
      ∧ (recordDeliveryReport data report at').attempts.get? mail.attemptId
        = some (attempt.settle (row.recordDeliveryReport report at') at' report.code) := by
  obtain ⟨hrow, hid⟩ := Table.get?_eq_some.mp hget
  have hfilter : data.actions.rows.filter (fun row => row.matchesReport report) = [row] := by
    refine Table.filter_eq_singleton hrow hmatches fun row' hrow' hmatches' => ?_
    rw [hid]
    refine halone.id_of_isTarget hrow' ?_
    obtain ⟨hprovider, hreference, -⟩ := of_decide_eq_true hmatches'
    simp [isTarget, hprovider, hreference, hreport.1, hreport.2]
  have hsame := sameEffect_recordDeliveryReport row report at'
  have hsubject : IsSubject (row.recordDeliveryReport report at') mail.messageId := by
    rw [IsSubject, hsame.subjectType, hsame.subjectId]
    exact hmail.subject
  have hlast : attempt.isLast (row.recordDeliveryReport report at') = true := by
    simp [MessageAttempt.isLast, hsame.id, hsame.attempts, hid, his.externalActionId,
      his.attemptNumber, hmail.attempts]
  refine ⟨?_, ?_, ?_⟩
  · rw [get?_actions_recordDeliveryReport, hget, Option.map_some]
  · rw [recordDeliveryReport_eq, hfilter]
    exact message_of_isSubject hsubject
  · rw [recordDeliveryReport_eq, hfilter]
    exact attempt_of_isLast hsubject hattempt hlast

/-- An event about other mail leaves the mail's rows. -/
theorem not_matches_of_ne (hevent : event.payload.emailId ≠ some mail.reference)
    (hsome : event.payload.emailId.isSome = true)
    (hreference : row.providerReference = none ∨ row.providerReference = some mail.reference) :
    row.matchesReport event.report = false := by
  obtain ⟨emailId, hemailId⟩ := Option.isSome_iff_exists.mp hsome
  rw [hemailId] at hevent
  refine decide_eq_false ?_
  rintro ⟨-, heq, -⟩
  have hid : row.providerReference = some emailId := by
    rw [heq, InboxEvent.report, hemailId]
    rfl
  obtain hnone | hsame := hreference
  · rw [hnone] at hid
    cases hid
  · exact hevent (hid.symm.trans hsame)

/-- An event that found its action names a mail. -/
theorem isSome_of_hasTarget (h : hasTarget data event = true) :
    event.payload.emailId.isSome = true := by
  unfold hasTarget at h
  cases hfind : data.actions.rows.find? (isTarget event.payload.emailId) with
  | none =>
    rw [hfind] at h
    cases h
  | some found =>
    have htarget := List.find?_some hfind
    simp only [isTarget, Bool.and_eq_true] at htarget
    exact htarget.1.2

variable (at') in
theorem Pending.of_other (h : Pending mail data) (halone : Alone mail data)
    (hevent : event.payload.emailId ≠ some mail.reference)
    (hsome : event.payload.emailId.isSome = true) :
    Pending mail (recordDeliveryReport data event.report at') := by
  obtain ⟨row, hget, hmail, hstate, hversion, hreference⟩ := h.action
  obtain ⟨attempt, hattempt, his⟩ := h.attempt
  obtain ⟨hrow', hmessage', hattempt'⟩ := rows_of_not_matches at' halone hget
    (not_matches_of_ne hevent hsome (.inl hreference)) hattempt his
  refine ⟨⟨row, hrow', hmail, hstate, hversion, hreference⟩, ?_, ⟨attempt, hattempt', his⟩⟩
  rw [hmessage']
  exact h.message

variable (at') in
/-- **A report that settles nothing** leaves the outcome. -/
theorem Committed.of_not_matches (h : Committed mail data outcome) (halone : Alone mail data)
    (hno : ∀ row : ExternalAction, row.providerReference = some mail.reference →
      row.state = outcome.state →
      row.matchesReport report = false) :
    Committed mail (recordDeliveryReport data report at') outcome := by
  obtain ⟨row, hget, hmail, hreference, hstate, hcode⟩ := h.action
  obtain ⟨attempt, hattempt, his, hattemptState⟩ := h.attempt
  obtain ⟨hrow', hmessage', hattempt'⟩ := rows_of_not_matches at' halone hget
    (hno row hreference hstate) hattempt his
  refine ⟨⟨row, hrow', hmail, hreference, hstate, hcode⟩, ?_,
    ⟨attempt, hattempt', his, hattemptState⟩⟩
  rw [hmessage']
  exact h.message

/-- **A report that settles the mail** writes its outcome to the three rows. -/
theorem Committed.of_matches {outcome' : Outcome} (h : Committed mail data outcome)
    (halone : Alone mail data)
    (hreport : report.providerMessageId = mail.reference ∧ report.provider = "resend")
    (hstate : outcome.state ∈ report.sources)
    (hnext : ∀ row : ExternalAction, row.lastErrorCode = outcome.errorCode →
      row.matchesReport report = true →
      (row.recordDeliveryReport report at').state = outcome'.state
        ∧ (row.recordDeliveryReport report at').lastErrorCode = outcome'.errorCode)
    (hmessageState : messageOutcome outcome'.state report.code = outcome'.messageState)
    (hattemptState : messageOutcome outcome'.state report.code = outcome'.attemptState)
    (hattemptCode : report.code = outcome'.attemptErrorCode) :
    Committed mail (recordDeliveryReport data report at') outcome' := by
  obtain ⟨row, hget, hmail, hreference, hrowState, hcode⟩ := h.action
  obtain ⟨message, hmessage, -⟩ := h.message
  obtain ⟨attempt, hattempt, his, -⟩ := h.attempt
  have hmatches : row.matchesReport report = true := by
    refine decide_eq_true ⟨?_, ?_, ?_⟩
    · rw [hmail.provider, hreport.2]
    · rw [hreference, hreport.1]
    · rw [hrowState]
      exact hstate
  obtain ⟨hrow', hmessage', hattempt'⟩ := rows_of_matches at' halone hget hmail hreport
    hmatches hattempt his
  obtain ⟨hnextState, hnextCode⟩ := hnext row hcode hmatches
  have hsame := sameEffect_recordDeliveryReport row report at'
  rw [hmessage, Option.map_some] at hmessage'
  refine ⟨⟨_, hrow', ⟨?_, ?_, ?_⟩, ?_, hnextState, hnextCode⟩, ⟨_, hmessage', ?_⟩,
    ⟨_, hattempt', ⟨his.externalActionId, his.attemptNumber⟩, ?_, hattemptCode⟩⟩
  · rw [hsame.provider, hmail.provider]
  · rw [IsSubject, hsame.subjectType, hsame.subjectId]
    exact hmail.subject
  · rw [hsame.attempts, hmail.attempts]
  · rw [hsame.providerReference, hreference]
  · rw [← hmessageState, ← hnextState]
    rfl
  · rw [← hattemptState, ← hnextState]
    rfl

variable (at') in
/-- **An event of the mail** makes of its outcome what `applyReport` says. -/
theorem Committed.recordDeliveryReport (h : Committed mail data outcome)
    (halone : Alone mail data) (hevent : event.payload.emailId = some mail.reference) :
    Committed mail (recordDeliveryReport data event.report at')
      (applyReport outcome event.eventType) := by
  have hreport : event.report.providerMessageId = mail.reference
      ∧ event.report.provider = "resend" := by
    simp [InboxEvent.report, hevent]
  have hother : outcome.state ∉ event.report.sources →
      Committed mail (ResendInbox.recordDeliveryReport data event.report at') outcome := by
    refine fun hno => h.of_not_matches at' halone fun row _ hstate => decide_eq_false ?_
    rw [hstate]
    exact fun hmatches => hno hmatches.2.2
  unfold applyReport
  by_cases htype : event.eventType = delivered
  · have hdelivered : event.report.delivered = true := decide_eq_true htype
    have hsources : event.report.sources = [.acknowledged, .outcomeUnknown] := by
      rw [DeliveryReport.sources, hdelivered]
      rfl
    rw [hsources] at hother
    rw [if_pos htype]
    split
    · next hstate =>
      refine h.of_matches halone hreport (hsources ▸ hstate) (fun row hcode hmatches => ?_) rfl rfl
        (congrArg some htype)
      rw [ExternalAction.recordDeliveryReport, hmatches, hdelivered]
      exact ⟨rfl, hcode⟩
    · next hstate => exact hother hstate
  · have hdelivered : event.report.delivered = false := decide_eq_false htype
    have hsources : event.report.sources = [.acknowledged, .outcomeUnknown, .verified] := by
      rw [DeliveryReport.sources, hdelivered]
      rfl
    have hfailed : messageOutcome .failed (some event.eventType)
        = if event.eventType = "email.bounced" then .bounced else .failed := by
      simp [messageOutcome]
    rw [hsources] at hother
    rw [if_neg htype]
    split
    · next hstate =>
      refine h.of_matches halone hreport (hsources ▸ hstate) (fun row hcode hmatches => ?_)
        hfailed hfailed rfl
      rw [ExternalAction.recordDeliveryReport, hmatches, hdelivered]
      exact ⟨rfl, rfl⟩
    · next hstate => exact hother hstate

/-! ## The inbox over a run -/

/-- **The reports about a mail**: signed events with different ids, each about
that mail and of a type the inbox processes. -/
structure Reports (mail : Mail) where
  events : List (String × ResendEvent)
  distinct : (events.map Prod.fst).Nodup
  about : ∀ e ∈ events, e.snd.payload.emailId = some mail.reference
    ∧ supported e.snd.type = true

/-- What moves the inbox: an event is stored, an event is processed – by its
webhook or by a sweep – and the mail's dispatch commits that it was accepted. -/
inductive Step where
  | store (freshId : Uuid) (eventId : String) (event : ResendEvent) (now : Instant)
  | process (id : Uuid) (now : Instant)
  | commit (now : Instant)

/-- **One step**, and the event it applied. -/
def step (mail : Mail) (data : InboxData) : Step → InboxData × Option InboxEvent
  | .store freshId eventId event now =>
    (match storeEvent data freshId eventId event now with
      | .ok (_, _, data') => data'
      | .error _ => data, none)
  | .process id now => (processResendEvent data id now, appliedEvent data id)
  | .commit now =>
    (recordResult data mail.actionId mail.messageId mail.claimedVersion
      (some (.accepted mail.reference)) now, none)

/-- **A webhook is two steps**: its event is stored, and then processed. -/
theorem final_of_receive {isUuid : String → Bool} {secret : String} {request : WebhookRequest}
    {freshId : Uuid} {duplicate : Bool} {data' : InboxData}
    (h : receiveResendWebhook isUuid secret request data freshId now = .ok (duplicate, data')) :
    ∃ eventId event id, readWebhook isUuid secret request = .ok (eventId, event)
      ∧ final (step mail) data [.store freshId eventId event now, .process id now] = data' := by
  unfold receiveResendWebhook at h
  cases hread : readWebhook isUuid secret request with
  | error code =>
    rw [hread] at h
    cases h
  | ok read =>
    obtain ⟨eventId, event⟩ := read
    cases hstored : storeEvent data freshId eventId event now with
    | error code =>
      simp only [hread, hstored, bind, Except.bind] at h
      cases h
    | ok stored =>
      simp only [hread, hstored, bind, Except.bind] at h
      refine ⟨eventId, event, stored.fst.id, rfl, ?_⟩
      rw [final_cons, final_cons, final_nil]
      show processResendEvent (match storeEvent data freshId eventId event now with
        | .ok (_, _, data') => data'
        | .error _ => data) stored.fst.id now = data'
      rw [hstored]
      exact (Prod.mk.inj (Except.ok.inj h)).2

theorem final_processAll (data : InboxData) (ids : List Uuid) (now : Instant) :
    final (step mail) data (ids.map (fun id => .process id now)) = processAll data ids now := by
  induction ids generalizing data with
  | nil => rfl
  | cons id ids ih => exact ih (processResendEvent data id now)

/-- **A sweep is a step for each event** it selects. -/
theorem final_of_sweeps {limit : ℕ} {data' : InboxData} (h : Sweeps limit data data') :
    ∃ (ids : List Uuid) (now : Instant),
      final (step mail) data (ids.map (fun id => .process id now)) = data' := by
  obtain ⟨listed, now, -, -, rfl⟩ := h
  exact ⟨_, now, final_processAll data _ now⟩

variable {reports : Reports mail} {events : Table Uuid InboxEvent InboxEvent.id}
  {applied : List InboxEvent}

/-- Whether an event is one of the reports, by what it is about or by its id. -/
def Concerns (reports : Reports mail) (emailId : Option String) (eventId : String) : Prop :=
  emailId = some mail.reference ∨ eventId ∈ reports.events.map Prod.fst

/-- **The events that are stored are signed**: one about the mail, or with the
id of a report, is a report. -/
def Signed (reports : Reports mail) : Step → Prop
  | .store _ eventId event _ =>
    Concerns reports event.payload.emailId eventId → (eventId, event) ∈ reports.events
  | _ => True

/-- **What the inbox knows** of the reports and of the events it has applied. -/
structure Heard (reports : Reports mail) (events : Table Uuid InboxEvent InboxEvent.id)
    (applied : List InboxEvent) : Prop where
  /-- An event id is stored once. -/
  distinct : ∀ e ∈ events.rows, ∀ e' ∈ events.rows, e.provider = e'.provider →
    e.eventId = e'.eventId → e = e'
  /-- A stored event about the mail is a report; it waits or was applied. -/
  about : ∀ e ∈ events.rows, e.payload.emailId = some mail.reference
      ∨ e.provider = "resend" ∧ e.eventId ∈ reports.events.map Prod.fst →
    (e.eventId, ⟨e.eventType, e.payload⟩) ∈ reports.events
      ∧ (e.state = .processed → ∃ a ∈ applied, a.eventType = e.eventType ∧ a.payload = e.payload)
  /-- An applied event is stored, and processed. -/
  traced : ∀ a ∈ applied, ∃ e ∈ events.rows, e.id = a.id ∧ e.provider = a.provider
    ∧ e.eventId = a.eventId ∧ e.eventType = a.eventType ∧ e.payload = a.payload
    ∧ e.state = .processed
  /-- None was applied twice. -/
  once : (applied.map InboxEvent.id).Nodup

/-- **Storing an event** keeps what the inbox knows. -/
theorem Heard.insert {events' : Table Uuid InboxEvent InboxEvent.id} {new : InboxEvent}
    (h : Heard reports events applied) (hinsert : events.insert? new = some events')
    (hfresh : ∀ e ∈ events.rows, e.provider = new.provider → e.eventId ≠ new.eventId)
    (hnew : Concerns reports new.payload.emailId new.eventId →
      (new.eventId, ⟨new.eventType, new.payload⟩) ∈ reports.events)
    (hstate : new.state ≠ .processed) : Heard reports events' applied := by
  have hmem := fun e => Table.mem_insert? hinsert e
  refine ⟨fun e he e' he' hprovider hid => ?_, fun e he hconcerns => ?_, fun a ha => ?_, h.once⟩
  · rcases (hmem e).mp he with rfl | he <;> rcases (hmem e').mp he' with rfl | he'
    · rfl
    · exact absurd hid.symm (hfresh e' he' hprovider.symm)
    · exact absurd hid (hfresh e he hprovider)
    · exact h.distinct e he e' he' hprovider hid
  · rcases (hmem e).mp he with rfl | he
    · exact ⟨hnew (hconcerns.imp_right And.right), fun hprocessed => absurd hprocessed hstate⟩
    · exact h.about e he hconcerns
  · obtain ⟨e, he, hrest⟩ := h.traced a ha
    exact ⟨e, (hmem e).mpr (.inr he), hrest⟩

/-- **An event that waits** stays as it is but for its code. -/
theorem Heard.await (h : Heard reports data.events applied) (id : Uuid) :
    Heard reports (setEvent data id InboxEvent.await InboxEvent.id_await).events applied := by
  refine ⟨fun e he e' he' hprovider hid => ?_, fun e he hconcerns => ?_, fun a ha => ?_, h.once⟩
  · obtain ⟨e₀, he₀, rfl⟩ := mem_setEvent.mp he
    obtain ⟨e₀', he₀', rfl⟩ := mem_setEvent.mp he'
    have hsame : e₀ = e₀' := by
      refine h.distinct e₀ he₀ e₀' he₀' ?_ ?_
      · split at hprovider <;> split at hprovider <;> exact hprovider
      · split at hid <;> split at hid <;> exact hid
    rw [hsame]
  · obtain ⟨e₀, he₀, rfl⟩ := mem_setEvent.mp he
    by_cases hid : e₀.id = id
    · rw [if_pos hid] at hconcerns ⊢
      exact h.about e₀ he₀ hconcerns
    · rw [if_neg hid] at hconcerns ⊢
      exact h.about e₀ he₀ hconcerns
  · obtain ⟨e, he, hrest⟩ := h.traced a ha
    refine ⟨_, mem_setEvent.mpr ⟨e, he, rfl⟩, ?_⟩
    split <;> exact hrest

variable (data) in
/-- **An event that is applied** is processed from then on. -/
theorem Heard.finish (h : Heard reports data.events applied)
    (hget : data.events.get? id = some event) (hdue : event.state = .received) (now : Instant) :
    Heard reports (setEvent data id (InboxEvent.finish now) (InboxEvent.id_finish now)).events
      (applied ++ [event]) := by
  obtain ⟨hevent, hid⟩ := Table.get?_eq_some.mp hget
  have hmem : ∀ e, e ∈ (setEvent data id (InboxEvent.finish now)
      (InboxEvent.id_finish now)).events.rows →
      (e ∈ data.events.rows ∧ e.id ≠ id) ∨ e = event.finish now := by
    intro e he
    obtain ⟨e₀, he₀, rfl⟩ := mem_setEvent.mp he
    by_cases hid₀ : e₀.id = id
    · obtain rfl := Table.eq_of_key he₀ hevent (hid₀.trans hid.symm)
      exact .inr (if_pos hid₀)
    · rw [if_neg hid₀]
      exact .inl ⟨he₀, hid₀⟩
  have hkept : ∀ e ∈ data.events.rows, e.state = .processed → e.id ≠ id := by
    intro e he hstate heq
    obtain rfl := Table.eq_of_key he hevent (heq.trans hid.symm)
    rw [hdue] at hstate
    cases hstate
  refine ⟨fun e he e' he' hprovider heventId => ?_, fun e he hconcerns => ?_, fun a ha => ?_, ?_⟩
  · rcases hmem e he with ⟨he, hne⟩ | rfl <;> rcases hmem e' he' with ⟨he', hne'⟩ | rfl
    · exact h.distinct e he e' he' hprovider heventId
    · obtain rfl := h.distinct e he event hevent hprovider heventId
      exact absurd hid hne
    · obtain rfl := h.distinct e' he' event hevent hprovider.symm heventId.symm
      exact absurd hid hne'
    · rfl
  · rcases hmem e he with ⟨he, -⟩ | rfl
    · obtain ⟨hreport, hstate⟩ := h.about e he hconcerns
      refine ⟨hreport, fun hp => ?_⟩
      obtain ⟨a, ha, hrest⟩ := hstate hp
      exact ⟨a, List.mem_append_left _ ha, hrest⟩
    · exact ⟨(h.about event hevent hconcerns).1, fun _ =>
        ⟨event, List.mem_append_right _ (List.mem_singleton_self event), rfl, rfl⟩⟩
  · rcases List.mem_append.mp ha with ha | ha
    · obtain ⟨e, he, hrest⟩ := h.traced a ha
      exact ⟨e, mem_setEvent.mpr ⟨e, he, if_neg (hkept e he hrest.2.2.2.2.2)⟩, hrest⟩
    · obtain rfl := List.mem_singleton.mp ha
      exact ⟨a.finish now, mem_setEvent.mpr ⟨a, hevent, if_pos hid⟩, rfl, rfl, rfl, rfl, rfl, rfl⟩
  · rw [List.map_append, List.map_singleton]
    refine List.nodup_append'.mpr ⟨h.once, List.nodup_singleton _, ?_⟩
    rw [List.disjoint_singleton]
    intro hmem
    obtain ⟨a, ha, heq⟩ := List.mem_map.mp hmem
    obtain ⟨e, he, heid, -, -, -, -, hstate⟩ := h.traced a ha
    exact hkept e he hstate (heid.trans (heq.trans hid))

/-! ## The law of a run -/

/-- The types of the mail's events among those that were applied, in order. -/
def appliedTypes (mail : Mail) (applied : List InboxEvent) : List String :=
  (applied.filter (fun event => event.payload.emailId = some mail.reference)).map
    InboxEvent.eventType

/-- **The invariant of a run**: the mail came to what its applied events, in
their order, make of an accepted mail. -/
structure Follows (reports : Reports mail) (data : InboxData) (outputs : List (Option InboxEvent)) :
    Prop where
  heard : Heard reports data.events outputs.reduceOption
  alone : Alone mail data
  standing : Pending mail data ∧ appliedTypes mail outputs.reduceOption = []
    ∨ Committed mail data (outcomeAfter (appliedTypes mail outputs.reduceOption))

variable {outputs : List (Option InboxEvent)}

theorem reduceOption_none (outputs : List (Option InboxEvent)) :
    (outputs ++ [none]).reduceOption = outputs.reduceOption := by
  rw [List.reduceOption_append]
  exact List.append_nil _

theorem reduceOption_some (outputs : List (Option InboxEvent)) (event : InboxEvent) :
    (outputs ++ [some event]).reduceOption = outputs.reduceOption ++ [event] :=
  List.reduceOption_append _ _

theorem state_outcomeAfter (types : List String) : (outcomeAfter types).state ∈ settledStates := by
  induction types using List.reverseRecOn with
  | nil => decide
  | append_singleton types type ih =>
    rw [outcomeAfter, List.foldl_append, List.foldl_cons, List.foldl_nil]
    unfold applyReport
    split
    · split
      · show ExternalActionState.verified ∈ settledStates
        decide
      · exact ih
    · split
      · show ExternalActionState.failed ∈ settledStates
        decide
      · exact ih

/-- **Storing an event** keeps the invariant. -/
theorem Follows.store (h : Follows reports data outputs) {freshId : Uuid} {eventId : String}
    {event : ResendEvent} (hsigned : Signed reports (.store freshId eventId event now)) :
    Follows reports (step mail data (.store freshId eventId event now)).fst
      (outputs ++ [none]) := by
  obtain ⟨hheard, halone, hstanding⟩ := h
  show Follows reports (match storeEvent data freshId eventId event now with
    | .ok (_, _, data') => data'
    | .error _ => data) _
  rw [← reduceOption_none outputs] at hheard hstanding
  unfold storeEvent
  split
  · next row inserted data' hstored =>
    split at hstored
    · split at hstored
      · cases hstored
      · obtain rfl := (Prod.mk.inj (Prod.mk.inj (Except.ok.inj hstored)).2).2
        exact ⟨hheard, halone, hstanding⟩
    · next hnone =>
      have hfresh := List.find?_eq_none.mp hnone
      split at hstored
      · cases hstored
      · next events' hinsert =>
        obtain rfl := (Prod.mk.inj (Prod.mk.inj (Except.ok.inj hstored)).2).2
        refine ⟨hheard.insert hinsert (fun e he hprovider heventId => ?_) hsigned ?_, halone,
          hstanding.imp (fun hpending => ⟨⟨hpending.1.action, hpending.1.message,
            hpending.1.attempt⟩, hpending.2⟩)
            (fun hcommitted => ⟨hcommitted.action, hcommitted.message, hcommitted.attempt⟩)⟩
        · exact hfresh e he (by simp [hprovider, heventId, newEvent])
        · show (initialState event.type).fst ≠ .processed
          unfold initialState
          split
          · simp
          · split <;> simp
  · exact ⟨hheard, halone, hstanding⟩

/-- **The commit** brings the mail from the provider to its outcome. -/
theorem Follows.commit (h : Follows reports data outputs) (now : Instant) :
    Follows reports (step mail data (.commit now)).fst (outputs ++ [none]) := by
  obtain ⟨hheard, halone, hstanding⟩ := h
  rw [← reduceOption_none outputs] at hheard hstanding
  show Follows reports (recordResult data mail.actionId mail.messageId mail.claimedVersion
    (some (.accepted mail.reference)) now) _
  rcases hstanding with ⟨hpending, htypes⟩ | hcommitted
  · obtain ⟨row, hget, hmail, hstate, hversion, hreference⟩ := hpending.action
    obtain ⟨message, hmessage⟩ := Option.isSome_iff_exists.mp hpending.message
    obtain ⟨attempt, hattempt, his⟩ := hpending.attempt
    obtain ⟨hrow, hid⟩ := Table.get?_eq_some.mp hget
    have hlast : attempt.isLast row = true := by
      simp [MessageAttempt.isLast, his.externalActionId, his.attemptNumber, hid, hmail.attempts]
    unfold recordResult
    simp only [hget, hstate, hversion, ne_eq, not_true_eq_false, or_self, if_false]
    refine ⟨hheard, fun row' hrow' hne => ?_, .inr ?_⟩
    · obtain ⟨row₀, hrow₀, rfl⟩ := (Table.mem_updateWhere (id_recordAction _ now)).mp hrow'
      by_cases hid₀ : row₀.id = mail.actionId
      · rw [if_pos (decide_eq_true hid₀)] at hne
        exact absurd hid₀ hne
      · rw [if_neg (by simpa using hid₀)]
        exact halone row₀ hrow₀ hid₀
    · rw [htypes]
      have hmessageId := (Table.get?_eq_some.mp hmessage).2
      exact ⟨⟨_, Table.get?_updateWhere_of hget (decide_eq_true hid) (id_recordAction _ now),
        ⟨hmail.provider, hmail.subject, hmail.attempts⟩, rfl, rfl, rfl⟩,
        ⟨_, Table.get?_updateWhere_of hmessage (decide_eq_true hmessageId)
          (id_recordMessage .acknowledged now), rfl⟩,
        ⟨_, Table.get?_updateWhere_of hattempt hlast (id_recordAttempt .acknowledged _ now),
          ⟨his.externalActionId, his.attemptNumber⟩, rfl, rfl⟩⟩
  · obtain ⟨row, hget, -, -, hstate, -⟩ := hcommitted.action
    have hsettled := state_outcomeAfter (appliedTypes mail (outputs ++ [none]).reduceOption)
    have hne : row.state ≠ .attempting := by
      rw [hstate]
      intro heq
      rw [heq] at hsettled
      exact absurd hsettled (by decide)
    unfold recordResult
    simp only [hget, hne, ne_eq, not_false_eq_true, true_or, if_true]
    exact ⟨hheard, halone, .inr hcommitted⟩

/-- **Processing an event** applies it to the mail, if it is the mail's. -/
theorem Follows.process (h : Follows reports data outputs) (id : Uuid) (now : Instant) :
    Follows reports (step mail data (.process id now)).fst
      (outputs ++ [(step mail data (.process id now)).snd]) := by
  obtain ⟨hheard, halone, hstanding⟩ := h
  show Follows reports (processResendEvent data id now) (outputs ++ [appliedEvent data id])
  unfold processResendEvent appliedEvent
  cases hget : data.events.get? id with
  | none =>
    rw [← reduceOption_none outputs] at hheard hstanding
    exact ⟨hheard, halone, hstanding⟩
  | some event =>
    by_cases hdue : event.isDue = true
    · by_cases htarget : hasTarget data event = true
      · have happlied : (some event).filter (fun event => event.isDue && hasTarget data event)
            = some event := by simp [hdue, htarget]
        simp only [happlied, hdue, htarget, Bool.not_true, Bool.false_eq_true, if_false]
        have hreceived : event.state = .received := by
          simp only [InboxEvent.isDue, Bool.and_eq_true, decide_eq_true_eq] at hdue
          exact hdue.1.2
        have hsome := isSome_of_hasTarget htarget
        refine ⟨?_, halone.recordDeliveryReport, ?_⟩
        · rw [reduceOption_some]
          refine Heard.finish (recordDeliveryReport data event.report
            event.payload.instant) ?_ ?_ hreceived now
          · rw [events_recordDeliveryReport]
            exact hheard
          · rw [events_recordDeliveryReport]
            exact hget
        · rw [reduceOption_some, appliedTypes, List.filter_append, List.map_append]
          by_cases hmail : event.payload.emailId = some mail.reference
          · rcases hstanding with ⟨hpending, -⟩ | hcommitted
            · rw [hpending.not_hasTarget halone hmail] at htarget
              cases htarget
            · have hnext := hcommitted.recordDeliveryReport event.payload.instant
                halone hmail
              right
              rw [outcomeAfter, List.foldl_append]
              simp only [hmail, decide_true, List.filter_cons_of_pos, List.filter_nil,
                List.map_cons, List.map_nil, List.foldl_cons, List.foldl_nil]
              exact ⟨hnext.action, hnext.message, hnext.attempt⟩
          · simp only [hmail, decide_false, Bool.false_eq_true, not_false_eq_true,
              List.filter_cons_of_neg, List.filter_nil, List.map_nil, List.append_nil]
            rcases hstanding with ⟨hpending, htypes⟩ | hcommitted
            · have hnext := hpending.of_other event.payload.instant halone hmail hsome
              exact .inl ⟨⟨hnext.action, hnext.message, hnext.attempt⟩, htypes⟩
            · have hnext := hcommitted.of_not_matches event.payload.instant halone
                fun row hreference _ => not_matches_of_ne hmail hsome (.inr hreference)
              exact .inr ⟨hnext.action, hnext.message, hnext.attempt⟩
      · have happlied : (some event).filter (fun event => event.isDue && hasTarget data event)
            = none := by simp [htarget]
        rw [← reduceOption_none outputs] at hheard hstanding
        simp only [happlied, hdue, htarget, Bool.not_true, Bool.false_eq_true, if_false,
          Bool.not_false, if_true]
        exact ⟨hheard.await id, halone, hstanding.imp (fun hpending => ⟨⟨hpending.1.action,
          hpending.1.message, hpending.1.attempt⟩, hpending.2⟩)
          (fun hcommitted => ⟨hcommitted.action, hcommitted.message, hcommitted.attempt⟩)⟩
    · have happlied : (some event).filter (fun event => event.isDue && hasTarget data event)
          = none := by simp [hdue]
      rw [← reduceOption_none outputs] at hheard hstanding
      simp only [happlied, hdue, Bool.not_false, if_true]
      exact ⟨hheard, halone, hstanding⟩

/-- **The mail is handed over**: nothing was heard of it yet. -/
structure Handed (reports : Reports mail) (data : InboxData) : Prop where
  pending : Pending mail data
  alone : Alone mail data
  distinct : ∀ e ∈ data.events.rows, ∀ e' ∈ data.events.rows, e.provider = e'.provider →
    e.eventId = e'.eventId → e = e'
  unheard : ∀ e ∈ data.events.rows, ¬ (e.payload.emailId = some mail.reference
    ∨ e.provider = "resend" ∧ e.eventId ∈ reports.events.map Prod.fst)

theorem Handed.follows (h : Handed reports data) : Follows reports data [] where
  heard :=
    { distinct := h.distinct
      about := fun e he hconcerns => absurd hconcerns (h.unheard e he)
      traced := fun _ ha => absurd ha List.not_mem_nil
      once := List.nodup_nil }
  alone := h.alone
  standing := .inl ⟨h.pending, rfl⟩

/-- All reports are processed. -/
def AllProcessed (reports : Reports mail) (data : InboxData) : Prop :=
  ∀ e ∈ reports.events, ∃ row ∈ data.events.rows,
    row.provider = "resend" ∧ row.eventId = e.fst ∧ row.state = .processed

/-- A moment of the inbox. -/
abbrev InboxMoment := Moment InboxData Step (Option InboxEvent)

/-- Whether a moment applied the event of an id. -/
def applies (eventId : String) (m : InboxMoment) : Bool :=
  m.output.any (fun event => event.provider = "resend" && event.eventId = eventId)

/-- The events a run applied, in order. -/
def appliedEvents (moments : List InboxMoment) : List InboxEvent :=
  (moments.map Moment.output).reduceOption

/-- The first failure of the mail that a run applied. -/
def firstFailure (mail : Mail) (moments : List InboxMoment) : Option String :=
  (appliedTypes mail (appliedEvents moments)).find? (fun type => type ∈ failures)

theorem mem_failures_of_find? {types : List String} {type : String}
    (h : types.find? (fun type => type ∈ failures) = some type) : type ∈ failures := by
  simpa using List.find?_some h

/-- The types of the reports. -/
def Reports.types (reports : Reports mail) : List String :=
  reports.events.map (fun e => e.snd.type)

variable {start : InboxData} {steps : List Step}

/-- **The invariant of a run**, at its end. -/
theorem follows_final (hstart : Handed reports start) (hsteps : ∀ s ∈ steps, Signed reports s) :
    Follows reports (final (step mail) start steps)
      ((history (step mail) start steps).map Moment.output) := by
  show Follows reports (final (step mail) start steps)
    ([] ++ (history (step mail) start steps).map Moment.output)
  refine final_outputs (Q := fun data outputs => Follows reports data outputs)
    (fun data outputs s hs h => ?_) hsteps hstart.follows
  cases s with
  | store freshId eventId event now => exact h.store hs
  | process id now => exact h.process id now
  | commit now => exact h.commit now

/-- Items with different marks, all marked alike, are one at most. -/
theorem countP_le_one {α β : Type*} {l : List α} {p : α → Bool} {f : α → β}
    (hnodup : (l.map f).Nodup)
    (hsame : ∀ a ∈ l, ∀ b ∈ l, p a = true → p b = true → f a = f b) : l.countP p ≤ 1 := by
  rw [List.countP_eq_length_filter]
  have hnodup' : ((l.filter p).map f).Nodup := (List.filter_sublist.map f).nodup hnodup
  match hfilter : l.filter p with
  | [] => simp
  | [a] => simp
  | a :: b :: rest =>
    rw [hfilter] at hnodup'
    have ha := List.mem_filter.mp (hfilter ▸ List.mem_cons_self : a ∈ l.filter p)
    have hb := List.mem_filter.mp
      (hfilter ▸ List.mem_cons_of_mem _ List.mem_cons_self : b ∈ l.filter p)
    have heq := hsame a ha.1 b hb.1 ha.2 hb.2
    rw [List.map_cons, List.map_cons, heq, List.nodup_cons] at hnodup'
    exact absurd List.mem_cons_self hnodup'.1

/-- **An event is applied once.** -/
theorem Follows.applied_once {moments : List InboxMoment}
    (h : Follows reports data (moments.map Moment.output)) (eventId : String) :
    moments.countP (applies eventId) ≤ 1 := by
  have hcount : moments.countP (applies eventId)
      = (appliedEvents moments).countP
        (fun event => event.provider = "resend" && event.eventId = eventId) := by
    rw [appliedEvents, List.reduceOption, List.countP_filterMap, List.countP_map]
    refine List.countP_congr fun m _ => ?_
    cases hout : m.output <;> simp [applies, hout]
  rw [hcount]
  refine countP_le_one h.heard.once fun a ha b hb hpa hpb => ?_
  simp only [Bool.and_eq_true, decide_eq_true_eq] at hpa hpb
  obtain ⟨e, he, heid, hprovider, heventId, -⟩ := h.heard.traced a ha
  obtain ⟨e', he', heid', hprovider', heventId', -⟩ := h.heard.traced b hb
  have hsame : e = e' := by
    refine h.heard.distinct e he e' he' ?_ ?_
    · rw [hprovider, hprovider', hpa.1, hpb.1]
    · rw [heventId, heventId', hpa.2, hpb.2]
  rw [← heid, ← heid', hsame]

/-- **What was applied is what was reported**, once all reports are processed. -/
theorem Follows.types_iff (h : Follows reports data outputs) (hall : AllProcessed reports data)
    (type : String) :
    type ∈ appliedTypes mail outputs.reduceOption ↔ type ∈ reports.types := by
  constructor
  · intro htype
    obtain ⟨a, ha, rfl⟩ := List.mem_map.mp htype
    obtain ⟨ha, habout⟩ := List.mem_filter.mp ha
    obtain ⟨e, he, -, -, -, hetype, hpayload, -⟩ := h.heard.traced a ha
    have hreport := (h.heard.about e he (.inl (hpayload ▸ of_decide_eq_true habout))).1
    exact List.mem_map.mpr ⟨_, hreport, hetype⟩
  · intro htype
    obtain ⟨e, he, rfl⟩ := List.mem_map.mp htype
    obtain ⟨row, hrow, hprovider, heventId, hstate⟩ := hall e he
    have hid : row.eventId ∈ reports.events.map Prod.fst := heventId ▸ List.mem_map_of_mem he
    obtain ⟨hreport, happlied⟩ := h.heard.about row hrow (.inr ⟨hprovider, hid⟩)
    obtain ⟨a, ha, hatype, hapayload⟩ := happlied hstate
    have hsame : (row.eventId, (⟨row.eventType, row.payload⟩ : ResendEvent)) = e :=
      List.inj_on_of_nodup_map reports.distinct hreport he heventId
    obtain rfl := hsame
    refine List.mem_map.mpr ⟨a, List.mem_filter.mpr ⟨ha, decide_eq_true ?_⟩, hatype⟩
    rw [hapayload]
    exact (reports.about _ he).1

/-- **Reports about an accepted mail converge** up to which failure comes first. -/
structure Converges (reports : Reports mail) (start : InboxData) (steps : List Step) : Prop where
  /-- Each event is applied at most once. -/
  applied_once : ∀ e ∈ reports.events,
    (history (step mail) start steps).countP (applies e.fst) ≤ 1
  /-- Once all events are processed, the action has failed if any of them is a
  failure, and is verified otherwise. -/
  state : reports.events ≠ [] → AllProcessed reports (final (step mail) start steps) →
    ∃ outcome, mailOutcome (final (step mail) start steps) mail = some outcome
      ∧ outcome.state = if ∃ e ∈ reports.events, e.snd.type ∈ failures then .failed else .verified
  /-- The rest is what the first failure that was applied makes of it. -/
  outcome : reports.events ≠ [] → AllProcessed reports (final (step mail) start steps) →
    mailOutcome (final (step mail) start steps) mail
      = some (outcomeOf (firstFailure mail (history (step mail) start steps)))
  /-- So reports whose failures are of one type leave one outcome. -/
  agrees : reports.events ≠ [] → AllProcessed reports (final (step mail) start steps) →
    (∀ type ∈ reports.types, ∀ type' ∈ reports.types, type ∈ failures → type' ∈ failures →
      type = type') →
    mailOutcome (final (step mail) start steps) mail
      = some (outcomeOf (reports.types.find? (fun type => type ∈ failures)))

/-- **Every run of the reports converges**, in every order, whenever the dispatch
commits and however often events are received and processed. -/
theorem converges_of_run (reports : Reports mail) (start : InboxData) (steps : List Step)
    (hstart : Handed reports start) (hsteps : ∀ s ∈ steps, Signed reports s) :
    Converges reports start steps := by
  have hfinal := follows_final hstart hsteps
  have houtcome : reports.events ≠ [] → AllProcessed reports (final (step mail) start steps) →
      mailOutcome (final (step mail) start steps) mail
        = some (outcomeOf (firstFailure mail (history (step mail) start steps))) := by
    intro hne hall
    have hiff := hfinal.types_iff hall
    obtain ⟨e, he⟩ := List.exists_mem_of_ne_nil _ hne
    have hmem := (hiff e.snd.type).mpr (List.mem_map_of_mem he)
    rcases hfinal.standing with ⟨-, htypes⟩ | hcommitted
    · rw [htypes] at hmem
      cases hmem
    · rw [hcommitted.mailOutcome_eq, outcomeAfter_eq (fun type htype => ?_)
        (List.ne_nil_of_mem hmem)]
      · rfl
      · obtain ⟨e, he, rfl⟩ := List.mem_map.mp ((hiff type).mp htype)
        exact (reports.about e he).2
  refine ⟨fun e _ => hfinal.applied_once e.fst, fun hne hall => ⟨_, houtcome hne hall, ?_⟩,
    houtcome, fun hne hall hone => ?_⟩
  · have hiff := hfinal.types_iff hall
    cases hfirst : firstFailure mail (history (step mail) start steps) with
    | none =>
      rw [if_neg]
      · rfl
      · rintro ⟨e, he, hfailure⟩
        have hmem := (hiff e.snd.type).mpr (List.mem_map_of_mem he)
        exact List.find?_eq_none.mp hfirst _ hmem (decide_eq_true hfailure)
    | some type =>
      obtain ⟨e, he, rfl⟩ := List.mem_map.mp ((hiff type).mp (List.mem_of_find?_eq_some hfirst))
      rw [if_pos ⟨e, he, mem_failures_of_find? hfirst⟩]
      rfl
  · have hiff := hfinal.types_iff hall
    rw [houtcome hne hall]
    refine congrArg (fun first => some (outcomeOf first)) ?_
    cases hfirst : firstFailure mail (history (step mail) start steps) with
    | none =>
      refine (List.find?_eq_none.mpr fun type htype => ?_).symm
      exact List.find?_eq_none.mp hfirst type ((hiff type).mpr htype)
    | some type =>
      have htype := (hiff type).mp (List.mem_of_find?_eq_some hfirst)
      have hfailure := mem_failures_of_find? hfirst
      cases hreported : reports.types.find? (fun type => type ∈ failures) with
      | none =>
        exact absurd (decide_eq_true hfailure) (List.find?_eq_none.mp hreported type htype)
      | some type' =>
        exact congrArg some (hone type htype type' (List.mem_of_find?_eq_some hreported) hfailure
          (mem_failures_of_find? hreported))

/-! ## Two failures -/

/-- A mail whose action was claimed once. -/
def sampleMail : Mail := ⟨"action", "message", "attempt", 1, 2, "reference"⟩

/-- A report about the mail. -/
def sampleEvent (type : String) : ResendEvent :=
  ⟨type, some "reference", "2026-03-01T10:00:00+02:00", by decide +kernel⟩

/-- A mail that bounced and was complained about. -/
def sampleReports : Reports sampleMail where
  events := [("e-1", sampleEvent "email.bounced"), ("e-2", sampleEvent "email.complained")]
  distinct := by decide
  about := by decide +kernel

/-- The action of the mail, as it was claimed. -/
def sampleAction : ExternalAction where
  id := "action"
  version := 2
  updatedAt := 0
  kind := .emailSend
  effectKey := "case-email:message"
  subjectType := some "message"
  subjectId := some "message"
  sourceGeneration := none
  payload := .null
  payloadDigest := ""
  secretPayload := none
  state := .attempting
  attempts := 1
  provider := some "resend"
  providerReference := none
  lastErrorCode := none
  firstAttemptAt := some 0
  lastAttemptAt := some 0
  acknowledgedAt := none
  verifiedAt := none
  failedAt := none
  reconciledAt := none

/-- The tables when the mail is handed over. -/
def sampleStart : InboxData where
  events := Table.empty
  actions := ⟨[sampleAction], List.nodup_singleton _⟩
  messages := ⟨[⟨"message", 1, .attempting, 0⟩], List.nodup_singleton _⟩
  attempts := ⟨[⟨"attempt", 1, some "action", 1, .attempting, none, none, none, none, none⟩],
    List.nodup_singleton _⟩

theorem handed_sampleStart : Handed sampleReports sampleStart where
  pending :=
    { action := ⟨sampleAction, rfl, ⟨rfl, ⟨rfl, rfl⟩, rfl⟩, rfl, rfl, rfl⟩
      message := rfl
      attempt := ⟨_, rfl, ⟨rfl, rfl⟩⟩ }
  alone := by
    intro row hrow hne
    obtain rfl := List.mem_singleton.mp hrow
    exact absurd rfl hne
  distinct := fun _ he => absurd he List.not_mem_nil
  unheard := fun _ he => absurd he List.not_mem_nil

/-- Both events are stored, and then processed in an order. -/
def sampleSteps (first second : Uuid) : List Step :=
  [.commit 1, .store "i-1" "e-1" (sampleEvent "email.bounced") 2,
    .store "i-2" "e-2" (sampleEvent "email.complained") 3, .process first 4, .process second 5]

theorem signed_sampleSteps (first second : Uuid) :
    ∀ s ∈ sampleSteps first second, Signed sampleReports s := by
  intro s hs
  simp only [sampleSteps, List.mem_cons, List.not_mem_nil, or_false] at hs
  rcases hs with rfl | rfl | rfl | rfl | rfl
  · trivial
  · exact fun _ => List.mem_cons_self
  · exact fun _ => List.mem_cons_of_mem _ List.mem_cons_self
  · trivial
  · trivial

theorem converges_sampleRun : Converges sampleReports sampleStart (sampleSteps "i-1" "i-2") :=
  converges_of_run sampleReports sampleStart _ handed_sampleStart (signed_sampleSteps _ _)

/-- What the reports come to is the same for every order. -/
def OrderIndependent : Prop :=
  ∀ (mail : Mail) (reports : Reports mail) (start : InboxData) (steps steps' : List Step),
    Handed reports start → (∀ s ∈ steps, Signed reports s) → (∀ s ∈ steps', Signed reports s) →
    AllProcessed reports (final (step mail) start steps) →
    AllProcessed reports (final (step mail) start steps') →
    mailOutcome (final (step mail) start steps) mail
      = mailOutcome (final (step mail) start steps') mail

/-- **Whether mail bounced or was complained about** first decides what its
message came to. -/
theorem not_orderIndependent : ¬ OrderIndependent := by
  intro h
  have hsame := h sampleMail sampleReports sampleStart (sampleSteps "i-1" "i-2")
    (sampleSteps "i-2" "i-1") handed_sampleStart (signed_sampleSteps _ _) (signed_sampleSteps _ _)
    (by unfold AllProcessed; decide +kernel) (by unfold AllProcessed; decide +kernel)
  exact absurd hsame (by decide +kernel)

end ResendInbox
