import MsRealty.ExternalAction

/-!
# The dispatch of one generic message

`dispatchMessage` (`src/server/jobs/outbox.ts`) works in up to three
transactions with the provider call between them, so it is modelled by the
pieces that commit on their own:

* `claimMessage` – the first transaction: leave the row, cancel it, or claim
  it by moving it to `attempting`;
* `handoffMessage` – what the run does next with the row as it read it before
  the claim. Sign-in-link mail locks the row again and re-checks it; any other
  mail goes to the provider at once;
* `settleMessage` – the conditional update that records the provider's answer.

The digest function and what the run reads in other tables are parameters.
Who may interleave with these pieces is in `MsRealty.Dispatch`.
-/

/-- **What a first transaction does with a row.** -/
inductive ClaimResult where
  /-- The row is left as it is. -/
  | declined
  /-- The row is cancelled. -/
  | cancelled (row : ExternalAction)
  /-- The row is claimed; the run goes on with the given copy of it. -/
  | claimed (row copy : ExternalAction)

/-- **What a run does after its claim.** -/
inductive HandoffResult where
  /-- It ends without a send and without a change. -/
  | ended
  /-- It cancels the row, if the row is still its own. -/
  | cancelled (row : ExternalAction)
  /-- It hands the message to the provider; `bounded` when it holds the row's
  lock meanwhile and waits a bounded time. -/
  | send (message : OutboundMessage) (bounded : Bool)

namespace Outbox

open ExternalAction

/-- The template and subject of sign-in-link mail. -/
def emailLinkTemplate : String := "auth.email_link"

def emailLinkSubject : String := "email_sign_in_token"

/-- The template and subject of search-alert digests. -/
def alertTemplate : String := "search_alerts.digest.v1"

def alertSubjectType : String := "search_alert_digest"

/-- The template and subject of case messages. -/
def caseEmailTemplate : String := "case.reviewed-email.v1"

def caseSubjectType : String := "message"

/-- The template and subject of inquiry coverage notices. -/
def inquiryCoverageNoticeTemplate : String := "inquiry.coverage-notice.v1"

def inquiryCoverageNoticeSubject : String := "inquiry_coverage_notice"

/-- What the first transaction reads outside the row. -/
structure MessageReads where
  /-- `emailLinkDeliveryIsCurrent`: the sign-in link still grants access. -/
  linkCurrent : Bool
  /-- `inquiryCoverageNoticeConfig`: notices are enabled here. -/
  noticeConfigured : Bool
  /-- `inquiryCoverageNoticeActionIsValid`. -/
  noticeValid : Bool

/-- Mail that carries a sign-in link. -/
def credentialMail (row : ExternalAction) : Bool :=
  decide (row.payloadText "template" = some emailLinkTemplate
    ∨ row.subjectType = some emailLinkSubject)

/-- Mail that notifies staff of an inquiry. -/
def inquiryNotice (row : ExternalAction) : Bool :=
  decide (row.payloadText "template" = some inquiryCoverageNoticeTemplate
    ∨ row.subjectType = some inquiryCoverageNoticeSubject)

/-- Mail whose template has a guarded dispatcher of its own. -/
def guardedTemplate (row : ExternalAction) : Bool :=
  decide (row.payloadText "template" = some alertTemplate
    ∨ row.payloadText "template" = some caseEmailTemplate)

variable (digest : JsonValue → String)

/-- Whether the stored secret is not the one the payload commits to. -/
def secretChanged (row : ExternalAction) : Bool :=
  match row.payload.get? "secretDigest" with
  | none => false
  | some commitment =>
    match row.secretPayload with
    | none => true
    | some secret =>
      !secret.truthy || decide (commitment.asString? ≠ some (digest secret))

/-- The code of the guard a queued row fails, if it fails one. -/
def guardCode (row : ExternalAction) (reads : MessageReads) : Option String :=
  if credentialMail row && !reads.linkCurrent then
    some "auth_email_link_ineligible"
  else if inquiryNotice row && !reads.noticeValid then
    some "inquiry_notice_guard_failed"
  else if guardedTemplate row then some "guarded_template_subject_mismatch"
  else if secretChanged digest row then some "secret_digest_mismatch"
  else if row.payloadDigest ≠ digest row.payload then
    some "payload_digest_mismatch"
  else none

/-- A cancellation of generic mail also erases the secret. -/
def cancelMessage (row : ExternalAction) (code : String) (now : Instant) :
    ExternalAction :=
  { row.cancel code now with secretPayload := none }

/-- **The first transaction of `dispatchMessage`.** -/
def claimMessage (row : ExternalAction) (provider : String) (now : Instant)
    (reads : MessageReads) : ClaimResult :=
  if row.state ≠ .queued then .declined
  else if row.windowPassed now then
    .cancelled (cancelMessage row "retry_window_expired" now)
  -- Disabling notices parks the queued ones.
  else if inquiryNotice row && !reads.noticeConfigured then .declined
  else
    match guardCode digest row reads with
    | some code => .cancelled (cancelMessage row code now)
    | none => .claimed (row.claim provider now) row

/-- The message of the row as the run read it before its claim. -/
def outboundMessage (row : ExternalAction) : OutboundMessage where
  outboxId := row.id
  idempotencyKey := row.effectKey
  channel := row.payload.get? "channel"
  recipient := row.payload.get? "recipient"
  template := row.payload.get? "template"
  params := row.payload.get? "params"
  secretParams := row.secretPayload

/-- `finish`: the conditional update at the end of a run. It changes a row
that is still `attempting` and no other. -/
def finish (row : ExternalAction) (state : ExternalActionState)
    (values : ExternalAction → ExternalAction) : ExternalAction :=
  if row.state = .attempting then
    { values row with state := state, version := row.version + 1 }
  else row

/-- **What the run does with its claim.** `copy` is the row as it was before
the claim and `row` the row as it is now, which only sign-in-link mail reads
again. Reading a member of a `null` payload throws. -/
def handoffMessage (row copy : ExternalAction) (linkCurrent : Bool)
    (currentTime : Instant) : HandoffResult :=
  match copy.payload with
  | .null => .ended
  | _ =>
    if !credentialMail copy then .send (outboundMessage copy) false
    else if row.state ≠ .attempting ∨ row.version ≠ copy.version + 1 then .ended
    else if row.payloadDigest ≠ copy.payloadDigest ∨ row.effectKey ≠ copy.effectKey
        ∨ linkCurrent = false then
      .cancelled (finish row .cancelled (fun r =>
        { r with
          lastErrorCode := some "auth_email_link_ineligible"
          secretPayload := none
          updatedAt := currentTime }))
    else .send (outboundMessage copy) true

/-- **What the run records of the provider's answer**; `none` when the call
threw or timed out. -/
def settleMessage (row copy : ExternalAction) (now : Instant) :
    Option ProviderResult → ExternalAction
  | none =>
    finish row .outcomeUnknown
      (fun r => { r with lastErrorCode := some "provider_unreachable" })
  | some (.accepted providerMessageId) =>
    finish row .acknowledged (fun r =>
      { r with
        providerReference := some providerMessageId
        acknowledgedAt := some now
        lastErrorCode := none })
  | some (.rejected code retryable) =>
    if retryable && decide (copy.attempts + 1 < maxDeliveryAttempts) then
      finish row .queued (fun r =>
        { r with lastErrorCode := some code, secretPayload := copy.secretPayload })
    else
      finish row .failed
        (fun r => { r with lastErrorCode := some code, failedAt := some now })

/-! ## What the pieces do -/

variable {digest}

/-- **The first transaction acts on queued rows only**, and claims inside the
retry window only. -/
theorem claimMessage_claimed {row next copy : ExternalAction} {provider : String}
    {now : Instant} {reads : MessageReads}
    (h : claimMessage digest row provider now reads = .claimed next copy) :
    row.state = .queued ∧ row.windowPassed now = false
      ∧ next = row.claim provider now ∧ copy = row := by
  unfold claimMessage at h
  by_cases hstate : row.state = .queued
  · cases hwindow : row.windowPassed now with
    | true => rw [if_neg (not_not_intro hstate), hwindow] at h; exact nomatch h
    | false =>
      rw [if_neg (not_not_intro hstate), hwindow] at h
      refine ⟨hstate, rfl, ?_⟩
      split at h
      · exact nomatch h
      · split at h
        · exact nomatch h
        · split at h
          · exact nomatch h
          · cases h
            exact ⟨rfl, rfl⟩
  · rw [if_pos hstate] at h
    exact nomatch h

theorem claimMessage_cancelled {row next : ExternalAction} {provider : String}
    {now : Instant} {reads : MessageReads}
    (h : claimMessage digest row provider now reads = .cancelled next) :
    row.state = .queued ∧ ∃ code, next = cancelMessage row code now := by
  unfold claimMessage at h
  by_cases hstate : row.state = .queued
  · rw [if_neg (not_not_intro hstate)] at h
    refine ⟨hstate, ?_⟩
    split_ifs at h
    · exact ⟨_, (ClaimResult.cancelled.inj h).symm⟩
    · split at h
      · exact ⟨_, (ClaimResult.cancelled.inj h).symm⟩
      · exact nomatch h
  · rw [if_pos hstate] at h
    exact nomatch h

/-- **Sign-in-link mail is handed over only by the run that holds its claim**;
other mail is handed over whatever became of the row. -/
theorem handoffMessage_send {row copy : ExternalAction} {linkCurrent : Bool}
    {currentTime : Instant} {message : OutboundMessage} {bounded : Bool}
    (h : handoffMessage row copy linkCurrent currentTime = .send message bounded) :
    bounded = credentialMail copy ∧ (bounded = true → row.state = .attempting) := by
  unfold handoffMessage at h
  split at h
  · exact nomatch h
  · cases hmail : credentialMail copy with
    | false =>
      rw [hmail, if_pos (by decide : (!false) = true)] at h
      cases h
      exact ⟨rfl, fun hb => nomatch hb⟩
    | true =>
      rw [hmail, if_neg (by decide : ¬ (!true) = true)] at h
      split_ifs at h with hrow hcurrent
      cases h
      refine ⟨rfl, fun _ => ?_⟩
      by_contra hne
      exact hrow (Or.inl hne)

theorem handoffMessage_cancelled {row copy next : ExternalAction} {linkCurrent : Bool}
    {currentTime : Instant}
    (h : handoffMessage row copy linkCurrent currentTime = .cancelled next) :
    row.state = .attempting ∧ next = finish row .cancelled (fun r =>
      { r with
        lastErrorCode := some "auth_email_link_ineligible"
        secretPayload := none
        updatedAt := currentTime }) := by
  unfold handoffMessage at h
  split at h
  · exact nomatch h
  · split_ifs at h with hmail hrow hcurrent
    refine ⟨?_, (HandoffResult.cancelled.inj h).symm⟩
    by_contra hne
    exact hrow (Or.inl hne)

end Outbox
