import MsRealty.CaseEmailDispatch

/-!
# The rows of a case email agree

After every committed step the state of the message, and of its latest attempt, is the image
of the state of the action (`Agree`), whatever transactions were made before it. What carries
this is that the earlier attempts are failed, so that a step changes the latest one only, and
that the rows name each other (`Inv`).

The changes of the message's state follow the declared machine, but for five that the writers
spell out (`StateChange`): a queued email may be cancelled, a refusal that may be retried puts
it back to the queue, a person may establish the delivery or the bounce of an attempt whose
answer was never recorded, and a failure that is no bounce may be reported after the delivery.
-/

namespace CaseEmail

open ExternalAction ResendInbox Runs

/-! ## The law -/

/-- **The image of an action's state**: what its message may be in. -/
def messageStates : ExternalActionState → List MessageState
  | .queued => [.queued]
  | .attempting => [.attempting]
  | .acknowledged => [.providerAccepted]
  | .verified => [.delivered]
  | .failed => [.bounced, .failed]
  | .outcomeUnknown => [.outcomeUnknown]
  | .cancelled => [.failed]

/-- The state of the latest attempt: that of the message, where it is not in the queue again. -/
def attemptState (action : ExternalActionState) (message : MessageState) : MessageState :=
  if action = .queued then .failed else message

/-- **The rows agree**, and attempts are numbered from 1 without a gap. -/
structure Agree (mail : Mail) : Prop where
  message : mail.message.state ∈ messageStates mail.action.state
  latest : ∀ attempt ∈ mail.attempts, attempt.attemptNumber = mail.action.attempts →
    attempt.state = attemptState mail.action.state mail.message.state
  numbers : mail.attempts.map (·.attemptNumber) = List.range' 1 mail.action.attempts
  /-- There is an attempt, unless the email is queued or was cancelled. -/
  attempted : mail.action.state ≠ .queued → mail.action.state ≠ .cancelled →
    0 < mail.action.attempts

/-- **The invariant**: the rows name each other, and the earlier attempts failed. -/
structure Inv (mail : Mail) : Prop extends Agree mail where
  subjectType : mail.action.subjectType = some "message"
  subjectId : mail.action.subjectId = some mail.message.id
  own : ∀ attempt ∈ mail.attempts, attempt.externalActionId = some mail.action.id
  earlier : ∀ attempt ∈ mail.attempts, attempt.attemptNumber < mail.action.attempts →
    attempt.state = .failed

/-- Where the action's state has one image, the message is in it. -/
theorem Inv.message_of {mail : Mail} (h : Inv mail) {action : ExternalActionState}
    {message : MessageState} (hstate : mail.action.state = action)
    (hone : messageStates action = [message]) : mail.message.state = message := by
  have himage := h.message
  rw [hstate, hone] at himage
  exact List.mem_singleton.mp himage

theorem inv_of_queued {mail : Mail} (h : Queued mail) : Inv mail where
  message := by rw [h.state, h.message]; exact List.mem_cons_self
  latest := fun attempt hattempt => absurd (h.none ▸ hattempt) List.not_mem_nil
  numbers := by rw [h.none, h.attempts]; rfl
  attempted := fun hstate => absurd h.state hstate
  subjectType := h.subjectType
  subjectId := h.subjectId
  own := fun attempt hattempt => absurd (h.none ▸ hattempt) List.not_mem_nil
  earlier := fun attempt hattempt => absurd (h.none ▸ hattempt) List.not_mem_nil

/-- An attempt is one of the numbered. -/
theorem Inv.number_le {mail : Mail} (h : Inv mail) {attempt : MessageAttempt}
    (hattempt : attempt ∈ mail.attempts) : attempt.attemptNumber ≤ mail.action.attempts := by
  have hmem : attempt.attemptNumber ∈ List.range' 1 mail.action.attempts := by
    rw [← h.numbers]
    exact List.mem_map_of_mem hattempt
  have hrange := List.mem_range'_1.mp hmem
  omega

/-- The last attempt is the one of the action with the action's number. -/
theorem Inv.isLast_iff {mail : Mail} (h : Inv mail) {attempt : MessageAttempt}
    (hattempt : attempt ∈ mail.attempts) : attempt.isLast mail.action = true
      ↔ attempt.attemptNumber = mail.action.attempts := by
  rw [MessageAttempt.isLast, h.own attempt hattempt]
  simp

/-! ## What a step may write -/

/-- **A change of all three rows** that keeps the earlier attempts keeps the invariant, if the
new states agree. -/
theorem Inv.update {mail : Mail} (h : Inv mail) {action : ExternalAction} {message : Message}
    {change : MessageAttempt → MessageAttempt} (hid : action.id = mail.action.id)
    (hcount : action.attempts = mail.action.attempts)
    (htype : action.subjectType = mail.action.subjectType)
    (hsubject : action.subjectId = mail.action.subjectId) (hmessage : message.id = mail.message.id)
    (hkeep : ∀ a, (change a).attemptNumber = a.attemptNumber
      ∧ (change a).externalActionId = a.externalActionId)
    (hstate : message.state ∈ messageStates action.state)
    (hattempted : action.state ≠ .queued → action.state ≠ .cancelled → 0 < mail.action.attempts)
    (hlatest : ∀ a ∈ mail.attempts, a.attemptNumber = mail.action.attempts →
      (change a).state = attemptState action.state message.state)
    (hearlier : ∀ a ∈ mail.attempts, a.attemptNumber < mail.action.attempts →
      (change a).state = .failed) :
    Inv { action := action, message := message, attempts := mail.attempts.map change } where
  message := hstate
  latest := by
    intro attempt hattempt hnumber
    obtain ⟨a, ha, rfl⟩ := List.mem_map.mp hattempt
    exact hlatest a ha (((hkeep a).1.symm.trans hnumber).trans hcount)
  numbers := by
    rw [List.map_map, hcount, ← h.numbers]
    exact List.map_congr_left fun a _ => (hkeep a).1
  attempted := fun hqueued hcancelled => hcount ▸ hattempted hqueued hcancelled
  subjectType := htype.trans h.subjectType
  subjectId := by
    rw [hsubject, h.subjectId, hmessage]
  own := by
    intro attempt hattempt
    obtain ⟨a, ha, rfl⟩ := List.mem_map.mp hattempt
    rw [(hkeep a).2, h.own a ha, hid]
  earlier := by
    intro attempt hattempt hnumber
    obtain ⟨a, ha, rfl⟩ := List.mem_map.mp hattempt
    exact hearlier a ha ((hkeep a).1 ▸ hcount ▸ hnumber)

/-- Before an answer, the email may be cancelled. -/
theorem Inv.cancel {mail : Mail} (h : Inv mail)
    (hstate : mail.action.state = .queued ∨ mail.action.state = .attempting) (code : String)
    (now : Instant) : Inv (mail.cancel code now)
      ∧ (mail.cancel code now).message.state = .failed := by
  have hmem : mail.action.state ∈ [ExternalActionState.queued, .attempting] := by
    obtain hstate | hstate := hstate <;> rw [hstate] <;> simp
  rw [Mail.cancel, if_pos hmem, if_pos h.subjectId]
  refine ⟨h.update rfl rfl rfl rfl rfl (fun a => ?_) List.mem_cons_self
    (fun _ hcancelled => absurd rfl hcancelled) (fun a ha hnumber => ?_) fun a ha hnumber => ?_, rfl⟩
  · split_ifs
    · exact ⟨rfl, rfl⟩
    · exact ⟨rfl, rfl⟩
  · -- The latest attempt is failed already, or it was going on.
    have hlatest := h.latest a ha hnumber
    split_ifs with hgoing
    · rfl
    · obtain hstate | hstate := hstate
      · rw [hstate] at hlatest
        exact hlatest
      · have hmessage := h.message
        rw [hstate] at hlatest hmessage
        rw [List.mem_singleton.mp hmessage] at hlatest
        exact absurd ⟨h.own a ha, hlatest⟩ hgoing
  · split_ifs
    · rfl
    · exact h.earlier a ha hnumber

/-- **An outcome** is carried to the message and the latest attempt. -/
theorem Inv.syncOutcome {mail : Mail} (h : Inv mail) {action : ExternalAction}
    (hid : action.id = mail.action.id) (hcount : action.attempts = mail.action.attempts)
    (htype : action.subjectType = mail.action.subjectType)
    (hsubject : action.subjectId = mail.action.subjectId)
    (hattempted : 0 < mail.action.attempts)
    (hstate : action.state ∈ [ExternalActionState.acknowledged, .verified, .failed])
    (at' : Instant) (code : Option String) :
    Inv (Mail.syncOutcome { mail with action := action } at' code)
      ∧ (Mail.syncOutcome { mail with action := action } at' code).message.state
        = messageOutcome action.state code := by
  have hnamed : ¬ (action.subjectType ≠ some "message"
      ∨ action.subjectId ≠ some mail.message.id) := by
    rw [htype, hsubject, h.subjectType, h.subjectId]
    simp
  rw [Mail.syncOutcome, if_neg hnamed]
  have hlast : ∀ a ∈ mail.attempts, a.isLast action = true
      ↔ a.attemptNumber = mail.action.attempts := by
    intro a ha
    rw [MessageAttempt.isLast, hid, hcount]
    exact h.isLast_iff ha
  have hqueued : action.state ≠ .queued := by
    rintro heq
    rw [heq] at hstate
    simp at hstate
  refine ⟨h.update hid hcount htype hsubject rfl (fun a => ?_) ?_ (fun _ _ => hattempted)
    (fun a ha hnumber => ?_) fun a ha hnumber => ?_, rfl⟩
  · split_ifs
    · exact ⟨rfl, rfl⟩
    · exact ⟨rfl, rfl⟩
  · show messageOutcome action.state code ∈ messageStates action.state
    simp only [List.mem_cons, List.not_mem_nil, or_false] at hstate
    obtain hstate | hstate | hstate := hstate <;> rw [hstate, messageOutcome] <;>
      simp [messageStates]
    by_cases hcode : code = some "email.bounced" <;> simp [hcode]
  · rw [if_pos ((hlast a ha).mpr hnumber), attemptState, if_neg hqueued]
    rfl
  · rw [if_neg fun hyes => (hnumber.ne ((hlast a ha).mp hyes))]
    exact h.earlier a ha hnumber

/-! ## The changes of the message -/

/-- **What a step may do to the state of the message**: keep it, follow an edge of the declared
machine, or one of five changes beside it. -/
inductive StateChange : MessageState → Event → MessageState → Prop
  | kept (state : MessageState) (e : Event) : StateChange state e state
  | edge {source target : MessageState} (e : Event) (h : messageMachine.Edge source target) :
      StateChange source e target
  /-- A queued email is cancelled. -/
  | cancelled (hint : ExternalAction) (current : Bool) (provider : String) (attemptId : Uuid)
      (now : Instant) :
      StateChange .queued (.claim hint current provider attemptId now) .failed
  /-- The provider did not take it, and may be asked again. -/
  | requeued (claimedVersion : ℕ) (code : String) (now : Instant) :
      StateChange .attempting (.handOff claimedVersion (.answered (some (.rejected code true))) now)
        .queued
  /-- A person establishes the delivery of an attempt without an answer. -/
  | deliveredByHand (id : Option String) (now : Instant) :
      StateChange .attempting (.reconcile (.verified id) now) .delivered
  /-- A person establishes that such an attempt bounced. -/
  | bouncedByHand (now : Instant) :
      StateChange .attempting (.reconcile (.failed "email.bounced") now) .bounced
  /-- A failure that is no bounce overrules the delivery. -/
  | lateFailure (report : DeliveryReport) (at' : Instant) (hfailed : report.delivered = false)
      (hcode : report.code ≠ some "email.bounced") :
      StateChange .delivered (.report report at') .failed

/-- **The first transaction** keeps the invariant, and claims or cancels a queued email. -/
theorem Inv.claim {mail : Mail} (h : Inv mail) (hint : ExternalAction) (current : Bool)
    (provider : String) (attemptId : Uuid) (now : Instant) :
    Inv (mail.claim hint current provider attemptId now)
      ∧ StateChange mail.message.state (.claim hint current provider attemptId now)
        (mail.claim hint current provider attemptId now).message.state := by
  rw [Mail.claim]
  by_cases hqueued : mail.action.state = .queued
  swap
  · rw [if_pos hqueued]
    exact ⟨h, .kept _ _⟩
  have hmessage := h.message_of hqueued rfl
  have hcancel : ∀ code, Inv (mail.cancel code now)
      ∧ StateChange mail.message.state (.claim hint current provider attemptId now)
        (mail.cancel code now).message.state := by
    intro code
    obtain ⟨hinv, hstate⟩ := h.cancel (Or.inl hqueued) code now
    rw [hstate, hmessage]
    exact ⟨hinv, .cancelled _ _ _ _ _⟩
  rw [if_neg (not_not.mpr hqueued)]
  split_ifs
  · exact ⟨h, .kept _ _⟩
  · exact hcancel _
  · exact hcancel _
  · exact hcancel _
  · refine ⟨?_, ?_⟩
    · exact {
        message := List.mem_cons_self
        latest := by
          intro attempt hattempt hnumber
          obtain hattempt | hattempt := List.mem_append.mp hattempt
          · -- The earlier attempts have smaller numbers.
            have hle := h.number_le hattempt
            change attempt.attemptNumber = mail.action.attempts + 1 at hnumber
            omega
          · rw [List.mem_singleton.mp hattempt]
            rfl
        numbers := by
          show (mail.attempts ++ [_]).map _ = List.range' 1 (mail.action.attempts + 1)
          rw [List.map_append, h.numbers, List.range'_1_concat, Nat.add_comm 1]
          rfl
        attempted := fun _ _ => Nat.succ_pos _
        subjectType := h.subjectType
        subjectId := h.subjectId
        own := by
          intro attempt hattempt
          obtain hattempt | hattempt := List.mem_append.mp hattempt
          · exact h.own attempt hattempt
          · rw [List.mem_singleton.mp hattempt]
            rfl
        earlier := by
          intro attempt hattempt hnumber
          obtain hattempt | hattempt := List.mem_append.mp hattempt
          · -- The last attempt before this one failed, as the email was in the queue again.
            obtain hlt | heq := (h.number_le hattempt).lt_or_eq
            · exact h.earlier attempt hattempt hlt
            · have hlatest := h.latest attempt hattempt heq
              rwa [hqueued] at hlatest
          · rw [List.mem_singleton.mp hattempt] at hnumber
            exact absurd hnumber (lt_irrefl _) }
    · rw [hmessage]
      exact .edge _ (by decide : messageMachine.Edge .queued .attempting)

/-- What a provider's answer makes of the action. -/
theorem resultState_cases (attempts : ℕ) (result : Option ProviderResult) :
    resultState attempts result = .outcomeUnknown ∨ resultState attempts result = .acknowledged
      ∨ (resultState attempts result = .queued ∧ ∃ code, result = some (.rejected code true))
      ∨ resultState attempts result = .failed := by
  match result with
  | none => exact Or.inl rfl
  | some (.accepted _) => exact Or.inr (Or.inl rfl)
  | some (.rejected code false) => exact Or.inr (Or.inr (Or.inr rfl))
  | some (.rejected code true) =>
    by_cases hleft : attempts < maxDeliveryAttempts
    · refine Or.inr (Or.inr (Or.inl ⟨?_, code, rfl⟩))
      simp [resultState, hleft]
    · refine Or.inr (Or.inr (Or.inr ?_))
      simp [resultState, hleft]

/-- **The second transaction** keeps the invariant, and ends an attempt. -/
theorem Inv.handOff {mail : Mail} (h : Inv mail) (claimedVersion : ℕ) (handoff : Handoff)
    (now : Instant) : Inv (mail.handOff claimedVersion handoff now)
      ∧ StateChange mail.message.state (.handOff claimedVersion handoff now)
        (mail.handOff claimedVersion handoff now).message.state := by
  rw [Mail.handOff.eq_def]
  split_ifs with hclaim
  · exact ⟨h, .kept _ _⟩
  rw [not_or, not_not] at hclaim
  have hattempting := hclaim.1
  have hmessage := h.message_of hattempting rfl
  have hcancel : ∀ code, Inv (mail.cancel code now)
      ∧ StateChange mail.message.state (.handOff claimedVersion handoff now)
        (mail.cancel code now).message.state := by
    intro code
    obtain ⟨hinv, hstate⟩ := h.cancel (Or.inr hattempting) code now
    rw [hstate, hmessage]
    exact ⟨hinv, .edge _ (by decide : messageMachine.Edge .attempting .failed)⟩
  cases handoff with
  | eligibilityChanged => exact hcancel _
  | attachmentUnavailable => exact hcancel _
  | answered result =>
    -- The answer decides the action's state; the message and the latest attempt follow it.
    have hattempted : 0 < mail.action.attempts :=
      h.attempted (by rw [hattempting]; decide) (by rw [hattempting]; decide)
    refine ⟨h.update rfl rfl rfl rfl rfl (fun a => ?_) ?_ (fun _ _ => hattempted)
      (fun a ha hnumber => ?_) fun a ha hnumber => ?_, ?_⟩
    · split_ifs
      · exact ⟨rfl, rfl⟩
      · exact ⟨rfl, rfl⟩
    · show resultMessageState (resultState mail.action.attempts result)
        ∈ messageStates (resultState mail.action.attempts result)
      obtain heq | heq | ⟨heq, -⟩ | heq := resultState_cases mail.action.attempts result <;>
        rw [heq] <;> simp [resultMessageState, messageStates]
    · rw [if_pos ((h.isLast_iff ha).mpr hnumber)]
      show (if resultMessageState (resultState mail.action.attempts result) = .queued then .failed
        else resultMessageState (resultState mail.action.attempts result))
        = attemptState (resultState mail.action.attempts result)
          (resultMessageState (resultState mail.action.attempts result))
      obtain heq | heq | ⟨heq, -⟩ | heq := resultState_cases mail.action.attempts result <;>
        rw [heq] <;> rfl
    · rw [if_neg fun hyes => hnumber.ne ((h.isLast_iff ha).mp hyes)]
      exact h.earlier a ha hnumber
    · show StateChange _ _ (resultMessageState (resultState mail.action.attempts result))
      rw [hmessage]
      obtain heq | heq | ⟨heq, code, rfl⟩ | heq :=
        resultState_cases mail.action.attempts result <;> rw [heq]
      · exact .edge _ (by decide : messageMachine.Edge .attempting .outcomeUnknown)
      · exact .edge _ (by decide : messageMachine.Edge .attempting .providerAccepted)
      · exact .requeued _ _ _
      · exact .edge _ (by decide : messageMachine.Edge .attempting .failed)

/-- What is reported keeps the action apart from its state. -/
theorem recordDeliveryReport_of_matches {row : ExternalAction} {report : DeliveryReport}
    (h : row.matchesReport report = true) (at' : Instant) :
    (recordDeliveryReport row report at').id = row.id
      ∧ (recordDeliveryReport row report at').attempts = row.attempts
      ∧ (recordDeliveryReport row report at').subjectType = row.subjectType
      ∧ (recordDeliveryReport row report at').subjectId = row.subjectId
      ∧ (recordDeliveryReport row report at').state
        = if report.delivered then .verified else .failed := by
  have hnot : ¬ (!row.matchesReport report) = true := by simp [h]
  rw [ExternalAction.recordDeliveryReport, if_neg hnot]
  cases report.delivered <;> exact ⟨rfl, rfl, rfl, rfl, rfl⟩

/-- The states that a reported action came from. -/
theorem source_of_matchesReport {row : ExternalAction} {report : DeliveryReport}
    (h : row.matchesReport report = true) :
    row.state = .acknowledged ∨ row.state = .outcomeUnknown
      ∨ row.state = .verified ∧ report.delivered = false := by
  have hsource := (of_decide_eq_true h).2.2
  rw [DeliveryReport.sources] at hsource
  cases hdelivered : report.delivered with
  | true =>
    rw [hdelivered, if_pos rfl] at hsource
    exact (List.mem_pair.mp hsource).imp_right Or.inl
  | false =>
    rw [hdelivered, if_neg Bool.false_ne_true] at hsource
    simpa using hsource

theorem messageOutcome_bounced {code : Option String} (h : code = some "email.bounced") :
    messageOutcome .failed code = .bounced := by
  simp [messageOutcome, h]

theorem messageOutcome_failed {code : Option String} (h : code ≠ some "email.bounced") :
    messageOutcome .failed code = .failed := by
  simp [messageOutcome, h]

/-- **A delivery report** keeps the invariant. -/
theorem Inv.report {mail : Mail} (h : Inv mail) (report : DeliveryReport) (at' : Instant) :
    Inv (mail.report report at')
      ∧ StateChange mail.message.state (.report report at')
        (mail.report report at').message.state := by
  rw [Mail.report]
  split_ifs with hmatches
  swap
  · exact ⟨h, .kept _ _⟩
  obtain ⟨hid, hcount, htype, hsubject, hstate⟩ := recordDeliveryReport_of_matches hmatches at'
  have hsource := source_of_matchesReport hmatches
  have hattempted : 0 < mail.action.attempts := by
    refine h.attempted ?_ ?_
    · obtain heq | heq | ⟨heq, -⟩ := hsource <;> rw [heq] <;> decide
    · obtain heq | heq | ⟨heq, -⟩ := hsource <;> rw [heq] <;> decide
  have hsettled : (recordDeliveryReport mail.action report at').state
      ∈ [ExternalActionState.acknowledged, .verified, .failed] := by
    rw [hstate]
    cases report.delivered <;> simp
  obtain ⟨hinv, hmessage⟩ :=
    h.syncOutcome hid hcount htype hsubject hattempted hsettled at' report.code
  refine ⟨hinv, ?_⟩
  rw [hmessage, hstate]
  have hwas : mail.message.state = .providerAccepted ∨ mail.message.state = .outcomeUnknown
      ∨ mail.message.state = .delivered ∧ report.delivered = false :=
    hsource.imp (h.message_of · rfl) (Or.imp (h.message_of · rfl)
      (And.imp_left (h.message_of · rfl)))
  cases hdelivered : report.delivered with
  | true =>
    show StateChange _ _ .delivered
    obtain heq | heq | ⟨-, hfailed⟩ := hwas
    · rw [heq]
      exact .edge _ (by decide : messageMachine.Edge .providerAccepted .delivered)
    · rw [heq]
      exact .edge _ (by decide : messageMachine.Edge .outcomeUnknown .delivered)
    · rw [hdelivered] at hfailed
      cases hfailed
  | false =>
    show StateChange _ _ (messageOutcome .failed report.code)
    by_cases hcode : report.code = some "email.bounced"
    · rw [messageOutcome_bounced hcode]
      obtain heq | heq | ⟨heq, -⟩ := hwas <;> rw [heq]
      · exact .edge _ (by decide : messageMachine.Edge .providerAccepted .bounced)
      · exact .edge _ (by decide : messageMachine.Edge .outcomeUnknown .bounced)
      · exact .edge _ (by decide : messageMachine.Edge .delivered .bounced)
    · -- A late failure is taken of a delivered email too, which no edge of the machine allows.
      rw [messageOutcome_failed hcode]
      obtain heq | heq | ⟨heq, -⟩ := hwas <;> rw [heq]
      · exact .edge _ (by decide : messageMachine.Edge .providerAccepted .failed)
      · exact .edge _ (by decide : messageMachine.Edge .outcomeUnknown .failed)
      · exact .lateFailure report at' hdelivered hcode

/-- What is reconciled keeps the action apart from its state. -/
theorem reconcileMessage_of_awaits {row : ExternalAction} (h : row.awaitsReconciliation = true)
    (finding : Finding) (now : Instant) :
    (reconcileMessage row finding now).id = row.id
      ∧ (reconcileMessage row finding now).attempts = row.attempts
      ∧ (reconcileMessage row finding now).subjectType = row.subjectType
      ∧ (reconcileMessage row finding now).subjectId = row.subjectId
      ∧ (reconcileMessage row finding now).state = finding.state := by
  have hnot : ¬ (!row.awaitsReconciliation) = true := by simp [h]
  rw [ExternalAction.reconcileMessage, if_neg hnot]
  cases finding <;> exact ⟨rfl, rfl, rfl, rfl, rfl⟩

/-- **A reconciliation** keeps the invariant. -/
theorem Inv.reconcile {mail : Mail} (h : Inv mail) (finding : Finding) (now : Instant) :
    Inv (mail.reconcile finding now)
      ∧ StateChange mail.message.state (.reconcile finding now)
        (mail.reconcile finding now).message.state := by
  rw [Mail.reconcile]
  split_ifs with hawaits
  swap
  · exact ⟨h, .kept _ _⟩
  obtain ⟨hid, hcount, htype, hsubject, hstate⟩ := reconcileMessage_of_awaits hawaits finding now
  have hsource : mail.action.state = .attempting ∨ mail.action.state = .outcomeUnknown :=
    List.mem_pair.mp (of_decide_eq_true hawaits)
  have hattempted : 0 < mail.action.attempts := by
    refine h.attempted ?_ ?_
    · obtain heq | heq := hsource <;> rw [heq] <;> decide
    · obtain heq | heq := hsource <;> rw [heq] <;> decide
  have hsettled : (reconcileMessage mail.action finding now).state
      ∈ [ExternalActionState.acknowledged, .verified, .failed] := by
    rw [hstate]
    cases finding <;> simp [Finding.state]
  obtain ⟨hinv, hmessage⟩ :=
    h.syncOutcome hid hcount htype hsubject hattempted hsettled now (findingCode finding)
  refine ⟨hinv, ?_⟩
  rw [hmessage, hstate]
  have hwas : mail.message.state = .attempting ∨ mail.message.state = .outcomeUnknown :=
    hsource.imp (h.message_of · rfl) (h.message_of · rfl)
  cases finding with
  | acknowledged id =>
    show StateChange _ _ .providerAccepted
    obtain heq | heq := hwas <;> rw [heq]
    · exact .edge _ (by decide : messageMachine.Edge .attempting .providerAccepted)
    · exact .edge _ (by decide : messageMachine.Edge .outcomeUnknown .providerAccepted)
  | verified id =>
    show StateChange _ _ .delivered
    obtain heq | heq := hwas <;> rw [heq]
    · exact .deliveredByHand id now
    · exact .edge _ (by decide : messageMachine.Edge .outcomeUnknown .delivered)
  | failed code =>
    show StateChange _ _ (messageOutcome .failed (some code))
    by_cases hcode : code = "email.bounced"
    · rw [hcode, messageOutcome_bounced rfl]
      obtain heq | heq := hwas <;> rw [heq]
      · exact .bouncedByHand now
      · exact .edge _ (by decide : messageMachine.Edge .outcomeUnknown .bounced)
    · rw [messageOutcome_failed fun heq => hcode (Option.some.inj heq)]
      obtain heq | heq := hwas <;> rw [heq]
      · exact .edge _ (by decide : messageMachine.Edge .attempting .failed)
      · exact .edge _ (by decide : messageMachine.Edge .outcomeUnknown .failed)

/-! ## Runs -/

/-- **One step** keeps the invariant and changes the message as it may. -/
theorem Inv.step {mail : Mail} (h : Inv mail) (e : Event) : Inv (step mail e).1
    ∧ StateChange mail.message.state e (CaseEmail.step mail e).1.message.state := by
  cases e with
  | claim hint current provider attemptId now => exact h.claim hint current provider attemptId now
  | handOff claimedVersion handoff now => exact h.handOff claimedVersion handoff now
  | report report at' => exact h.report report at'
  | reconcile finding now => exact h.reconcile finding now

/-- **The rows of a case email agree after every step of every run**, and its message follows
the declared machine and the five changes beside it. -/
theorem states_of_run (mail : Mail) (hmail : Queued mail) (es : List Event) :
    ∀ m ∈ history step mail es, Agree m.after
      ∧ StateChange m.before.message.state m.event m.after.message.state := by
  have hkeep : Keeps step (fun _ => True) Inv := fun s e _ h => (h.step e).1
  refine history_forall hkeep (fun s e _ h => ?_) (fun _ _ => trivial) (inv_of_queued hmail)
  exact ⟨(h.step e).1.toAgree, (h.step e).2⟩

/-- An email that was approved. -/
def sampleMail : Mail where
  action := {
    id := "action"
    version := 1
    updatedAt := 0
    kind := .emailSend
    effectKey := "case-email:message"
    subjectType := some "message"
    subjectId := some "message"
    sourceGeneration := none
    payload := .obj []
    payloadDigest := "d"
    secretPayload := none
    state := .queued
    attempts := 0
    provider := none
    providerReference := none
    lastErrorCode := none
    firstAttemptAt := none
    lastAttemptAt := none
    acknowledgedAt := none
    verifiedAt := none
    failedAt := none
    reconciledAt := none }
  message := { id := "message", version := 2, state := .queued, updatedAt := 0 }
  attempts := []

/-- It is claimed, and the provider refuses it for now. -/
def sampleRun : List Event :=
  [.claim sampleMail.action true "resend" "attempt" 10,
    .handOff 2 (.answered (some (.rejected "rate_limit" true))) 20]

/-- The rows of this email agree. -/
theorem states_of_sampleRun :
    Queued sampleMail ∧ ∀ m ∈ history step sampleMail sampleRun, Agree m.after
      ∧ StateChange m.before.message.state m.event m.after.message.state := by
  have hmail : Queued sampleMail := ⟨rfl, rfl, rfl, rfl, rfl, rfl⟩
  exact ⟨hmail, states_of_run sampleMail hmail sampleRun⟩

/-- **A refused email goes from the attempt back to the queue**, which is no edge of the
machine. -/
theorem attempting_then_queued :
    ¬ ∀ m ∈ history step sampleMail sampleRun,
      m.after.message.state = m.before.message.state
        ∨ messageMachine.Edge m.before.message.state m.after.message.state := by
  intro h
  have hlast := h _ (List.mem_of_mem_getLast? (a := _) (by rfl))
  exact absurd hlast (by decide)

end CaseEmail
