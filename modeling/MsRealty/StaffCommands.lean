import MsRealty.StaffAccess

/-!
# Commands of access managers

What access managers do to the access of staff: granting and revoking, offboarding,
absences and recovery, each as the statements it is made of. What each command
checks before its transaction comes first, and takes no lock.
-/

namespace StaffAccess

open RowLocks Authz Access Sessions

/-! ## What commands end with -/

/-- **What a call ends with.** The readings of the clock in the check for a usable
manager are part of it, by the member they are about. -/
inductive Outcome where
  | granted
  | revoked (grantId : Uuid) (checkedAt : Uuid → Instant)
  | offboarded (principalId : Uuid) (checkedAt : Uuid → Instant)
  | absenceChanged
  | recovered (actorId principalId : Uuid)
  | bootstrapped (kind : StaffInvitationKind)
  | accepted
  | stored
  | consumed
  | registered
  | authenticated

/-! ## Writes -/

/-- Writes what happened to an account. -/
def journalEvent (principalId : Uuid) (event : AccountEvent) (data : StaffData) : StaffData :=
  { data with journal := (principalId, event) :: data.journal }

/-- Replaces a grant. -/
def putGrant (row : StoredGrant) (data : StaffData) : StaffData :=
  { data with grants := data.grants.put row }

/-- Writes a membership. -/
def putMembership (row : MembershipRow) (data : StaffData) : StaffData :=
  { data with memberships := data.memberships.put row }

/-- A principal after a change of its access. -/
def bumpRow (id : Uuid) (version : ℕ) (row : PrincipalRow) : PrincipalRow :=
  if row.id = id then { row with version := version } else row

@[simp] theorem bumpRow_id (id : Uuid) (version : ℕ) (row : PrincipalRow) :
    (bumpRow id version row).id = row.id := by
  unfold bumpRow
  split_ifs <;> rfl

/-- Writes the version of a principal. -/
def bumpPrincipal (id : Uuid) (version : ℕ) (data : StaffData) : StaffData :=
  { data with principals := data.principals.update (bumpRow id version) (bumpRow_id id version) }

/-! ## Locking out -/

/-- A passkey that is revoked. -/
def revokedPasskey (now : Instant) (row : PasskeyRow) : PasskeyRow :=
  { row with revokedAt := some now }

/-- Revokes the passkeys of a principal. -/
def revokePasskeys (principalId : Uuid) (now : Instant) : Statements (List Uuid) :=
  updatingRows passkeyTable Row.passkey (activePasskeyOf principalId) (revokedPasskey now)
    (fun _ => rfl)

/-- The invitations of a principal without an outcome. -/
def pendingInvitationOf (principalId : Uuid) (row : InvitationRow) : Bool :=
  row.principalId = principalId && row.isPending

/-- An invitation that is revoked. -/
def revokedInvitation (now : Instant) (row : InvitationRow) : InvitationRow :=
  { row with revokedAt := some now }

/-- **`revokePending`**, of both kinds of staff. -/
def revokePending (principalId : Uuid) (now : Instant) : Statements (List Uuid) :=
  updatingRows invitationTable Row.invitation (pendingInvitationOf principalId)
    (revokedInvitation now) (fun _ => rfl)

/-- **`lockOutStaff`**: ends every way a principal could still get in. -/
def lockOutStaff (principalId : Uuid) (now : Instant) : Statements Unit := do
  let _ ← revokeAllSessions principalId now
  let _ ← revokePasskeys principalId now
  let _ ← revokePending principalId now
  writing (journalEvent principalId .lockedOut)

/-- **`insertStaffInvitation`**: neither its token nor its id is taken. -/
def insertStaffInvitation (row : InvitationRow) : Statements Unit := do
  claiming .invitationToken row.tokenHash
    (fun data => data.invitations.rows.any (fun other => other.tokenHash = row.tokenHash))
  writing (journalEvent row.principalId (.issued row.id))
  inserting invitationTable Row.invitation row

/-! ## Grants -/

/-- **A call of `grantStaffCapability`**, its input as the schema leaves it. -/
structure GrantCall where
  session : Session
  input : GrantInput
  grantId : Uuid
  now : Instant
  clocks : ℕ → ℕ → Instant

/-- When the granted access ends. -/
def GrantCall.expiresAt (call : GrantCall) : Option Instant :=
  call.input.scope.expiresAt.bind (fun text => IsoInstant.datetime text.toList)

/-- **`grantStaffCapability`.** -/
def grantStaffCapability (call : GrantCall) : Statements Outcome := do
  Prog.demand (unexpired call.expiresAt call.now = true)
  authority call.session call.input.scope call.input.capability true (call.clocks 0)
  demandActiveStaff call.input.principalId
  lockStaff
  authority call.session call.input.scope call.input.capability true (call.clocks 1)
  demandActiveStaff call.input.principalId
  inserting grantTable Row.grant (call.input.row call.grantId ⟨.staff, call.session.account.id⟩)
  let _ ← revokeAllSessions call.input.principalId call.now
  pure .granted

/-- **A call of `revokeStaffGrant`.** -/
structure RevokeCall where
  session : Session
  input : RevokeInput
  now : Instant
  clocks : ℕ → ℕ → Instant
  checkedAt : Uuid → Instant

/-- Checks the authority over each of some capabilities. -/
def authorities (session : Session) (scope : Scope) (clocks : ℕ → ℕ → Instant) :
    List Capability → Statements Unit
  | [] => pure ()
  | capability :: rest => do
    authority session scope capability false (clocks rest.length)
    authorities session scope clocks rest

theorem readsOnly_authorities (session : Session) (scope : Scope) (clocks : ℕ → ℕ → Instant)
    (capabilities : List Capability) : ReadsOnly (authorities session scope clocks capabilities) := by
  induction capabilities with
  | nil => trivial
  | cons capability rest ih => exact (readsOnly_authority _ _ _ _ _).bind fun _ _ => ih

/-- **`revokeStaffGrant`.** -/
def revokeStaffGrant (call : RevokeCall) : Statements Outcome := do
  let data ← reading
  let existing ← Prog.required (data.grants.get? call.input.grantId)
  let principalId ← Prog.required existing.principalId
  authorities call.session existing.scope (fun n => call.clocks (2 * n)) existing.granted
  lockStaff
  authorities call.session existing.scope (fun n => call.clocks (2 * n + 1)) existing.granted
  let data ← locking (.grant call.input.grantId) .update
  let grant ← Prog.required ((data.grants.get? call.input.grantId).filter
    (fun grant => grant.revokedAt.isNone && grant.version = call.input.expectedRevision))
  writing (putGrant (grant.revoked call.now))
  ensureUsableManager call.checkedAt
  let _ ← revokeAllSessions principalId call.now
  pure (.revoked call.input.grantId call.checkedAt)

/-! ## Offboarding and absences -/

/-- The grants of a principal that are not revoked. -/
def openGrantOf (principalId : Uuid) (row : StoredGrant) : Bool :=
  row.principalId = some principalId && row.revokedAt.isNone

/-- **A call of `offboardStaff`.** -/
structure OffboardCall where
  session : Session
  principalId : Uuid
  expectedRevision : ℕ
  now : Instant
  clocks : ℕ → ℕ → Instant
  checkedAt : Uuid → Instant

/-- **`offboardStaff`.** -/
def offboardStaff (call : OffboardCall) : Statements Outcome := do
  offboardingOperator call.session (call.clocks 0)
  Prog.demand (call.principalId ≠ call.session.account.id)
  lockStaff
  offboardingOperator call.session (call.clocks 1)
  let data ← reading
  let person ← Prog.required ((data.principals.get? call.principalId).filter
    (fun person => person.kind = .staff))
  Prog.demand (person.version = call.expectedRevision)
  let data ← locking (.membership call.principalId) .update
  let membership ← Prog.required ((data.memberships.get? call.principalId).filter
    (fun membership => membership.active))
  writing (putMembership { membership with active := false, version := membership.version + 1 })
  let _ ← locking (.principal call.principalId) .update
  writing (bumpPrincipal call.principalId (person.version + 1))
  let _ ← updatingRows grantTable Row.grant (openGrantOf call.principalId)
    (fun grant => grant.revoked call.now) (fun _ => rfl)
  lockOutStaff call.principalId call.now
  ensureUsableManager call.checkedAt
  pure (.offboarded call.principalId call.checkedAt)

/-- What is asked about an absence: to schedule one, or to end it. -/
inductive AbsenceAction where
  | schedule
  | return_

/-- **A call of `changeStaffAbsence`.** -/
structure AbsenceCall where
  session : Session
  principalId : Uuid
  expectedRevision : ℕ
  action : AbsenceAction
  startsAt : Option Instant
  reviewAt : Option Instant
  now : Instant
  clocks : ℕ → ℕ → Instant
  checkedAt : Uuid → Instant

/-- **The absence a membership has next**: its start and its review, or neither. -/
def AbsenceCall.next (call : AbsenceCall) (membership : MembershipRow) :
    Option (Option (Instant × Instant)) :=
  match call.action with
  | .schedule =>
    let start := call.startsAt.getD call.now
    call.reviewAt.bind (fun review =>
      if membership.absenceFrom.isNone ∧ call.now ≤ start ∧ start < review then
        some (some (start, review))
      else none)
  | .return_ =>
    if membership.absenceFrom.isSome ∧ call.startsAt.isNone ∧ call.reviewAt.isNone then some none
    else none

/-- **`changeStaffAbsence`.** -/
def changeStaffAbsence (call : AbsenceCall) : Statements Outcome := do
  offboardingOperator call.session (call.clocks 0)
  lockStaff
  offboardingOperator call.session (call.clocks 1)
  let data ← locking (.membership call.principalId) .update
  let membership ← Prog.required ((data.memberships.get? call.principalId).filter
    (fun membership => membership.version = call.expectedRevision && membership.active))
  let absence ← Prog.required (call.next membership)
  writing (putMembership { membership with
    absenceFrom := absence.map Prod.fst
    absenceReviewAt := absence.map Prod.snd
    version := membership.version + 1 })
  ensureUsableManager call.checkedAt
  pure .absenceChanged

/-! ## Recovery -/

/-- `invitationTtlMs`. -/
def invitationTtlMs : ℤ := 72 * hour

/-- **A call of `issueStaffRecovery`.** -/
structure RecoveryCall where
  session : Session
  principalId : Uuid
  /-- The note about the check of the identity, trimmed. -/
  verificationNote : String
  invitationId : Uuid
  tokenHash : String
  now : Instant

/-- **`issueStaffRecovery`**: it checks its actor before its transaction only. -/
def issueStaffRecovery (call : RecoveryCall) : Statements Outcome := do
  assertMayGrant call.session call.now
  Prog.demand (call.principalId ≠ call.session.account.id)
  Prog.demand (Tx.textWithin 10 500 call.verificationNote = true)
  let _ ← locking (.principal call.principalId) .update
  let data ← locking (.membership call.principalId) .update
  let membership ← Prog.required (data.memberships.get? call.principalId)
  let target ← Prog.required ((data.principals.get? call.principalId).filter
    (fun target => target.kind = .staff && target.status = .active))
  Prog.demand (membership.active = true)
  lockOutStaff target.id call.now
  insertStaffInvitation {
    id := call.invitationId
    kind := .staffRecovery
    principalId := target.id
    email := target.email
    tokenHash := call.tokenHash
    roles := []
    invitedById := some call.session.account.id
    expiresAt := call.now + invitationTtlMs
    acceptedAt := none
    declinedAt := none
    revokedAt := none }
  pure (.recovered call.session.account.id call.principalId)

end StaffAccess
