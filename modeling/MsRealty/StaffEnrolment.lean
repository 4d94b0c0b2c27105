import MsRealty.StaffCommands

/-!
# Enrolment of staff

How staff get in: the break-glass bootstrap of a manager, the redemption of an
invitation, and the ceremonies by which a passkey is registered or answers
(`src/server/auth/invitations.ts`, `src/server/auth/passkeys.ts`,
`src/server/auth/sessions.ts`).

A ceremony consumes its challenge in a transaction of its own; what it verified is
carried to the transaction that follows (`Ceremony`), which one transaction takes.
What the authenticator answers is a parameter, and tokens are given by their digests.
-/

namespace StaffAccess

open RowLocks Authz Access Sessions

/-! ## Sessions -/

/-- **Inserts a session**: its token is new, and so is its id. -/
def insertingSession (row : SessionRow) : Statements Unit := do
  claiming .sessionToken row.tokenHash
    (fun data => data.sessions.rows.any (fun other => other.tokenHash = row.tokenHash))
  inserting sessionTable Row.session row

/-- What is drawn for a new session. -/
structure NewSession where
  id : Uuid
  tokenHash : String

/-- **`createSession`.** -/
def createSession (account : AccountRef) (new : NewSession) (now : Instant) : Statements Unit :=
  insertingSession ⟨new.id, new.tokenHash, account.kind, account.id, now,
    now + (sessionPolicy account.kind).absoluteMs, now, some now, none⟩

/-- `revokeSession`. -/
def revokeSession (tokenHash : String) (now : Instant) : Statements (List Uuid) :=
  updatingRows sessionTable Row.session
    (fun row => row.tokenHash = tokenHash && row.revokedAt.isNone) (revokedSession now)
    (revokedSession_id now)

/-- A session that is seen. -/
def touchedSession (now : Instant) (row : SessionRow) : SessionRow := { row with lastSeenAt := now }

/-- **`resolveSession`**, of a session whose account is active: it is touched, when it was
not seen for a while. -/
def readSession (tokenHash : String) (now : Instant) : Statements SessionRow := do
  let data ← reading
  let row ← Prog.required (findLiveRow (fun digest => digest) data.sessions tokenHash now)
  let data ← reading
  Prog.demand (accountIsActive data.accounts row.account = true)
  if touchIntervalMs ≤ now - row.lastSeenAt then do
    let _ ← updatingRows sessionTable Row.session (fun other => other.id = row.id)
      (touchedSession now) (fun _ => rfl)
    pure row
  else pure row

/-- **`rotateSession`**: the session is replaced, and keeps its absolute end. -/
def rotateSession (tokenHash : String) (new : NewSession) (now : Instant) (reverified : Bool) :
    Statements AccountRef := do
  let data ← reading
  let row ← Prog.required (findLiveRow (fun digest => digest) data.sessions tokenHash now)
  let data ← reading
  Prog.demand (accountIsActive data.accounts row.account = true)
  let revoked ← updatingRows sessionTable Row.session
    (fun other => other.id = row.id && other.revokedAt.isNone) (revokedSession now)
    (revokedSession_id now)
  Prog.demand (revoked.length = 1)
  insertingSession ⟨new.id, new.tokenHash, row.principalKind, row.principalId, now, row.expiresAt,
    now, if reverified then some now else row.reverifiedAt, none⟩
  pure row.account

/-! ## The bootstrap of a manager -/

/-- Whether a row makes its holder a manager everywhere, as the query asks it. -/
def managerGrant (id : Uuid) (now : Instant) (row : StoredGrant) : Bool :=
  row.principalId = some id && (row.role = some .manager || row.capability = some .accessGrant)
    && row.recordId.isNone && liveGrant now row.toGrantRow

/-- **The members with a manager grant and a passkey**, once for each of both. -/
def StaffData.managers (data : StaffData) (now : Instant) : List Uuid :=
  data.principals.rows.flatMap (fun row =>
    if row.status = .active ∧ (data.memberships.get? row.id).any (fun m => m.active) = true then
      (data.grants.rows.filter (managerGrant row.id now)).flatMap (fun _ =>
        (data.activePasskeys row.id).map (fun _ => row.id))
    else [])

/-- Whether one of some members has a passkey and may grant. -/
def someUsable (now : Instant) : List Uuid → Statements Bool
  | [] => pure false
  | id :: rest => do
    let passkeys ← countActivePasskeys id
    if staffPasskeyMinimum ≤ passkeys then do
      let allowed ← staffCan id .accessGrant now
      if allowed = true then pure true else someUsable now rest
    else someUsable now rest

/-- **`hasUsableManager`.** -/
def hasUsableManager (now : Instant) : Statements Bool := do
  let data ← reading
  someUsable now (data.managers now)

/-- What is drawn for a new principal, and its party. -/
structure NewPrincipal where
  id : Uuid
  partyId : Uuid

/-- The principal of staff with an address. -/
def StaffData.staffByEmail (data : StaffData) (email : String) : Option PrincipalRow :=
  data.principals.rows.find? (fun row => row.kind = .staff && lowerCase row.email = email)

/-- **`ensurePrincipal`**, of staff: it is created if it is missing. -/
def ensurePrincipal (email : String) (new : NewPrincipal) : Statements Uuid := do
  let data ← reading
  match data.staffByEmail email with
  | some row => pure row.id
  | none => do
    claiming .principalEmail email (fun data => (data.staffByEmail email).isSome)
    inserting principalTable Row.principal ⟨⟨new.id, .staff, new.partyId, .active⟩, email, 1⟩
    pure new.id

/-- `bootstrapTtlMs`. -/
def bootstrapTtlMs : ℤ := hour

/-- **A call of `bootstrapManager`**, with an address in lower case. -/
structure BootstrapCall where
  email : String
  lower : lowerCase email = email
  breakGlass : Bool
  principal : NewPrincipal
  invitationId : Uuid
  tokenHash : String
  now : Instant

/-- The kind of link it gives: a recovery for a current member. -/
def StaffData.bootstrapKind (data : StaffData) (id : Uuid) : StaffInvitationKind :=
  if (data.memberships.get? id).any (fun m => m.active) = true then .staffRecovery
  else .staffEnrolment

/-- The invitation of a bootstrap: only an enrolment has roles. -/
def BootstrapCall.invitation (call : BootstrapCall) (id : Uuid) (kind : StaffInvitationKind) :
    InvitationRow where
  id := call.invitationId
  kind := kind
  principalId := id
  email := call.email
  tokenHash := call.tokenHash
  roles := if kind = .staffEnrolment then [.manager] else []
  invitedById := none
  expiresAt := call.now + bootstrapTtlMs
  acceptedAt := none
  declinedAt := none
  revokedAt := none

/-- Without a break of the glass, no usable manager may be left. -/
def demandNoManager (call : BootstrapCall) : Statements Unit :=
  if call.breakGlass = true then pure ()
  else do
    let usable ← hasUsableManager call.now
    Prog.demand (usable = false)

/-- **`bootstrapManager`.** -/
def bootstrapManager (call : BootstrapCall) : Statements Outcome := do
  demandNoManager call
  let id ← ensurePrincipal call.email call.principal
  let _ ← locking (.principal id) .update
  let data ← reading
  let kind := data.bootstrapKind id
  lockOutStaff id call.now
  insertStaffInvitation (call.invitation id kind)
  pure (.bootstrapped kind)

/-! ## The redemption of an invitation -/

/-- `staffRoles`. -/
def staffRoles : List Role :=
  [.assignedBroker, .coordinator, .contentEditor, .translationReviewer, .publishingApprover,
    .manager]

/-- **A call of `acceptStaffInvitation`.** -/
structure AcceptCall where
  tokenHash : String
  currentTokenHash : Option String
  now : Instant
  session : NewSession
  /-- The ids of the grants of roles. -/
  grantIds : Role → Uuid

/-- An invitation that can be redeemed with a token at an instant. -/
def redeemable (tokenHash : String) (now : Instant) (row : InvitationRow) : Bool :=
  row.tokenHash = tokenHash && row.isPending && now < row.expiresAt

/-- An invitation that is accepted. -/
def acceptedInvitation (now : Instant) (row : InvitationRow) : InvitationRow :=
  { row with acceptedAt := some now }

/-- **A browser that is signed in** redeems invitations of its own account only. -/
def demandSameAccount (call : AcceptCall) : Statements Unit :=
  match call.currentTokenHash with
  | none => pure ()
  | some current => do
    let data ← reading
    match findLiveRow (fun digest => digest) data.sessions current call.now with
    | none => pure ()
    | some row => do
      let data ← reading
      Prog.demand (row.principalKind = .staff
        ∧ (data.invitations.rows.find? (fun other => other.tokenHash = call.tokenHash)).any
          (fun invitation => invitation.principalId = row.principalId) = true)

/-- **`inviterStillAuthorized`**, about no record. -/
def inviterStillAuthorized (row : InvitationRow) (now : Instant) : Statements Unit :=
  match row.invitedById with
  | none => pure ()
  | some id => do
    let passkeys ← countActivePasskeys id
    Prog.demand (staffPasskeyMinimum ≤ passkeys)
    let allowed ← staffCan id .accessGrant now
    Prog.demand (allowed = true)

/-- A grant that is revoked by a redemption: its version stays. -/
def supersededGrant (now : Instant) (row : StoredGrant) : StoredGrant :=
  { row with revokedAt := some now }

/-- The membership of a new member, or of a former one that comes back. -/
def StaffData.openedMembership (data : StaffData) (principalId : Uuid) : MembershipRow :=
  match data.memberships.get? principalId with
  | some row => { row with active := true }
  | none => ⟨⟨principalId, true⟩, 1, none, none⟩

theorem openedMembership_principalId (data : StaffData) (id : Uuid) :
    (data.openedMembership id).principalId = id := by
  unfold StaffData.openedMembership
  split
  · next row hrow => exact (Table.get?_eq_some.mp hrow).2
  · rfl

theorem openedMembership_active (data : StaffData) (id : Uuid) :
    (data.openedMembership id).active = true := by
  unfold StaffData.openedMembership
  split <;> rfl

/-- Opens a membership: a former one is opened again. -/
def openMembership (principalId : Uuid) (data : StaffData) : StaffData :=
  putMembership (data.openedMembership principalId) data

/-- The grant of an invited role. -/
def roleGrant (id principalId : Uuid) (role : Role) (invitation : InvitationRow) : StoredGrant where
  principalId := some principalId
  serviceName := none
  role := some role
  capability := none
  recordType := none
  recordId := none
  locales := none
  expiresAt := none
  revokedAt := none
  id := id
  version := 1
  grantedById := invitation.invitedById
  reason := "invitation " ++ invitation.id
  canonical := Option.map_none canonicalUuid

/-- Whether a role is held without a record. -/
def StaffData.holdsRole (data : StaffData) (principalId : Uuid) (role : Role) : Bool :=
  data.grants.rows.any (fun row => row.principalId = some principalId && row.role = some role
    && row.recordId.isNone && row.revokedAt.isNone)

/-- Grants a role, unless it is held. -/
def grantRole (call : AcceptCall) (invitation : InvitationRow) (role : Role) :
    Statements Unit := do
  let data ← reading
  if data.holdsRole invitation.principalId role = true then pure ()
  else inserting grantTable Row.grant (roleGrant (call.grantIds role) invitation.principalId role
    invitation)

/-- Grants roles. -/
def grantRoles (call : AcceptCall) (invitation : InvitationRow) : List Role → Statements Unit
  | [] => pure ()
  | role :: rest => do
    grantRole call invitation role
    grantRoles call invitation rest

/-- **What redeeming an enrolment does**: the grants and passkeys there were are revoked,
the membership opens, and the invited roles are granted. -/
def enrol (call : AcceptCall) (invitation : InvitationRow) : Statements Unit := do
  let _ ← updatingRows grantTable Row.grant (openGrantOf invitation.principalId)
    (supersededGrant call.now) (fun _ => rfl)
  let _ ← revokePasskeys invitation.principalId call.now
  let _ ← locking (.membership invitation.principalId) .update
  writing (openMembership invitation.principalId)
  grantRoles call invitation (invitation.roles.filter (fun role => role ∈ staffRoles))

/-- **What redeeming a recovery demands**: the member still is one. -/
def recover (invitation : InvitationRow) : Statements Unit := do
  let data ← reading
  Prog.demand ((data.memberships.get? invitation.principalId).any (fun m => m.active) = true)

/-- What redeeming an invitation does, by its kind. -/
def redeem (call : AcceptCall) (invitation : InvitationRow) : Statements Unit :=
  match invitation.kind with
  | .staffEnrolment => enrol call invitation
  | .staffRecovery => recover invitation

/-- Ends the session the browser had. -/
def endCurrent (currentTokenHash : Option String) (now : Instant) : Statements Unit :=
  match currentTokenHash with
  | none => pure ()
  | some current => do
    let _ ← revokeSession current now
    pure ()

/-- **`acceptStaffInvitation`.** -/
def acceptStaffInvitation (call : AcceptCall) : Statements Outcome := do
  demandSameAccount call
  let ids ← updatingRows invitationTable Row.invitation (redeemable call.tokenHash call.now)
    (acceptedInvitation call.now) (fun _ => rfl)
  let data ← reading
  let invitation ← Prog.required (ids.head?.bind data.invitations.get?)
  let data ← locking (.principal invitation.principalId) .update
  Prog.demand ((data.principals.get? invitation.principalId).any (fun row => row.kind = .staff
    && row.status = .active && lowerCase row.email = lowerCase invitation.email) = true)
  writing (journalEvent invitation.principalId (.accepted invitation.id))
  inviterStillAuthorized invitation call.now
  redeem call invitation
  let _ ← revokeAllSessions invitation.principalId call.now
  endCurrent call.currentTokenHash call.now
  createSession ⟨.staff, invitation.principalId⟩ call.session call.now
  pure .accepted

/-! ## Challenges -/

/-- `challengeTtlMs`. -/
def challengeTtlMs : ℤ := 5 * minute

/-- `enrolmentWindowMs`. -/
def enrolmentWindowMs : ℤ := 15 * minute

/-- **`storeChallenge`.** -/
def storeChallenge (id : Uuid) (challenge : String) (purpose : ChallengePurpose)
    (principalId : Option Uuid) (now : Instant) : Statements Unit := do
  claiming .challenge challenge
    (fun data => data.challenges.rows.any (fun other => other.challenge = challenge))
  inserting challengeTable Row.challenge
    ⟨id, challenge, purpose, principalId, now + challengeTtlMs, none⟩

/-- A challenge that can be consumed at an instant. -/
def consumable (challenge : String) (purpose : ChallengePurpose) (principalId : Option Uuid)
    (now : Instant) (row : ChallengeRow) : Bool :=
  row.challenge = challenge && row.purpose = purpose && row.consumedAt.isNone
    && now < row.expiresAt && principalId.all (fun id => row.principalId = some id)

/-- A challenge that is consumed. -/
def consumedChallenge (now : Instant) (row : ChallengeRow) : ChallengeRow :=
  { row with consumedAt := some now }

/-- **`consumeChallenge`**: it answers with the challenges it consumed. -/
def consumeChallenge (challenge : String) (purpose : ChallengePurpose) (principalId : Option Uuid)
    (now : Instant) : Statements (List Uuid) :=
  updatingRows challengeTable Row.challenge (consumable challenge purpose principalId now)
    (consumedChallenge now) (fun _ => rfl)

/-- **A ceremony goes on** after one challenge was consumed and the answer verified;
else the call fails, and the challenge stays consumed. -/
def beginCeremony (verified : Bool) (ids : List Uuid) (ceremony : Uuid → Ceremony) :
    Statements Unit :=
  match ids with
  | [id] => if verified = true then inserting ceremonyTable Row.ceremony (ceremony id) else pure ()
  | _ => pure ()

/-- A ceremony that is taken up. -/
def takenCeremony (row : Ceremony) : Ceremony := { row with taken := true }

/-- **Takes up a ceremony**, which no other transaction has. -/
def takeCeremony (ceremonyId : Uuid) : Statements Ceremony := do
  let data ← locking (.ceremony ceremonyId) .update
  let ceremony ← Prog.required ((data.ceremonies.get? ceremonyId).filter (fun row => !row.taken))
  writing (changeRows ceremonyTable (fun _ => true) takenCeremony (fun _ => rfl) [ceremonyId])
  pure ceremony

/-- Records that the ceremony of a challenge succeeded. -/
def finishCeremony (challengeId : Uuid) (data : StaffData) : StaffData :=
  { data with finished := challengeId :: data.finished }

/-! ## Registration -/

/-- **`assertMayRegister`**: the session is fresh, or its holder finishes enrolling. -/
def assertMayRegister (session : Session) (now : Instant) : Statements Unit := do
  let row ← requireLiveSession session now
  if isFresh row now (sessionPolicy row.principalKind).stepUpMs = true then pure ()
  else do
    Prog.demand (session.account.kind = .staff ∧ isFresh row now enrolmentWindowMs = true)
    let passkeys ← countActivePasskeys session.account.id
    Prog.demand (passkeys < staffPasskeyMinimum)

/-- **`startPasskeyRegistration`.** -/
def startPasskeyRegistration (session : Session) (id : Uuid) (challenge : String) (now : Instant) :
    Statements Outcome := do
  assertMayRegister session now
  let data ← reading
  Prog.demand ((data.principals.get? session.account.id).isSome = true)
  storeChallenge id challenge .registration (some session.account.id) now
  pure .stored

/-- **A call of `finishPasskeyRegistration`**, with what the authenticator answers. -/
structure RegistrationCall where
  ceremonyId : Uuid
  session : Session
  challenge : String
  expectedChallenge : String
  verified : Bool
  passkeyId : Uuid
  credentialId : String
  signCount : ℕ
  now : Instant

/-- **The first part of `finishPasskeyRegistration`**: the challenge is consumed. -/
def verifyRegistration (call : RegistrationCall) : Statements Outcome := do
  assertMayRegister call.session call.now
  Prog.demand (call.challenge = call.expectedChallenge)
  let ids ← consumeChallenge call.challenge .registration (some call.session.account.id) call.now
  beginCeremony call.verified ids (fun id =>
    ⟨call.ceremonyId, id, .registration, call.session.account.kind, call.session.account.id, none,
      false⟩)
  pure .consumed

/-- **The transaction of `finishPasskeyRegistration`**: the passkey is inserted. -/
def storePasskey (call : RegistrationCall) : Statements Outcome := do
  let ceremony ← takeCeremony call.ceremonyId
  Prog.demand (ceremony.purpose = .registration ∧ ceremony.principalId = call.session.account.id)
  let _ ← locking (.principal call.session.account.id) .update
  assertMayRegister call.session call.now
  claiming .credentialId call.credentialId
    (fun data => data.passkeys.rows.any (fun other => other.credentialId = call.credentialId))
  inserting passkeyTable Row.passkey
    ⟨call.passkeyId, call.session.account.id, call.credentialId, call.signCount, none⟩
  writing (finishCeremony ceremony.challengeId)
  pure .registered

/-! ## Authentication -/

/-- `startPasskeyAuthentication`. -/
def startPasskeyAuthentication (id : Uuid) (challenge : String) (now : Instant) :
    Statements Outcome := do
  storeChallenge id challenge .authentication none now
  pure .stored

/-- **A call of `finishPasskeyAuthentication`**, with what the authenticator answers. -/
structure AuthenticationCall where
  ceremonyId : Uuid
  context : PrincipalKind
  credentialId : String
  challenge : String
  expectedChallenge : String
  verified : Bool
  newCounter : ℕ
  currentTokenHash : Option String
  reauthenticate : Option Session
  session : NewSession
  now : Instant

/-- **The first part of `finishPasskeyAuthentication`**: the passkey is read, and the
challenge is consumed. -/
def verifyAuthentication (call : AuthenticationCall) : Statements Outcome := do
  let data ← reading
  let passkey ← Prog.required (data.passkeys.rows.find? (fun row =>
    row.credentialId = call.credentialId && row.isActive))
  Prog.demand ((data.principals.get? passkey.principalId).any (fun row =>
    row.kind = call.context && row.status = .active) = true)
  Prog.demand (call.reauthenticate.all (fun session =>
    session.account.kind = call.context && session.account.id = passkey.principalId) = true)
  Prog.demand (call.challenge = call.expectedChallenge)
  let ids ← consumeChallenge call.challenge .authentication none call.now
  beginCeremony call.verified ids (fun id => ⟨call.ceremonyId, id, .authentication, call.context,
    passkey.principalId, some (passkey.id, passkey.signCount), false⟩)
  pure .consumed

/-- A passkey that has answered. -/
def usedPasskey (newCounter : ℕ) (row : PasskeyRow) : PasskeyRow :=
  { row with signCount := newCounter }

/-- **The session of a step-up**: the one there was is replaced. -/
def reauthenticated (call : AuthenticationCall) (account : AccountRef) (session : Session) :
    Statements Unit := do
  let _ ← requireLiveSession session call.now
  let current ← Prog.required call.currentTokenHash
  let row ← readSession current call.now
  Prog.demand (row.id = session.id)
  let rotated ← rotateSession current call.session call.now true
  Prog.demand (rotated = account)

/-- **The session of a sign-in**: the one the browser had is ended. -/
def signedIn (call : AuthenticationCall) (account : AccountRef) : Statements Unit := do
  endCurrent call.currentTokenHash call.now
  createSession account call.session call.now

/-- The session that is issued. -/
def issueSession (call : AuthenticationCall) (account : AccountRef) : Statements Unit :=
  match call.reauthenticate with
  | some session => reauthenticated call account session
  | none => signedIn call account

/-- **The transaction of `finishPasskeyAuthentication`**: the passkey still is the one
that was read, and a session is issued. -/
def startSession (call : AuthenticationCall) : Statements Outcome := do
  let ceremony ← takeCeremony call.ceremonyId
  Prog.demand (ceremony.purpose = .authentication ∧ ceremony.context = call.context)
  let passkey ← Prog.required ceremony.passkey
  let data ← locking (.principal ceremony.principalId) .update
  Prog.demand ((data.principals.get? ceremony.principalId).any (fun row => row.status = .active)
    = true)
  let updated ← updatingRows passkeyTable Row.passkey
    (fun row => row.id = passkey.1 && row.signCount = passkey.2 && row.isActive)
    (usedPasskey call.newCounter) (fun _ => rfl)
  Prog.demand (updated ≠ [])
  issueSession call ⟨call.context, ceremony.principalId⟩
  writing (finishCeremony ceremony.challengeId)
  pure .authenticated

/-- `resolveSession`, for a request of its own. -/
def touchSession (tokenHash : String) (now : Instant) : Statements Outcome := do
  let _ ← readSession tokenHash now
  pure .stored

/-! ## What only reads -/

theorem readsOnly_someUsable (now : Instant) (ids : List Uuid) : ReadsOnly (someUsable now ids) := by
  induction ids with
  | nil => trivial
  | cons id rest ih =>
    intro d
    show OnlyWrites _ _ (if _ then _ else _)
    split_ifs
    · refine (readsOnly_staffCan _ _ _).bind fun allowed _ => ?_
      split_ifs
      · trivial
      · exact ih
    · exact ih

theorem readsOnly_demandNoManager (call : BootstrapCall) : ReadsOnly (demandNoManager call) := by
  unfold demandNoManager
  split_ifs
  · trivial
  · exact OnlyWrites.bind (P := fun _ => True) (fun _ => readsOnly_someUsable _ _)
      fun _ _ => OnlyWrites.demand_last trivial

theorem readsOnly_demandSameAccount (call : AcceptCall) : ReadsOnly (demandSameAccount call) := by
  unfold demandSameAccount
  split
  · trivial
  · next current _ =>
    intro (d : StaffData)
    show OnlyWrites _ _ (match findLiveRow (fun digest => digest) d.sessions current call.now with
      | none => pure ()
      | some row => _)
    split
    · trivial
    · exact fun _ => OnlyWrites.demand_last trivial

theorem readsOnly_inviterStillAuthorized (row : InvitationRow) (now : Instant) :
    ReadsOnly (inviterStillAuthorized row now) := by
  unfold inviterStillAuthorized
  split
  · trivial
  · refine fun _ => OnlyWrites.demand fun _ => (readsOnly_staffCan _ _ _).bind fun _ _ => ?_
    exact OnlyWrites.demand_last trivial

theorem readsOnly_recover (invitation : InvitationRow) : ReadsOnly (recover invitation) :=
  fun _ => OnlyWrites.demand_last trivial

theorem readsOnly_assertMayRegister (session : Session) (now : Instant) :
    ReadsOnly (assertMayRegister session now) := by
  refine (readsOnly_requireLiveSession session now).bind fun row _ => ?_
  split_ifs
  · trivial
  · exact OnlyWrites.demand fun _ => fun _ => OnlyWrites.demand_last trivial

end StaffAccess
