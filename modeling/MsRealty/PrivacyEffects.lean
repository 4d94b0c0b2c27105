import MsRealty.Authz
import MsRealty.ExternalAction
import MsRealty.SafetyLedger
import MsRealty.Tightening

/-!
# The effects of privacy decisions

What a decision of the safety ledger does to the application
(`applyPrivacySafetyEffect` in `src/server/privacy/safety-ledger.ts`): streams
are withdrawn, purposes restricted, the clients' credentials revoked and the
optional copies of the party's data erased. Every statement is an update of the
rows that satisfy a condition.

The tables have the columns these statements and a quarantine
(`src/server/recovery/quarantine.ts`) read or write.
-/

namespace Privacy

/-! ## Rows -/

/-- What a stream is for. -/
inductive SubscriptionPurpose where
  | serviceUpdates
  | searchAlerts
  | marketing
  deriving DecidableEq

/-- The states of a stream. -/
inductive SubscriptionState where
  | pendingVerification
  | active
  | paused
  | withdrawn
  deriving DecidableEq

/-- The purpose of the streams an optional purpose is about. -/
def OptionalPurpose.toSubscription : OptionalPurpose → SubscriptionPurpose
  | .searchAlerts => .searchAlerts
  | .marketing => .marketing

/-- **A stream of messages to a party.** -/
structure SubscriptionRow where
  id : Uuid
  partyId : Uuid
  purpose : SubscriptionPurpose
  state : SubscriptionState
  policyVersion : String
  criteria : Option JsonValue
  criteriaSummary : Option String
  version : ℕ
  updatedAt : Instant

/-- A recorded withdrawal of consent. -/
structure ConsentEvent where
  subscriptionId : Uuid
  policyVersion : String
  source : String
  actor : Actor

/-- A purpose the data of a party is not processed for. -/
structure ProcessingRestriction where
  partyId : Uuid
  purpose : String
  decisionSequence : ℕ

/-- **An account.** -/
structure PrincipalRow where
  id : Uuid
  partyId : Uuid
  kind : PrincipalKind
  status : PrincipalStatus
  email : String
  displayName : String
  version : ℕ
  updatedAt : Instant

/-- A session. -/
structure SessionRow where
  principalId : Uuid
  principalKind : PrincipalKind
  revokedAt : Option Instant

/-- A sign-in link. -/
structure EmailSignInToken where
  id : Uuid
  principalId : Option Uuid
  principalKind : PrincipalKind
  consumedAt : Option Instant
  revokedAt : Option Instant

/-- The kinds of invitation. -/
inductive InvitationKind where
  | staffEnrolment
  | staffRecovery
  | clientAccess
  deriving DecidableEq

/-- An invitation. -/
structure InvitationRow where
  principalId : Uuid
  kind : InvitationKind
  acceptedAt : Option Instant
  declinedAt : Option Instant
  revokedAt : Option Instant

/-- A passkey. -/
structure PasskeyRow where
  principalId : Uuid
  revokedAt : Option Instant

/-- A grant. -/
structure GrantRow where
  principalId : Option Uuid
  revokedAt : Option Instant
  version : ℕ
  updatedAt : Instant

/-- The states of an export. -/
inductive PrivacyExportState where
  | draft
  | issued
  | revoked
  deriving DecidableEq

/-- An export of a party's data. -/
structure PrivacyExportRow where
  partyId : Uuid
  state : PrivacyExportState
  revokedAt : Option Instant
  version : ℕ
  updatedAt : Instant

/-- **A party.** -/
structure PartyRow where
  id : Uuid
  contactPreferences : JsonValue
  matchingAliases : List String
  version : ℕ
  updatedAt : Instant

/-- Whether a contact is verified. -/
inductive ContactVerification where
  | unverified
  | pending
  | verified
  | failed

/-- A contact of a party. -/
structure ContactMethodRow where
  id : Uuid
  partyId : Uuid
  value : String
  normalizedValue : String
  verification : ContactVerification
  verifiedAt : Option Instant
  lastFailureAt : Option Instant
  version : ℕ
  updatedAt : Instant

/-- How far a decision has been carried to some boundary. -/
structure PropagationEvent where
  decisionSequence : ℕ
  boundary : String
  state : String
  evidence : JsonValue

/-- A challenge of a passkey ceremony. -/
structure WebauthnChallenge where
  consumedAt : Option Instant

/-- How much a quarantine has invalidated. -/
structure Invalidated where
  sessions : ℕ
  emailLinks : ℕ
  invitations : ℕ
  challenges : ℕ

/-- **Whether the runtime may serve.** -/
inductive RecoveryControl where
  | normal
  | quarantined (restoreId : Uuid) (snapshotDigest : String) (quarantinedAt : Instant)
      (invalidated : Invalidated)

/-- The audit of a quarantine. -/
structure QuarantineAudit where
  restoreId : Uuid
  snapshotDigest : String
  invalidated : Invalidated
  recordedAt : Instant

/-- **A database**: its name, and the tables a decision, a quarantine or a tail
reads or writes. -/
structure Db where
  name : String
  decisions : List SafetyRow
  propagation : List PropagationEvent
  restrictions : List ProcessingRestriction
  parties : List PartyRow
  contactMethods : List ContactMethodRow
  principals : List PrincipalRow
  subscriptions : List SubscriptionRow
  consentEvents : List ConsentEvent
  sessions : List SessionRow
  emailSignInTokens : List EmailSignInToken
  externalActions : List ExternalAction
  invitations : List InvitationRow
  passkeys : List PasskeyRow
  grants : List GrantRow
  privacyExports : List PrivacyExportRow
  webauthnChallenges : List WebauthnChallenge
  recoveryControl : Option RecoveryControl
  audit : List QuarantineAudit

/-! ## Statements -/

/-- The streams a decision withdraws. -/
def PrivacySafetyEffect.selects : PrivacySafetyEffect → SubscriptionRow → Bool
  | .withdrawal effect, row => row.partyId = effect.partyId && row.id ∈ effect.subscriptionIds
  | .restriction effect, row => row.partyId = effect.partyId
      && row.purpose ∈ effect.purposes.map OptionalPurpose.toSubscription

/-- A withdrawn stream. -/
def SubscriptionRow.withdraw (now : Instant) (row : SubscriptionRow) : SubscriptionRow :=
  { row with state := .withdrawn, version := row.version + 1, updatedAt := now }

/-- Withdraws the streams of a decision that are not withdrawn, and records it. -/
def Db.withdraw (db : Db) (effect : PrivacySafetyEffect) (sequence : ℕ) (actor : Actor)
    (now : Instant) : Db :=
  let selected := fun row : SubscriptionRow => effect.selects row && row.state ≠ .withdrawn
  { db with
    subscriptions := updateWhere selected (SubscriptionRow.withdraw now) db.subscriptions
    consentEvents := db.consentEvents ++ (db.subscriptions.filter selected).map (fun row =>
      { subscriptionId := row.id, policyVersion := row.policyVersion,
        source := "privacy_safety:" ++ toString sequence, actor := actor }) }

/-- How many streams that withdraws. -/
def Db.withdrawn (db : Db) (effect : PrivacySafetyEffect) : ℕ :=
  (db.subscriptions.filter (fun row => effect.selects row && row.state ≠ .withdrawn)).length

/-- The names of the purposes a restriction covers. -/
def Restriction.purposeNames (effect : Restriction) : List String :=
  effect.purposes.map OptionalPurpose.name ++ ["client_access"]

/-- Inserts a restriction, unless the party has it. -/
def insertRestriction (rows : List ProcessingRestriction) (row : ProcessingRestriction) :
    List ProcessingRestriction :=
  if rows.any (fun r => r.partyId = row.partyId && r.purpose = row.purpose) then rows
  else rows ++ [row]

/-- Records the restrictions of a decision. -/
def Db.restrict (db : Db) (effect : Restriction) (sequence : ℕ) : Db :=
  { db with
    restrictions := effect.purposeNames.foldl (fun rows purpose =>
      insertRestriction rows ⟨effect.partyId, purpose, sequence⟩) db.restrictions }

/-- **The client identities of a decision**: those of its ids that are clients
of its party. -/
def Restriction.clients (effect : Restriction) (principals : List PrincipalRow) : List Uuid :=
  if effect.clientIds = [] then []
  else (principals.filter (fun row => row.id ∈ effect.clientIds
    && row.partyId = effect.partyId && row.kind = .client)).map PrincipalRow.id

/-- The sign-in links of some clients. -/
def EmailSignInToken.isOf (ids : List Uuid) (token : EmailSignInToken) : Bool :=
  token.principalId.any (fun id => id ∈ ids) && token.principalKind = .client

/-- Whether an action sends one of some sign-in links. -/
def sendsLink (credentials : List Uuid) (action : ExternalAction) : Bool :=
  credentials.any (fun id => action.effectKey = "email_link:" ++ id)
    || action.subjectType = some "email_sign_in_token"
      && action.subjectId.any (fun id => id ∈ credentials)

/-- Whether an email with one of some sign-in links is queued. -/
def isQueuedLink (credentials : List Uuid) (action : ExternalAction) : Bool :=
  action.kind = .emailSend && action.state = .queued && sendsLink credentials action

/-- Cancels a queued email. -/
def cancelLink (now : Instant) (action : ExternalAction) : ExternalAction :=
  { action with
    state := .cancelled, secretPayload := none,
    lastErrorCode := some "auth_email_link_ineligible", updatedAt := now,
    version := action.version + 1 }

/-- Suspends the accounts of some clients. -/
def Db.suspend (db : Db) (ids : List Uuid) (now : Instant) : Db :=
  { db with
    principals := updateWhere (fun row => row.id ∈ ids && row.status = .active)
      (fun row => { row with status := .suspended, version := row.version + 1, updatedAt := now })
      db.principals }

/-- Whether a session of some clients is to be revoked. -/
def SessionRow.isOpenOf (ids : List Uuid) (row : SessionRow) : Bool :=
  row.principalId ∈ ids && row.principalKind = .client && row.revokedAt = none

/-- **Revokes the credentials** of some clients. -/
def Db.revokeCredentials (db : Db) (ids : List Uuid) (now : Instant) : Db :=
  let tokens := updateWhere
    (fun token => token.isOf ids && token.revokedAt = none && token.consumedAt = none)
    (fun token => { token with revokedAt := some now }) db.emailSignInTokens
  let credentials := (tokens.filter (EmailSignInToken.isOf ids)).map EmailSignInToken.id
  { db with
    sessions := updateWhere (SessionRow.isOpenOf ids)
      (fun row => { row with revokedAt := some now }) db.sessions
    emailSignInTokens := tokens
    externalActions :=
      if credentials = [] then db.externalActions
      else updateWhere (isQueuedLink credentials) (cancelLink now) db.externalActions
    invitations := updateWhere
      (fun row => row.principalId ∈ ids && row.kind = .clientAccess && row.revokedAt = none
        && row.acceptedAt = none && row.declinedAt = none)
      (fun row => { row with revokedAt := some now }) db.invitations
    passkeys := updateWhere (fun row => row.principalId ∈ ids && row.revokedAt = none)
      (fun row => { row with revokedAt := some now }) db.passkeys
    grants := updateWhere
      (fun row => row.principalId.any (fun id => id ∈ ids) && row.revokedAt = none)
      (fun row => { row with
        revokedAt := some now, version := row.version + 1, updatedAt := now }) db.grants }

/-- How many emails that cancels. -/
def Db.queuedLinks (db : Db) (ids : List Uuid) : ℕ :=
  (db.externalActions.filter (isQueuedLink
    ((db.emailSignInTokens.filter (EmailSignInToken.isOf ids)).map EmailSignInToken.id))).length

/-- Revokes the exports of a party. -/
def Db.revokeExports (db : Db) (partyId : Uuid) (now : Instant) : Db :=
  { db with
    privacyExports := updateWhere (fun row => row.partyId = partyId && row.state ≠ .revoked)
      (fun row => { row with
        state := .revoked, revokedAt := some now, version := row.version + 1, updatedAt := now })
      db.privacyExports }

/-- A party without the copies a decision erases. -/
def PartyRow.erase (effect : Restriction) (now : Instant) (row : PartyRow) : PartyRow :=
  { row with
    contactPreferences := if effect.erasePreferences then .obj [] else row.contactPreferences,
    matchingAliases := if effect.eraseAliases then [] else row.matchingAliases,
    version := row.version + 1, updatedAt := now }

/-- Erases the preferences and the aliases of a party. -/
def Db.eraseParty (db : Db) (effect : Restriction) (now : Instant) : Db :=
  if effect.erasePreferences || effect.eraseAliases then
    { db with
      parties := updateWhere (fun row => row.id = effect.partyId) (PartyRow.erase effect now)
        db.parties }
  else db

/-- An erased contact. -/
def ContactMethodRow.erase (id : Uuid) (now : Instant) (row : ContactMethodRow) :
    ContactMethodRow :=
  { row with
    value := id ++ "@erased.invalid", normalizedValue := "erased:" ++ id,
    verification := .unverified, verifiedAt := none, lastFailureAt := none,
    version := row.version + 1, updatedAt := now }

/-- Whether a contact has an id and belongs to a party. -/
def ContactMethodRow.isOf (partyId id : Uuid) (row : ContactMethodRow) : Bool :=
  row.id = id && row.partyId = partyId

/-- Erases the contacts of a decision, one after the other. -/
def Db.eraseContacts (db : Db) (effect : Restriction) (now : Instant) : Db :=
  { db with
    contactMethods := effect.contactIds.foldl (fun rows id =>
      updateWhere (ContactMethodRow.isOf effect.partyId id) (ContactMethodRow.erase id now) rows)
      db.contactMethods }

/-- An erased profile. -/
def PrincipalRow.erase (id : Uuid) (now : Instant) (row : PrincipalRow) : PrincipalRow :=
  { row with
    email := id ++ "@erased.invalid", displayName := "[restricted client]",
    version := row.version + 1, updatedAt := now }

/-- Whether an account has an id and is a client of a party. -/
def PrincipalRow.isClient (partyId id : Uuid) (row : PrincipalRow) : Bool :=
  row.id = id && row.partyId = partyId && row.kind = .client

/-- Erases the profiles of a decision, one after the other. -/
def Db.eraseProfiles (db : Db) (effect : Restriction) (ids : List Uuid) (now : Instant) : Db :=
  { db with
    principals := (effect.clientProfileIds.filter (fun id => id ∈ ids)).foldl (fun rows id =>
      updateWhere (PrincipalRow.isClient effect.partyId id) (PrincipalRow.erase id now) rows)
      db.principals }

/-- Erases the criteria of withdrawn search alerts. -/
def Db.eraseCriteria (db : Db) (effect : Restriction) (now : Instant) : Db :=
  if effect.searchSubscriptionIds = [] then db
  else { db with
    subscriptions := updateWhere
      (fun row => row.partyId = effect.partyId && row.purpose = .searchAlerts
        && row.id ∈ effect.searchSubscriptionIds && row.state = .withdrawn)
      (fun row => { row with
        criteria := some (.obj []), criteriaSummary := none, version := row.version + 1,
        updatedAt := now }) db.subscriptions }

/-- What a restriction does after its streams are withdrawn. -/
def Db.applyRestriction (db : Db) (effect : Restriction) (sequence : ℕ) (now : Instant) : Db :=
  let db := db.restrict effect sequence
  let ids := effect.clients db.principals
  let db := if ids = [] then db else (db.suspend ids now).revokeCredentials ids now
  let db := db.revokeExports effect.partyId now
  let db := db.eraseParty effect now
  let db := db.eraseContacts effect now
  let db := db.eraseProfiles effect ids now
  db.eraseCriteria effect now

/-- **Applies the effect of a decision.** -/
def applyPrivacySafetyEffect (db : Db) (effect : PrivacySafetyEffect) (sequence : ℕ)
    (actor : Actor) (now : Instant) : Db :=
  match effect with
  | .withdrawal _ => db.withdraw effect sequence actor now
  | .restriction restriction =>
    (db.withdraw effect sequence actor now).applyRestriction restriction sequence now

/-- What it reports. -/
def effectEvidence (db : Db) : PrivacySafetyEffect → List (String × JsonValue)
  | .withdrawal effect => [("withdrawn", .num (db.withdrawn (.withdrawal effect)))]
  | .restriction effect =>
    let ids := effect.clients db.principals
    [("withdrawn", .num (db.withdrawn (.restriction effect))),
      ("clientCredentialsRestricted", .num ids.length),
      ("revokedSessions", .num (db.sessions.filter (SessionRow.isOpenOf ids)).length),
      ("authEmailsCancelled", .num (db.queuedLinks ids)),
      ("exportsRevoked", .num (db.privacyExports.filter (fun row =>
        row.partyId = effect.partyId && row.state ≠ .revoked)).length),
      ("physicalFileDeletion", .bool false), ("providerDeletion", .bool false)]

end Privacy
