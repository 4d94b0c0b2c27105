import MsRealty.Authz
import MsRealty.Runs
import MsRealty.Table

/-!
# Sessions

Server-side sessions (`src/server/auth/sessions.ts`). The browser holds an
opaque token and the database its digest. A session ends when it has been idle
for too long, at its absolute end, when it is revoked or when its account is
no longer active; it is rotated whenever the privileges of its holder change.

What a service does over several statements is a *task*: it has read
something, and writes later, while other statements run in between. A rotation
reads the live row and then replaces it; the two writes of the replacement
become visible together, when its transaction commits. Revoking every session
of an account writes the rows its statement found when it began.
-/

namespace Sessions

/-! ## Limits -/

/-- The account behind a session. -/
structure AccountRef where
  kind : PrincipalKind
  id : Uuid
  deriving DecidableEq

/-- How long a session may be idle, may last, and counts as freshly verified. -/
structure SessionLimits where
  idleMs : ℤ
  absoluteMs : ℤ
  stepUpMs : ℤ

/-- A minute in milliseconds. -/
def minute : ℤ := 60000

/-- An hour in milliseconds. -/
def hour : ℤ := 60 * minute

/-- A day in milliseconds. -/
def day : ℤ := 24 * hour

/-- **The limits of sessions.** -/
def sessionPolicy : PrincipalKind → SessionLimits
  | .staff => ⟨30 * minute, 12 * hour, 5 * minute⟩
  | .client => ⟨24 * hour, 7 * day, 15 * minute⟩

/-- The time of the last request is refreshed at most this often. -/
def touchIntervalMs : ℤ := minute

/-! ## Rows -/

/-- **A stored session.** -/
structure SessionRow where
  id : Uuid
  tokenHash : String
  principalKind : PrincipalKind
  principalId : Uuid
  createdAt : Instant
  /-- The absolute end of the session. -/
  expiresAt : Instant
  lastSeenAt : Instant
  /-- The last step-up verification. -/
  reverifiedAt : Option Instant
  revokedAt : Option Instant
  deriving DecidableEq

/-- The account of a session. -/
def SessionRow.account (row : SessionRow) : AccountRef := ⟨row.principalKind, row.principalId⟩

/-- The sessions table. -/
abbrev SessionTable := Table Uuid SessionRow SessionRow.id

/-- Inserts a session, unless its id or the digest of its token is taken. -/
def insertSession (t : SessionTable) (row : SessionRow) : Option SessionTable :=
  if t.rows.any (fun r => r.tokenHash = row.tokenHash) then none else t.insert? row

/-- Revokes the rows of some ids that are not revoked. -/
def revokeRow (ids : List Uuid) (now : Instant) (row : SessionRow) : SessionRow :=
  if row.id ∈ ids ∧ row.revokedAt = none then { row with revokedAt := some now } else row

/-- Refreshes the time of the last request of a row. -/
def touchRow (id : Uuid) (now : Instant) (row : SessionRow) : SessionRow :=
  if row.id = id then { row with lastSeenAt := now } else row

@[simp] theorem revokeRow_id (ids : List Uuid) (now : Instant) (row : SessionRow) :
    (revokeRow ids now row).id = row.id := by
  unfold revokeRow
  split_ifs <;> rfl

@[simp] theorem touchRow_id (id : Uuid) (now : Instant) (row : SessionRow) :
    (touchRow id now row).id = row.id := by
  unfold touchRow
  split_ifs <;> rfl

/-- Revokes sessions. -/
def revokeRows (t : SessionTable) (ids : List Uuid) (now : Instant) : SessionTable :=
  t.update (revokeRow ids now) (revokeRow_id ids now)

/-- Touches a session. -/
def touchRows (t : SessionTable) (id : Uuid) (now : Instant) : SessionTable :=
  t.update (touchRow id now) (touchRow_id id now)

/-! ## Who may use what now -/

/-- The accounts, and the parties whose access is restricted. -/
structure Accounts where
  authz : Authz.AuthzData
  restricted : List Uuid

/-- **Whether a principal may use its context now**: an active principal of
that kind, and for staff an active membership. -/
def accountIsActive (accounts : Accounts) (account : AccountRef) : Bool :=
  match accounts.authz.principals.find? (fun p => p.id = account.id) with
  | none => false
  | some principal =>
    let membership := accounts.authz.memberships.find? (fun m => m.principalId = principal.id)
    if principal.status ≠ .active ∨ principal.kind ≠ account.kind then false
    else if account.kind = .client ∧ principal.partyId ∈ accounts.restricted then false
    else account.kind = .client || membership.any Authz.StaffMembership.active

/-- A session that is not over at an instant. -/
def SessionRow.Live (row : SessionRow) (now : Instant) : Prop :=
  row.revokedAt = none ∧ now < row.expiresAt
    ∧ now - row.lastSeenAt < (sessionPolicy row.principalKind).idleMs

instance (row : SessionRow) (now : Instant) : Decidable (row.Live now) :=
  inferInstanceAs (Decidable (_ ∧ _))

/-- **The live row of a token.** -/
def findLiveRow (sha256Hex : String → String) (t : SessionTable) (token : String)
    (now : Instant) : Option SessionRow :=
  (t.rows.find? (fun r => r.tokenHash = sha256Hex token ∧ r.revokedAt = none)).filter
    (fun r => r.Live now)

/-- Whether the last verification of a session is recent enough for a
sensitive action. -/
def isFresh (row : SessionRow) (now : Instant) (maxAgeMs : ℤ) : Bool :=
  row.reverifiedAt.any (fun verified =>
    now < row.expiresAt ∧ verified ≤ now ∧ now - verified ≤ maxAgeMs)

/-! ## The system -/

/-- What a statement that revokes many sessions selects. -/
inductive Selection where
  /-- Those of an account, except perhaps the caller's own. -/
  | account (id : Uuid) (except : Option Uuid)
  /-- Those of the clients whose access an erasure restricts. -/
  | clients (ids : List Uuid)
  /-- All of them, in a restored database. -/
  | all

/-- Whether a row is selected. -/
def Selection.selects : Selection → SessionRow → Bool
  | .account id except, row => row.principalId = id && except.all (fun e => row.id ≠ e)
  | .clients ids, row => row.principalId ∈ ids && row.principalKind = .client
  | .all, _ => true

/-- **A task**: what a service has read and is about to write. -/
inductive Task where
  /-- A rotation read the live row. -/
  | rotate (row : SessionRow) (now : Instant) (reverified : Bool)
  /-- A request read a live row that is due to be touched. -/
  | touch (id : Uuid) (now : Instant)
  /-- A statement found the rows it revokes. -/
  | revokeAll (ids : List Uuid) (now : Instant)

/-- **What was issued**: a session, the first session of its chain, when, and
whether a verification was completed for it. The code keeps no such record. -/
structure Issue where
  session : Uuid
  root : Uuid
  issuedAt : Instant
  verified : Bool

/-- **The state**: the table, the tasks under way, and what was issued, the
latest first. -/
structure State where
  sessions : SessionTable
  tasks : ℕ → Option Task
  issued : List Issue

/-- A database without sessions. -/
def State.init : State := ⟨Table.empty, fun _ => none, []⟩

/-- The first session of the chain a session belongs to. -/
def rootOf (issued : List Issue) (id : Uuid) : Uuid :=
  ((issued.find? (fun i => i.session = id)).map Issue.root).getD id

/-- An event of a run. -/
inductive Event where
  /-- A verification by link or passkey was completed: a session starts. -/
  | create (account : AccountRef) (token : String) (id : Uuid) (now : Instant)
  | beginRotate (task : ℕ) (token : String) (now : Instant) (reverified : Bool)
      (accounts : Accounts)
  | finishRotate (task : ℕ) (token : String) (id : Uuid)
  | beginTouch (task : ℕ) (token : String) (now : Instant) (accounts : Accounts)
  | finishTouch (task : ℕ)
  | revoke (token : String) (now : Instant)
  | beginRevokeAll (task : ℕ) (selection : Selection) (now : Instant)
  | finishRevokeAll (task : ℕ)
  /-- A task ends without its write. -/
  | abort (task : ℕ)

/-- What an event is answered with. -/
inductive Output where
  | issued (token : String) (row : SessionRow)
  /-- There is no session. -/
  | none
  /-- The insert failed, and with it its transaction. -/
  | failed
  | done
  deriving DecidableEq

/-- The row a session starts with. -/
def newRow (sha256Hex : String → String) (id : Uuid) (token : String) (account : AccountRef)
    (now expiresAt : Instant) (reverifiedAt : Option Instant) : SessionRow where
  id := id
  tokenHash := sha256Hex token
  principalKind := account.kind
  principalId := account.id
  createdAt := now
  expiresAt := expiresAt
  lastSeenAt := now
  reverifiedAt := reverifiedAt
  revokedAt := none

/-- Starts a session after a completed verification. -/
def createSession (sha256Hex : String → String) (s : State) (account : AccountRef)
    (token : String) (id : Uuid) (now : Instant) : State × Output :=
  let row := newRow sha256Hex id token account now
    (now + (sessionPolicy account.kind).absoluteMs) (some now)
  match insertSession s.sessions row with
  | none => (s, .failed)
  | some t => ({ s with sessions := t, issued := ⟨id, id, now, true⟩ :: s.issued },
      .issued token row)

/-- **Replaces a session by a new one** with its absolute end: revokes the row
that was read, if no concurrent rotation or revocation did, and inserts the
new one. -/
def rotateSession (sha256Hex : String → String) (s : State) (old : SessionRow) (now : Instant)
    (reverified : Bool) (token : String) (id : Uuid) : State × Output :=
  let revoked := s.sessions.rows.filter (fun r => r.id = old.id ∧ r.revokedAt = none)
  if revoked.length ≠ 1 then (s, .none)
  else
    let row := newRow sha256Hex id token old.account now old.expiresAt
      (if reverified then some now else old.reverifiedAt)
    match insertSession (revokeRows s.sessions [old.id] now) row with
    | none => (s, .failed)
    | some t =>
      ({ s with
          sessions := t
          issued := ⟨id, rootOf s.issued old.id, now, reverified⟩ :: s.issued },
        .issued token row)

/-- Starts a task. -/
def State.start (s : State) (task : ℕ) (t : Task) : State :=
  { s with tasks := Function.update s.tasks task (some t) }

/-- Ends a task. -/
def State.stop (s : State) (task : ℕ) : State :=
  { s with tasks := Function.update s.tasks task none }

/-- **One event of the run.** -/
def step (sha256Hex : String → String) (s : State) : Event → State × Output
  | .create account token id now => createSession sha256Hex s account token id now
  | .beginRotate task token now reverified accounts =>
    match findLiveRow sha256Hex s.sessions token now with
    | some row =>
      if accountIsActive accounts row.account then
        (s.start task (.rotate row now reverified), .done)
      else (s, .none)
    | none => (s, .none)
  | .finishRotate task token id =>
    match s.tasks task with
    | some (.rotate row now reverified) =>
      rotateSession sha256Hex (s.stop task) row now reverified token id
    | _ => (s, .none)
  | .beginTouch task token now accounts =>
    match findLiveRow sha256Hex s.sessions token now with
    | some row =>
      if accountIsActive accounts row.account ∧ touchIntervalMs ≤ now - row.lastSeenAt then
        (s.start task (.touch row.id now), .done)
      else (s, .none)
    | none => (s, .none)
  | .finishTouch task =>
    match s.tasks task with
    | some (.touch id now) =>
      ({ s.stop task with sessions := touchRows s.sessions id now }, .done)
    | _ => (s, .none)
  | .revoke token now =>
    let ids := (s.sessions.rows.filter (fun r => r.tokenHash = sha256Hex token)).map SessionRow.id
    ({ s with sessions := revokeRows s.sessions ids now }, .done)
  | .beginRevokeAll task selection now =>
    let ids := (s.sessions.rows.filter (fun r =>
      selection.selects r ∧ r.revokedAt = none)).map SessionRow.id
    (s.start task (.revokeAll ids now), .done)
  | .finishRevokeAll task =>
    match s.tasks task with
    | some (.revokeAll ids now) =>
      ({ s.stop task with sessions := revokeRows s.sessions ids now }, .done)
    | _ => (s, .none)
  | .abort task => (s.stop task, .none)

end Sessions
