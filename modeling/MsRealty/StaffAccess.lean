import MsRealty.AccessGrants
import MsRealty.RowLocks
import MsRealty.Sessions

/-!
# Access of staff

The accounts of staff, what they may do and how they sign in, as transactions with
row locks (`src/server/auth/grants.ts`, `src/server/auth/absence.ts`,
`src/server/auth/invitations.ts`): grants and their revocation, offboarding,
absences, and recovery of a member who lost a passkey.

What a command checks before its transaction it reads without a lock, so the
program of a command begins with these readings. A call that is answered by an
earlier one of the same key writes nothing, and is left out; so is what is only
recorded for an audit or sent by mail. The ids of new rows and their tokens are
parameters of a call, as the database and the runtime draw them.
-/

namespace StaffAccess

open RowLocks Authz Access Sessions

/-! ## The tables -/

/-- An address, as `parseEmail` leaves it: in lower case. Addresses are ASCII. -/
def lowerCase (text : String) : String := String.ofList (text.toList.map Char.toLower)

/-- **A principal**, with its address. -/
structure PrincipalRow extends Principal where
  email : String
  version : ℕ

/-- **A membership**, with a planned absence. -/
structure MembershipRow extends StaffMembership where
  version : ℕ
  absenceFrom : Option Instant
  absenceReviewAt : Option Instant

/-- **A passkey.** -/
structure PasskeyRow where
  id : Uuid
  principalId : Uuid
  credentialId : String
  signCount : ℕ
  revokedAt : Option Instant

/-- The kinds of invitation of staff. -/
inductive StaffInvitationKind where
  | staffEnrolment
  | staffRecovery
  deriving DecidableEq

/-- **An invitation of staff.** -/
structure InvitationRow where
  id : Uuid
  kind : StaffInvitationKind
  principalId : Uuid
  email : String
  tokenHash : String
  /-- The roles in the scope of an enrolment. -/
  roles : List Role
  /-- None only for the break-glass bootstrap. -/
  invitedById : Option Uuid
  expiresAt : Instant
  acceptedAt : Option Instant
  declinedAt : Option Instant
  revokedAt : Option Instant

/-- What a challenge is for. -/
inductive ChallengePurpose where
  | registration
  | authentication
  deriving DecidableEq

/-- **A stored challenge.** -/
structure ChallengeRow where
  id : Uuid
  challenge : String
  purpose : ChallengePurpose
  principalId : Option Uuid
  expiresAt : Instant
  consumedAt : Option Instant

/-- **A ceremony under way**: a call that consumed a challenge and verified the
answer, with the passkey it read before. The code keeps it in its variables; here
it is what its second transaction starts from. Its id is the call's. -/
structure Ceremony where
  id : Uuid
  challengeId : Uuid
  purpose : ChallengePurpose
  context : PrincipalKind
  principalId : Uuid
  /-- The passkey that answered, and its counter. -/
  passkey : Option (Uuid × ℕ)
  taken : Bool

/-- What happens to the account of a member. -/
inductive AccountEvent where
  | lockedOut
  | issued (invitation : Uuid)
  | accepted (invitation : Uuid)
  deriving DecidableEq

/-- **The tables.** The last three are not in the database: the ceremonies under
way, what happened to the accounts, and the challenges of the ceremonies that
succeeded, the latest first. -/
structure StaffData where
  principals : Table Uuid PrincipalRow (fun row => row.id)
  memberships : Table Uuid MembershipRow (fun row => row.principalId)
  grants : Table Uuid StoredGrant StoredGrant.id
  passkeys : Table Uuid PasskeyRow PasskeyRow.id
  sessions : SessionTable
  invitations : Table Uuid InvitationRow InvitationRow.id
  challenges : Table Uuid ChallengeRow ChallengeRow.id
  /-- The parties whose access an erasure restricts. -/
  restricted : List Uuid
  ceremonies : Table Uuid Ceremony Ceremony.id
  journal : List (Uuid × AccountEvent)
  finished : List Uuid

/-- What authorization of staff reads of the tables. -/
def StaffData.authz (data : StaffData) : AuthzData where
  principals := data.principals.rows.map PrincipalRow.toPrincipal
  memberships := data.memberships.rows.map MembershipRow.toStaffMembership
  grants := data.grants.rows.map StoredGrant.toGrantRow
  participants := []
  propertyLinks := []

/-- The accounts, as sessions read them. -/
def StaffData.accounts (data : StaffData) : Accounts := ⟨data.authz, data.restricted⟩

/-- A passkey its principal can still sign in with. -/
def PasskeyRow.isActive (row : PasskeyRow) : Bool := row.revokedAt.isNone

/-- An invitation that has no outcome yet. -/
def InvitationRow.isPending (row : InvitationRow) : Bool :=
  row.acceptedAt.isNone && row.declinedAt.isNone && row.revokedAt.isNone

/-- The passkeys of a principal that are not revoked. -/
def activePasskeyOf (principalId : Uuid) (row : PasskeyRow) : Bool :=
  row.principalId = principalId && row.isActive

/-- They can be listed. -/
def StaffData.activePasskeys (data : StaffData) (principalId : Uuid) : List PasskeyRow :=
  data.passkeys.rows.filter (activePasskeyOf principalId)

/-! ## Statements -/

/-- What has a unique index beside its id. -/
inductive UniqueIndex where
  | principalEmail
  | credentialId
  | sessionToken
  | invitationToken
  | challenge
  deriving DecidableEq

/-- **What is locked**: the management of capabilities, a row, or an entry of a
unique index. -/
inductive Row where
  | management
  | principal (id : Uuid)
  | membership (principalId : Uuid)
  | grant (id : Uuid)
  | session (id : Uuid)
  | passkey (id : Uuid)
  | invitation (id : Uuid)
  | challenge (id : Uuid)
  | ceremony (id : Uuid)
  | entry (index : UniqueIndex) (value : String)
  deriving DecidableEq

/-- A transaction, as statements. -/
abbrev Statements (α : Type) : Type := Transaction StaffData Row α

/-- A table of the data: how it is read and replaced. -/
structure TableOf (ρ : Type) (key : ρ → Uuid) where
  get : StaffData → Table Uuid ρ key
  set : Table Uuid ρ key → StaffData → StaffData
  get_set : ∀ rows data, get (set rows data) = rows

/-- The principals. -/
def principalTable : TableOf PrincipalRow (fun row => row.id) :=
  ⟨StaffData.principals, fun table data => { data with principals := table },
    fun _ _ => rfl⟩

/-- The grants. -/
def grantTable : TableOf StoredGrant StoredGrant.id :=
  ⟨StaffData.grants, fun table data => { data with grants := table },
    fun _ _ => rfl⟩

/-- The passkeys. -/
def passkeyTable : TableOf PasskeyRow PasskeyRow.id :=
  ⟨StaffData.passkeys, fun table data => { data with passkeys := table },
    fun _ _ => rfl⟩

/-- The sessions. -/
def sessionTable : TableOf SessionRow SessionRow.id :=
  ⟨StaffData.sessions, fun table data => { data with sessions := table },
    fun _ _ => rfl⟩

/-- The invitations. -/
def invitationTable : TableOf InvitationRow InvitationRow.id :=
  ⟨StaffData.invitations, fun table data => { data with invitations := table },
    fun _ _ => rfl⟩

/-- The challenges. -/
def challengeTable : TableOf ChallengeRow ChallengeRow.id :=
  ⟨StaffData.challenges, fun table data => { data with challenges := table },
    fun _ _ => rfl⟩

/-- The ceremonies. -/
def ceremonyTable : TableOf Ceremony Ceremony.id :=
  ⟨StaffData.ceremonies, fun table data => { data with ceremonies := table },
    fun _ _ => rfl⟩

section

variable {ρ : Type} {key : ρ → Uuid}

/-- Changes the rows of some keys, where they satisfy a condition. -/
def changeRows (table : TableOf ρ key) (still : ρ → Bool) (change : ρ → ρ)
    (hkey : ∀ row, key (change row) = key row) (ids : List Uuid) (data : StaffData) : StaffData :=
  table.set ((table.get data).updateWhere (fun row => decide (key row ∈ ids) && still row)
    change hkey) data

/-- What is found after the change. -/
theorem get?_changeRows (table : TableOf ρ key) (still : ρ → Bool) (change : ρ → ρ)
    (hkey : ∀ row, key (change row) = key row) (ids : List Uuid) (data : StaffData) (id : Uuid) :
    (table.get (changeRows table still change hkey ids data)).get? id
      = ((table.get data).get? id).map (fun row =>
        if decide (key row ∈ ids) && still row then change row else row) := by
  rw [changeRows, table.get_set]
  exact Table.get?_updateWhere (table.get data) hkey id

/-- **Updates the rows of a table that satisfy a condition**, and answers with
their keys. -/
def updatingRows (table : TableOf ρ key) (row : Uuid → Row) (still : ρ → Bool) (change : ρ → ρ)
    (hkey : ∀ row, key (change row) = key row) : Statements (List Uuid) :=
  updating (fun data => ((table.get data).rows.filter still).map key) row
    (fun data id => ((table.get data).get? id).any still) (changeRows table still change hkey)

/-- Inserts a row. -/
def insertRow (table : TableOf ρ key) (row : ρ) (data : StaffData) : StaffData :=
  table.set (((table.get data).insert? row).getD (table.get data)) data

/-- What is found after an insertion, if the id was free. -/
theorem get?_insertRow {table : TableOf ρ key} {row : ρ} {data : StaffData}
    (hfree : (table.get data).get? (key row) = none) (id : Uuid) :
    (table.get (insertRow table row data)).get? id
      = if key row = id then some row else (table.get data).get? id := by
  rw [insertRow, table.get_set, Table.insert?, hfree]
  exact Table.get?_put (table.get data) row id

/-- The rows after an insertion: there is one more, if the id was free. -/
theorem rows_insertRow (table : TableOf ρ key) (row : ρ) (data : StaffData) :
    (table.get (insertRow table row data)).rows = (table.get data).rows
      ∨ (table.get data).get? (key row) = none
        ∧ (table.get (insertRow table row data)).rows = row :: (table.get data).rows := by
  rw [insertRow, table.get_set]
  cases hinsert : (table.get data).insert? row with
  | none => exact .inl rfl
  | some rows => exact .inr ⟨Table.get?_of_insert? hinsert, Table.rows_of_insert? hinsert⟩

/-- An insertion leaves the rows there were. -/
theorem get?_insertRow_of_some (table : TableOf ρ key) (row : ρ) {data : StaffData} {id : Uuid}
    {found : ρ} (h : (table.get data).get? id = some found) :
    (table.get (insertRow table row data)).get? id = some found := by
  obtain ⟨hmem, hid⟩ := Table.get?_eq_some.mp h
  refine Table.get?_eq_some.mpr ⟨?_, hid⟩
  obtain hsame | ⟨-, hrows⟩ := rows_insertRow table row data
  · rw [hsame]
    exact hmem
  · rw [hrows]
    exact List.mem_cons_of_mem _ hmem

/-- **Inserts a row**, whose id no other row has. -/
def inserting (table : TableOf ρ key) (lockRow : Uuid → Row) (row : ρ) : Statements Unit := do
  let data ← locking (lockRow (key row)) .update
  Prog.demand (((table.get data).get? (key row)).isNone = true)
  writing (insertRow table row)

end

/-- **Claims an entry of a unique index**, which no row has. -/
def claiming (index : UniqueIndex) (value : String) (taken : StaffData → Bool) :
    Statements Unit := do
  let data ← locking (.entry index value) .update
  Prog.demand (taken data = false)

/-! ## Sessions -/

/-- The session a call is made with. -/
structure Session where
  id : Uuid
  account : AccountRef

/-- **`requireLiveSession`.** -/
def requireLiveSession (session : Session) (now : Instant) : Statements SessionRow := do
  let data ← reading
  let row ← Prog.required ((data.sessions.get? session.id).filter
    (fun row => row.account = session.account && row.Live now))
  let data ← reading
  Prog.demand (accountIsActive data.accounts session.account = true)
  pure row

/-- **`requireFreshAuth`.** -/
def requireFreshAuth (row : SessionRow) (now : Instant) : Statements Unit :=
  Prog.demand (isFresh row now (sessionPolicy row.principalKind).stepUpMs = true)

/-- `countActivePasskeys`. -/
def countActivePasskeys (principalId : Uuid) : Statements ℕ := do
  let data ← reading
  pure (data.activePasskeys principalId).length

/-- A session that is revoked. -/
def revokedSession (now : Instant) (row : SessionRow) : SessionRow :=
  { row with revokedAt := some now }

theorem revokedSession_id (now : Instant) (row : SessionRow) : (revokedSession now row).id = row.id :=
  rfl

/-- The sessions of a principal that are not revoked. -/
def openSessionOf (principalId : Uuid) (row : SessionRow) : Bool :=
  row.principalId = principalId && row.revokedAt.isNone

/-- **`revokeAllSessions`**, of a principal. -/
def revokeAllSessions (principalId : Uuid) (now : Instant) : Statements (List Uuid) :=
  updatingRows sessionTable Row.session (openSessionOf principalId) (revokedSession now)
    (revokedSession_id now)

/-! ## Authority -/

/-- **`resolveGrants`**, of staff: first the account is read, then its grants. -/
def resolveStaffGrants (id : Uuid) (now : Instant) : Statements (List CapabilityGrant) := do
  let data ← reading
  if activeStaff data.authz id = true then do
    let data ← reading
    pure ((grantsOf data.authz id now).flatMap expandGrant)
  else pure []

/-- **`can`**, of staff and about no record. -/
def staffCan (id : Uuid) (capability : Capability) (now : Instant) : Statements Bool := do
  let grants ← resolveStaffGrants id now
  pure (allows ⟨.staff, id⟩ grants capability none now)

/-- **`liveManager`.** The clock is read again for each check. -/
def liveManager (session : Session) (clock : ℕ → Instant) : Statements Unit := do
  let row ← requireLiveSession session (clock 0)
  requireFreshAuth row (clock 1)
  Prog.demand (session.account.kind = .staff)
  let passkeys ← countActivePasskeys session.account.id
  Prog.demand (staffPasskeyMinimum ≤ passkeys)

/-- **`authority`**: who may grant everywhere has it; anyone else has it over a
record, by grants that permit it. -/
def authority (session : Session) (scope : Scope) (capability : Capability) (creating : Bool)
    (clock : ℕ → Instant) : Statements Unit := do
  liveManager session clock
  let everywhere ← staffCan session.account.id .accessGrant (clock 2)
  if everywhere = true then pure ()
  else do
    Prog.demand ((present scope.recordType).isSome ∧ (present scope.recordId).isSome)
    let owned ← resolveStaffGrants session.account.id (clock 3)
    Prog.demand ((scope.contexts (fun n => clock (n + 2))).all (fun context =>
      [Capability.accessGrant, capability].all (fun needed =>
        permitted ⟨.staff, session.account.id⟩ owned needed context scope creating)) = true)

/-- `activeStaff`: the person is an active member of staff. -/
def demandActiveStaff (id : Uuid) : Statements Unit := do
  let data ← reading
  Prog.demand (activeStaff data.authz id = true)

/-- **`offboardingOperator`.** -/
def offboardingOperator (session : Session) (clock : ℕ → Instant) : Statements Unit := do
  liveManager session clock
  let everywhere ← staffCan session.account.id .accessGrant (clock 2)
  Prog.demand (everywhere = true)

/-- **`assertMayGrant`**, about no record: at one reading of the clock. -/
def assertMayGrant (session : Session) (now : Instant) : Statements Unit := do
  Prog.demand (session.account.kind = .staff)
  let row ← requireLiveSession session now
  requireFreshAuth row now
  let passkeys ← countActivePasskeys session.account.id
  Prog.demand (staffPasskeyMinimum ≤ passkeys)
  let everywhere ← staffCan session.account.id .accessGrant now
  Prog.demand (everywhere = true)

/-- The principals of staff. -/
def StaffData.staff (data : StaffData) : List Uuid :=
  (data.principals.rows.filter (fun row => row.kind = .staff)).map (fun row => row.id)

/-- **`lockStaff`**: the lock of the management of capabilities, then every
principal of staff, so that no recovery removes the last manager meanwhile. -/
def lockStaff : Statements Unit := do
  let _ ← locking .management .update
  let data ← reading
  let _ ← lockingAll Row.principal (fun data id => id ∈ data.staff) data.staff
  pure ()

/-- The members a check of managers may find: active ones without an absence. -/
def StaffData.present (data : StaffData) : List Uuid :=
  (data.principals.rows.filter (fun row => row.kind = .staff && row.status = .active
    && (data.memberships.get? row.id).any (fun membership =>
      membership.active && membership.absenceFrom.isNone))).map (fun row => row.id)

/-- Whether one of some members is a usable manager: the clock is read for each. -/
def usableAmong (clock : Uuid → Instant) : List Uuid → Statements Unit
  | [] => .fail
  | id :: rest => do
    let everywhere ← staffCan id .accessGrant (clock id)
    if everywhere = true then do
      let passkeys ← countActivePasskeys id
      if staffPasskeyMinimum ≤ passkeys then pure () else usableAmong clock rest
    else usableAmong clock rest

/-- **`ensureUsableManager`**: someone who is not absent may grant everywhere, and
can sign in. -/
def ensureUsableManager (clock : Uuid → Instant) : Statements Unit := do
  let data ← reading
  usableAmong clock data.present

/-! ## Rules of the statements -/

section

variable {R : Discipline StaffData Row} {Inv : StaffData → Prop} {β : Type}
  {P : β → (StaffData → StaffData) → Locks Row → StaffData → Prop}
  {writes : StaffData → StaffData} {locks : Locks Row} {d : StaffData}
  {ρ : Type} {key : ρ → Uuid} {table : TableOf ρ key}

/-- **The rule of an insertion**: the id is free, and locked from then on. -/
theorem safe_inserting {lockRow : Uuid → Row} {row : ρ} {f : Unit → Statements β}
    (h : ∀ d', R.Rely locks d d' → Inv d' → (table.get (writes d')).get? (key row) = none →
      Safe R Inv P (f ()) (insertRow table row ∘ writes) ((lockRow (key row), .update) :: locks)
        d') :
    Safe R Inv P (inserting table lockRow row >>= f) writes locks d := by
  unfold inserting
  rw [Prog.bind_assoc]
  refine Safe.locking fun d' hrely hinv => ?_
  rw [Prog.bind_assoc]
  exact Safe.demand fun hfree => h d' hrely hinv (Option.isNone_iff_eq_none.mp hfree)

/-- **The rule of a unique index**: the entry is free, and locked from then on. -/
theorem safe_claiming {index : UniqueIndex} {value : String} {taken : StaffData → Bool}
    {f : Unit → Statements β}
    (h : ∀ d', R.Rely locks d d' → Inv d' → taken (writes d') = false →
      Safe R Inv P (f ()) writes ((.entry index value, .update) :: locks) d') :
    Safe R Inv P (claiming index value taken >>= f) writes locks d := by
  unfold claiming
  rw [Prog.bind_assoc]
  exact Safe.locking fun d' hrely hinv => Safe.demand fun hfree => h d' hrely hinv hfree

/-- **The rule of an update of rows**: it writes to rows it has locked, each of which
satisfied the condition then, and to every row that satisfies it still. -/
theorem safe_updatingRows {row : Uuid → Row} {still : ρ → Bool} {change : ρ → ρ}
    {hkey : ∀ row, key (change row) = key row} {f : List Uuid → Statements β}
    (h : ∀ ids locks' d', (∀ l ∈ locks, l ∈ locks') → R.Rely locks d d' → Inv d' →
      (∀ id ∈ ids, (row id, Mode.update) ∈ locks') →
      (∀ id ∈ ids, ∃ d₁, Inv d₁ ∧ R.Rely ((row id, .update) :: locks) d₁ d'
        ∧ ((table.get (writes d₁)).get? id).any still = true) →
      (StillBefore R Inv (fun data id => ((table.get data).get? id).any still) writes locks d →
        ∀ id, ((table.get (writes d')).get? id).any still = true → id ∈ ids) →
      Safe R Inv P (f ids) (changeRows table still change hkey ids ∘ writes) locks' d') :
    Safe R Inv P (updatingRows table row still change hkey >>= f) writes locks d := by
  refine Safe.updating (fun data id hstill => ?_) h
  obtain ⟨found, hfound, hnow⟩ := (Option.any_eq_true _ _).mp hstill
  obtain ⟨hmem, hid⟩ := Table.get?_eq_some.mp hfound
  exact List.mem_map.mpr ⟨found, List.mem_filter.mpr ⟨hmem, hnow⟩, hid⟩

end

/-! ## What only reads -/

/-- A part that writes nothing. -/
abbrev ReadsOnly {α : Type} (p : Statements α) : Prop :=
  OnlyWrites (fun _ => False) (fun _ => True) p

theorem readsOnly_requireLiveSession (session : Session) (now : Instant) :
    ReadsOnly (requireLiveSession session now) :=
  fun _ => OnlyWrites.required fun _ _ => fun _ => OnlyWrites.demand fun _ => trivial

theorem readsOnly_staffCan (id : Uuid) (capability : Capability) (now : Instant) :
    ReadsOnly (staffCan id capability now) := by
  refine OnlyWrites.bind (P := fun _ => True) (fun d => ?_) fun _ _ => trivial
  show OnlyWrites _ _ (if _ then _ else _)
  split_ifs
  · exact fun _ => trivial
  · trivial

theorem readsOnly_liveManager (session : Session) (clock : ℕ → Instant) :
    ReadsOnly (liveManager session clock) := by
  refine (readsOnly_requireLiveSession session _).bind fun row _ => ?_
  refine OnlyWrites.demand fun _ => OnlyWrites.demand fun _ => fun _ => ?_
  exact OnlyWrites.demand_last trivial

theorem readsOnly_authority (session : Session) (scope : Scope) (capability : Capability)
    (creating : Bool) (clock : ℕ → Instant) :
    ReadsOnly (authority session scope capability creating clock) := by
  refine (readsOnly_liveManager session clock).bind fun _ _ => ?_
  refine (readsOnly_staffCan _ _ _).bind fun allowed _ => ?_
  split_ifs
  · trivial
  · refine OnlyWrites.demand fun _ => OnlyWrites.bind (P := fun _ => True) (fun d => ?_)
      fun _ _ => OnlyWrites.demand_last trivial
    show OnlyWrites _ _ (if _ then _ else _)
    split_ifs
    · exact fun _ => trivial
    · trivial

theorem readsOnly_demandActiveStaff (id : Uuid) : ReadsOnly (demandActiveStaff id) :=
  fun _ => OnlyWrites.demand_last trivial

theorem readsOnly_offboardingOperator (session : Session) (clock : ℕ → Instant) :
    ReadsOnly (offboardingOperator session clock) :=
  (readsOnly_liveManager session clock).bind fun _ _ =>
    (readsOnly_staffCan _ _ _).bind fun _ _ => OnlyWrites.demand_last trivial

theorem readsOnly_assertMayGrant (session : Session) (now : Instant) :
    ReadsOnly (assertMayGrant session now) := by
  refine OnlyWrites.demand fun _ => (readsOnly_requireLiveSession session now).bind fun row _ => ?_
  refine OnlyWrites.demand fun _ => fun _ => OnlyWrites.demand fun _ => ?_
  exact (readsOnly_staffCan _ _ _).bind fun _ _ => OnlyWrites.demand_last trivial

end StaffAccess
