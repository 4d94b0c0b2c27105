import MsRealty.Confinement
import MsRealty.IsoDatetime
import MsRealty.Submissions
import MsRealty.Table

/-!
# Granting access

Grants of single capabilities to staff, and their revocation
(`src/server/auth/grants.ts`). Who holds `access.grant` everywhere grants
anything; anyone else grants only within a record, and only what a live grant of
theirs covers: the capability, each language, and the time.

The session, the passkeys and the clock are *findings* of a call. The clock is
read again for each step of a check, so its readings may differ. What the
commands record in the audit has no reader here and is left out.
-/

namespace Access

open Authz

/-! ## The tables -/

/-- The text the database has of a uuid. -/
def canonicalUuid (id : String) : String := String.ofList (id.toList.map Char.toLower)

theorem canonicalUuid_canonicalUuid (id : String) :
    canonicalUuid (canonicalUuid id) = canonicalUuid id := by
  have hlower : Char.toLower ∘ Char.toLower = Char.toLower := by
    funext c
    show c.toLower.toLower = c.toLower
    unfold Char.toLower
    split <;> grind [UInt32.toNat_add]
  rw [canonicalUuid, canonicalUuid, String.toList_ofList, List.map_map, hlower]

/-- **A grant**, with who gave it. The id of its record is a uuid column. -/
structure StoredGrant extends GrantRow where
  id : Uuid
  version : ℕ
  grantedById : Option Uuid
  reason : String
  canonical : recordId.map canonicalUuid = recordId

/-- **The tables of access.** -/
structure AccessData where
  principals : List Principal
  memberships : List StaffMembership
  grants : Table Uuid StoredGrant StoredGrant.id
  participants : List CaseParticipant
  propertyLinks : List PropertyRelationship

/-- What authorization reads of the tables. -/
def AccessData.authz (data : AccessData) : AuthzData where
  principals := data.principals
  memberships := data.memberships
  grants := data.grants.rows.map StoredGrant.toGrantRow
  participants := data.participants
  propertyLinks := data.propertyLinks

/-! ## Scopes -/

/-- `settingsResources`. -/
def settingsResources : List String :=
  ["00000000-0000-4000-8000-000000000024", "00000000-0000-4000-8000-000000000026",
    "00000000-0000-4000-8000-000000000029"]

/-- `settingsScopeCapabilities`. -/
def settingsScopeCapabilities : List Capability :=
  [.accessGrant, .settingsManage, .privacyManage, .claimApprove]

/-- **What a grant is narrowed to**, as it is asked for. -/
structure Scope where
  recordType : Option String
  recordId : Option String
  locales : Option (List PublicLocale)
  expiresAt : Option String

/-- The locales that narrow a scope. -/
def Scope.narrowing (scope : Scope) : Option (List PublicLocale) :=
  scope.locales.filter (fun locales => locales ≠ [])

/-- **`scopeSchema`.** -/
def Scope.isValid (isUuid : String → Bool) (scope : Scope) : Bool :=
  scope.recordType.all (fun type => type ∈ ["document", "listing", "property", "case", "settings"])
    && scope.recordId.all isUuid
    && scope.locales.all (fun locales => locales.length ≤ 7)
    && scope.expiresAt.all (fun text => (IsoInstant.datetime text.toList).isSome)
    && (present scope.recordId).isSome == (present scope.recordType).isSome
    && (scope.recordType ≠ some "settings"
      || (scope.recordId.any (fun id => id ∈ settingsResources) && scope.narrowing.isNone))

/-! ## Authority -/

/-- **What a call finds** outside its tables: what the check of the session
refuses, the passkeys and absences of staff, what the database draws, and the
clock, as it is read each time in each check of authority. -/
structure Findings where
  live : Option (Thrown JsonValue)
  passkeys : Uuid → ℕ
  absent : Uuid → Bool
  clocks : ℕ → ℕ → Instant
  now : Instant
  freshId : Uuid

/-- `staffPasskeyMinimum`. -/
def staffPasskeyMinimum : ℕ := 1

/-- **`liveManager`.** -/
def liveManager (found : Findings) (actor : Actor) : Tx Unit := do
  Tx.refuse found.live
  Tx.demand (actor.kind = .staff ∧ staffPasskeyMinimum ≤ found.passkeys actor.id)
    (Tx.ofCode .forbidden)
  .ok ()

/-- Whether a grant outlasts what is asked for. The texts of instants are
compared, as strings. -/
def outlasts (grant : CapabilityGrant) (expiresAt : Option String) : Bool :=
  match grant.scope.bind CapabilityScope.expiresAt with
  | none => true
  | some limit => expiresAt.any (fun text => decide (text.toList ≤ IsoInstant.toISOText limit))

/-- The contexts in which authority over a scope is checked: one for each
locale, or one without. -/
def Scope.contexts (scope : Scope) (clock : ℕ → Instant) : List CapabilityContext :=
  match scope.narrowing with
  | some locales => locales.zipIdx.map
      (fun p => ⟨scope.recordType, scope.recordId, some p.fst, some (clock (p.snd + 2))⟩)
  | none => [⟨scope.recordType, scope.recordId, none, some (clock 2)⟩]

/-- Whether one of the grants permits what is needed. -/
def permitted (actor : Actor) (owned : List CapabilityGrant) (needed : Capability)
    (context : CapabilityContext) (scope : Scope) (creating : Bool) : Bool :=
  owned.any (fun grant => hasCapability actor [grant] needed context
    && (!creating || outlasts grant scope.expiresAt))

/-- **`authority`**: who may grant everywhere has it; anyone else has it over a
record, if for each context a live grant permits granting, and a live grant
what is granted. -/
def authority (data : AccessData) (found : Findings) (actor : Actor) (clock : ℕ → Instant)
    (scope : Scope) (capability : Capability) (creating : Bool) : Tx Unit := do
  liveManager found actor
  if can data.authz actor .accessGrant none (clock 0) = true then .ok ()
  else
    Tx.demand ((present scope.recordType).isSome ∧ (present scope.recordId).isSome)
      (Tx.ofCode .forbidden)
    let owned := resolveGrants data.authz actor (clock 1)
    Tx.demand (∀ context ∈ scope.contexts clock, ∀ needed ∈ [Capability.accessGrant, capability],
      permitted actor owned needed context scope creating = true) (Tx.ofCode .forbidden)
    .ok ()

/-! ## Granting -/

/-- The input of a grant. -/
structure GrantInput where
  operationId : String
  principalId : Uuid
  capability : Capability
  reason : String
  scope : Scope

/-- The input of a grant, as its schema leaves it. -/
def GrantInput.parse (schemas : Tx.Schemas) (raw : GrantInput) : Option GrantInput :=
  let input : GrantInput := { raw with reason := schemas.trim raw.reason }
  if Tx.textWithin 8 160 input.operationId && schemas.isUuid input.principalId
      && Tx.textWithin 10 1000 input.reason && input.scope.isValid schemas.isUuid
      && (input.scope.recordType ≠ some "settings"
        || input.capability ∈ settingsScopeCapabilities) then some input
  else none

/-- **The row of a new grant.** -/
def GrantInput.row (input : GrantInput) (id : Uuid) (grantor : Actor) : StoredGrant where
  principalId := some input.principalId
  serviceName := none
  role := none
  capability := some input.capability
  recordType := input.scope.recordType
  recordId := input.scope.recordId.map canonicalUuid
  locales := input.scope.narrowing
  expiresAt := input.scope.expiresAt.bind (fun text => IsoInstant.datetime text.toList)
  revokedAt := none
  id := id
  version := 1
  grantedById := some grantor.id
  reason := input.reason
  canonical := by
    rw [Option.map_map]
    exact congrArg (input.scope.recordId.map ·) (funext canonicalUuid_canonicalUuid)

/-- **`grantStaffCapability`**, in its transaction. -/
def grantStaffCapability (input : GrantInput) (found : Findings) (context : OperationContext)
    (data : AccessData) : Tx (JsonValue × AccessData) := do
  authority data found context.actor (found.clocks 0) input.scope input.capability true
  Tx.demand (activeStaff data.authz input.principalId = true) (Tx.ofCode .notFound)
  let row := input.row found.freshId context.actor
  let grants ← Tx.found (data.grants.insert? row) .other
  .ok (.obj [("grantId", .str row.id), ("principalId", .str input.principalId)],
    { data with grants := grants })

/-! ## Revoking -/

/-- The input of a revocation. -/
structure RevokeInput where
  operationId : String
  grantId : Uuid
  expectedRevision : ℕ
  reason : String

/-- The input of a revocation, as its schema leaves it. -/
def RevokeInput.parse (schemas : Tx.Schemas) (raw : RevokeInput) : Option RevokeInput :=
  let input : RevokeInput := { raw with reason := schemas.trim raw.reason }
  if Tx.textWithin 8 160 input.operationId && schemas.isUuid input.grantId
      && 0 < input.expectedRevision && Tx.textWithin 10 1000 input.reason then some input
  else none

/-- The scope of a grant there is. -/
def StoredGrant.scope (grant : StoredGrant) : Scope where
  recordType := grant.recordType
  recordId := grant.recordId
  locales := grant.locales
  expiresAt := grant.expiresAt.map (fun t => String.ofList (IsoInstant.toISOText t))

/-- A grant that is revoked. -/
def StoredGrant.revoked (grant : StoredGrant) (now : Instant) : StoredGrant :=
  { grant with revokedAt := some now, version := grant.version + 1 }

/-- **`ensureUsableManager`**: someone who is not absent may grant everywhere,
and can sign in. -/
def usableManager (data : AccessData) (found : Findings) : Bool :=
  data.principals.any (fun person => activeStaff data.authz person.id
    && !found.absent person.id
    && can data.authz ⟨.staff, person.id⟩ .accessGrant none found.now
    && staffPasskeyMinimum ≤ found.passkeys person.id)

/-- **`revokeStaffGrant`**, in its transaction; `existing` is the grant as it
was read before. -/
def revokeStaffGrant (input : RevokeInput) (existing : StoredGrant) (found : Findings)
    (context : OperationContext) (data : AccessData) : Tx (JsonValue × AccessData) := do
  let principalId ← Tx.found existing.principalId (Tx.ofCode .notFound)
  Tx.refuse ((existing.granted.zipIdx.map (fun p => authority data found context.actor
    (found.clocks p.snd) existing.scope p.fst false)).findSome? (fun check =>
      match check with
      | .ok () => none
      | .error error => some error))
  let grant ← Tx.found ((data.grants.get? input.grantId).filter
    (fun grant => grant.revokedAt.isNone && grant.version = input.expectedRevision))
    (Tx.ofCode .versionConflict)
  let revoked := { data with grants := data.grants.put (grant.revoked found.now) }
  Tx.demand (usableManager revoked found = true)
    (.appError ⟨.transitionDenied, ErrorCode.transitionDenied.outcome, none, none⟩)
  .ok (.obj [("grantId", .str grant.id), ("principalId", .str principalId)], revoked)

end Access
