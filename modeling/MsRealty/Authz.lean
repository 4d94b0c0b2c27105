import MsRealty.Capabilities
import MsRealty.JsonValue

/-!
# Authorization over records

Capability checks over records (`src/server/authz.ts`). An actor's grants are
derived from what the database holds: role and capability grants, optionally
narrowed to a record, and – for a client – the participations in cases and the
relationships to properties of the client's party, each of which confers
capabilities on its own record or on the records its invitation lists. A check
asks whether some grant reaches the record, its case, or – for a property or a
listing – its property.
-/

/-- Who can see a private item. -/
inductive Audience where
  | internal
  | caseParticipants
  | specialist
  | publicAudience
  deriving DecidableEq

/-- The roles a party holds in a case or towards a property. -/
inductive ParticipantRole where
  | buyer
  | coBuyer
  | tenant
  | seller
  | landlord
  | authorizedRepresentative
  | adviser
  | collaborator
  | specialist
  | guest
  deriving DecidableEq

/-- The states of a claimed authority. -/
inductive AuthorityState where
  | notClaimed
  | selfDeclared
  | underReview
  | reviewed
  | rejected
  deriving DecidableEq

/-- The kinds of principal. -/
inductive PrincipalKind where
  | staff
  | client
  deriving DecidableEq

/-- The states of a principal. -/
inductive PrincipalStatus where
  | active
  | suspended
  | deactivated
  deriving DecidableEq

/-- **The record a check is about.** The ids of its parents let access to a
case or a property cover it. -/
structure Resource where
  type : String
  id : Option String
  locale : Option PublicLocale
  caseId : Option String
  propertyId : Option String
  audience : Option Audience

namespace Authz

/-! ## The rows -/

/-- An account. -/
structure Principal where
  id : Uuid
  kind : PrincipalKind
  partyId : Uuid
  status : PrincipalStatus

/-- A staff membership. -/
structure StaffMembership where
  principalId : Uuid
  /-- Whether its state is the active one. -/
  active : Bool

/-- A grant of a role or of one capability. -/
structure GrantRow where
  principalId : Option Uuid
  serviceName : Option String
  role : Option Role
  capability : Option Capability
  recordType : Option String
  recordId : Option Uuid
  locales : Option (List PublicLocale)
  expiresAt : Option Instant
  revokedAt : Option Instant

/-- **A party's relationship** to a case or to a property: the record it is
about, and what was agreed. -/
structure Relationship where
  partyId : Uuid
  /-- The case of a participation, or the property of a property link. -/
  target : String × Uuid
  role : ParticipantRole
  authority : AuthorityState
  /-- Resources and portal actions granted by invitation. -/
  scope : JsonValue
  validFrom : Instant
  expiresAt : Option Instant
  revokedAt : Option Instant

/-- A row of the case participants. -/
structure CaseParticipant where
  caseId : Uuid
  partyId : Uuid
  role : ParticipantRole
  authority : AuthorityState
  scope : JsonValue
  validFrom : Instant
  expiresAt : Option Instant
  revokedAt : Option Instant

/-- A participation is a relationship to its case. -/
def CaseParticipant.relationship (p : CaseParticipant) : Relationship where
  partyId := p.partyId
  target := ("case", p.caseId)
  role := p.role
  authority := p.authority
  scope := p.scope
  validFrom := p.validFrom
  expiresAt := p.expiresAt
  revokedAt := p.revokedAt

/-- A row of the property relationships. -/
structure PropertyRelationship where
  propertyId : Uuid
  partyId : Uuid
  role : ParticipantRole
  authority : AuthorityState
  scope : JsonValue
  validFrom : Instant
  expiresAt : Option Instant
  revokedAt : Option Instant

/-- A property link is a relationship to its property. -/
def PropertyRelationship.relationship (p : PropertyRelationship) : Relationship where
  partyId := p.partyId
  target := ("property", p.propertyId)
  role := p.role
  authority := p.authority
  scope := p.scope
  validFrom := p.validFrom
  expiresAt := p.expiresAt
  revokedAt := p.revokedAt

/-- **What authorization reads.** -/
structure AuthzData where
  principals : List Principal
  memberships : List StaffMembership
  grants : List GrantRow
  participants : List CaseParticipant
  propertyLinks : List PropertyRelationship

/-! ## What a relationship confers -/

/-- Records that belong to a property itself. -/
def propertyRecordTypes : List String := ["property", "listing"]

/-- The roles on the seller's side. -/
def sellerSideRoles : List ParticipantRole :=
  [.seller, .landlord, .authorizedRepresentative]

/-- Acting for a principal: only principals hold these. -/
def principalOnly : List Capability :=
  [.portalAccessRequest, .portalBriefAcknowledge, .portalProposalRespond,
    .portalListingAcknowledge]

/-- The floor of an invited party that is not a principal. -/
def invitedRolePresets : ParticipantRole → Option (List Capability)
  | .collaborator => some (rolePresets .invitedCollaborator)
  | .adviser => some (rolePresets .invitedCollaborator)
  | .guest => some [.portalCaseRead]
  | .specialist => some (rolePresets .externalSpecialist)
  | _ => none

/-- Whether a capability is one of the client portal. -/
def isPortal (capability : Capability) : Bool := startsWith capability.name "portal."

/-- **`relationshipCapabilities`**: the capabilities a relationship confers on
its case or property. -/
def relationshipCapabilities (role : ParticipantRole) (authorityReviewed : Bool)
    (invited : List Capability) : List Capability :=
  match invitedRolePresets role with
  | some floor =>
    floor ++ invited.filter (fun c => isPortal c && c ∉ principalOnly)
  | none =>
    (rolePresets .verifiedClient).filter (fun c =>
      (c ≠ .portalListingAcknowledge
          || (decide (role ∈ sellerSideRoles) && authorityReviewed))
        && (c ≠ .portalBriefAcknowledge
          || role ∈ [.buyer, .coBuyer, .tenant, .seller, .landlord]))

/-! ## Deriving grants -/

/-- A string that counts as true. -/
def present (s : Option String) : Option String := s.filter (fun s => s ≠ "")

/-- The fields of a scope: an empty string or list is left out. -/
def scopeFields (recordType recordId : Option String)
    (locales : Option (List PublicLocale)) (expiresAt : Option Instant) :
    CapabilityScope :=
  ⟨present recordType, present recordId, locales.filter (fun l => l ≠ []), expiresAt⟩

/-- **`scopedTo`**: a scope without any field is no scope. -/
def scopedTo (recordType recordId : Option String) (locales : Option (List PublicLocale))
    (expiresAt : Option Instant) : Option CapabilityScope :=
  if scopeFields recordType recordId locales expiresAt = ⟨none, none, none, none⟩ then none
  else some (scopeFields recordType recordId locales expiresAt)

/-- The capabilities a grant row gives. -/
def GrantRow.granted (row : GrantRow) : List Capability :=
  match row.role with
  | some role => rolePresets role
  | none => row.capability.toList

/-- `expandGrant`. -/
def expandGrant (row : GrantRow) : List CapabilityGrant :=
  row.granted.map (fun capability =>
    ⟨capability, scopedTo row.recordType row.recordId row.locales row.expiresAt⟩)

/-- Whether something that may expire has not. -/
def unexpired (expiresAt : Option Instant) (now : Instant) : Bool :=
  expiresAt.all (fun expiry => now < expiry)

/-- `liveGrant`. -/
def liveGrant (now : Instant) (row : GrantRow) : Bool :=
  row.revokedAt.isNone && unexpired row.expiresAt now

/-- Whether a relationship holds at an instant. -/
def liveRelationship (now : Instant) (rel : Relationship) : Bool :=
  rel.revokedAt.isNone && rel.validFrom ≤ now && unexpired rel.expiresAt now

/-- The items of a JSON array; nothing else has any. -/
def arrayItems? : JsonValue → Option (List JsonValue)
  | .arr items => some items
  | _ => none

/-- The capabilities an invitation lists. -/
def invitedCapabilities (scope : JsonValue) : List Capability :=
  match (scope.get? "capabilities").bind arrayItems? with
  | some items => (items.filterMap JsonValue.asString?).filterMap Capability.ofName?
  | none => []

/-- A resource an invitation lists: an object with a type and an id. -/
def invitedResource (item : JsonValue) : Option (String × String) := do
  let type ← (item.get? "type").bind JsonValue.asString?
  let id ← (item.get? "id").bind JsonValue.asString?
  some (type, id)

/-- The records a relationship is about: the resources its invitation lists,
or else its own record. -/
def Relationship.targets (rel : Relationship) : List (String × String) :=
  match (rel.scope.get? "resources").bind arrayItems? with
  | some items => items.filterMap invitedResource
  | none => [rel.target]

/-- The capabilities a relationship confers. -/
def Relationship.conferred (rel : Relationship) : List Capability :=
  relationshipCapabilities rel.role (rel.authority = .reviewed)
    (invitedCapabilities rel.scope)

/-- Whether a relationship grants anything: a specialist's access is
time-limited by definition. -/
def Relationship.usable (rel : Relationship) : Bool :=
  !(rel.role = .specialist && rel.expiresAt.isNone)

/-- **The grants of a relationship**: each capability it confers, on each of
its records. -/
def relationshipGrants (rel : Relationship) : List CapabilityGrant :=
  if rel.usable then
    rel.targets.flatMap (fun target => rel.conferred.map (fun capability =>
      ⟨capability, scopedTo (some target.fst) (some target.snd) none rel.expiresAt⟩))
  else []

/-- The account of a client: an active client principal. -/
def clientAccount (data : AuthzData) (id : Uuid) : Option Principal :=
  (data.principals.find? (fun p => p.id = id)).filter
    (fun p => p.status = .active && p.kind = .client)

/-- The relationships of a party at an instant. -/
def relationshipsOf (data : AuthzData) (partyId : Uuid) (now : Instant) :
    List Relationship :=
  (data.participants.map CaseParticipant.relationship
      ++ data.propertyLinks.map PropertyRelationship.relationship).filter
    (fun rel => rel.partyId = partyId && liveRelationship now rel)

/-- The live grant rows of a principal. -/
def grantsOf (data : AuthzData) (id : Uuid) (now : Instant) : List GrantRow :=
  data.grants.filter (fun row => row.principalId = some id && liveGrant now row)

/-- Whether a staff account is active, and its membership too. -/
def activeStaff (data : AuthzData) (id : Uuid) : Bool :=
  (data.principals.find? (fun p => p.id = id)).any
      (fun p => p.status = .active && p.kind = .staff)
    && (data.memberships.find? (fun m => m.principalId = id)).any StaffMembership.active

/-- **`resolveGrants`**: every grant the actor holds now. -/
def resolveGrants (data : AuthzData) (actor : Actor) (now : Instant) :
    List CapabilityGrant :=
  match actor.kind with
  | .visitor => (rolePresets .visitor).map (fun capability => ⟨capability, none⟩)
  | .system => (systemJobCapabilities actor.id).map (fun capability => ⟨capability, none⟩)
  | .aiService =>
    (data.grants.filter (fun row =>
      row.serviceName = some actor.id && liveGrant now row)).flatMap expandGrant
  | .staff =>
    if activeStaff data actor.id then (grantsOf data actor.id now).flatMap expandGrant
    else []
  | .client =>
    match clientAccount data actor.id with
    | none => []
    | some account =>
      -- client grants are always record-scoped
      ((grantsOf data actor.id now).filter
          (fun row => (present row.recordId).isSome)).flatMap expandGrant
        ++ (relationshipsOf data account.partyId now).flatMap relationshipGrants

/-! ## Checking -/

/-- The records a check is answered at: the record itself, its case, and its
property if it belongs to one. -/
def contextsFor (resource : Option Resource) (now : Instant) : List CapabilityContext :=
  match resource with
  | none => [⟨none, none, none, some now⟩]
  | some r =>
    ⟨some r.type, present r.id, r.locale, some now⟩
      :: ((present r.caseId).map
          (fun id => (⟨some "case", some id, r.locale, some now⟩ : CapabilityContext))).toList
      ++ ((present r.propertyId).filter (fun _ => r.type ∈ propertyRecordTypes) |>.map
          (fun id => (⟨some "property", some id, r.locale, some now⟩
            : CapabilityContext))).toList

/-- The kinds of actor on the client's side. -/
def clientSideActors : List ActorKind := [.client, .visitor]

/-- **`allows`**: whether some grant reaches the resource. -/
def allows (actor : Actor) (grants : List CapabilityGrant) (capability : Capability)
    (resource : Option Resource) (now : Instant) : Bool :=
  if resource.bind Resource.audience = some .internal && actor.kind ∈ clientSideActors
  then false
  else (contextsFor resource now).any (fun ctx => hasCapability actor grants capability ctx)

/-- **`can`**: whether the actor may use the capability on the resource now. -/
def can (data : AuthzData) (actor : Actor) (capability : Capability)
    (resource : Option Resource) (now : Instant) : Bool :=
  allows actor (resolveGrants data actor now) capability resource now

/-- **`grantsFor`**: the actor's grants that reach a resource, restated as
grants on the record itself. -/
def grantsFor (data : AuthzData) (actor : Actor) (resource : Resource) (now : Instant) :
    List CapabilityGrant :=
  ((resolveGrants data actor now).filter (fun grant =>
      allows actor [grant] grant.capability (some resource) now)).map
    (fun grant =>
      ⟨grant.capability,
        (grant.scope.bind CapabilityScope.locales).map
          (fun locales => ⟨none, none, some locales, none⟩)⟩)

end Authz
