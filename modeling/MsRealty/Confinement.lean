import Mathlib.Data.Set.Finite.Basic
import MsRealty.Authz

/-!
# Clients are confined to what names them

What may back a client's access to a record: a live grant row that is scoped
to it, or a live relationship that confers the capability – then one of the
client portal – and names it. A grant or a relationship *names* a resource if
its id is the id of the record, of its case, or of the property a property or
listing belongs to.

A scope drops an empty string (`scopedTo`), so a scope whose id is not empty
reaches only what it names (`names_of_reaches`), and one whose id is empty
reaches every record of its type. Grant rows without an id are filtered out;
the resources an invitation lists are not, which is the whole condition under
which clients are confined (`confined_iff`).
-/

namespace Authz

/-! ## What a scope reaches -/

/-- The type and id of everything a check on a resource is answered at. -/
def pointsOf (resource : Resource) : List (String × String) :=
  ((present resource.id).map (fun id => (resource.type, id))).toList
    ++ ((present resource.caseId).map (fun id => ("case", id))).toList
    ++ ((present resource.propertyId).filter
        (fun _ => resource.type ∈ propertyRecordTypes) |>.map
          (fun id => ("property", id))).toList

/-- **A target names a resource**: its id is the id of the record, its case or
its property, and its type, if it has one, is the type of that. -/
def Names (target : String × String) (resource : Resource) : Prop :=
  ∃ point ∈ pointsOf resource,
    target.snd = point.snd ∧ (target.fst = "" ∨ target.fst = point.fst)

theorem present_eq_some {s : Option String} {v : String} :
    present s = some v ↔ s = some v ∧ v ≠ "" := by
  simp [present, Option.filter_eq_some_iff]

/-- A context with an id is one of the resource's points. -/
theorem point_of_context {resource : Resource} {now : Instant} {ctx : CapabilityContext}
    {id : String} (h : ctx ∈ contextsFor (some resource) now)
    (hid : ctx.recordId = some id) :
    ∃ type, ctx.recordType = some type ∧ (type, id) ∈ pointsOf resource := by
  simp only [contextsFor, List.mem_append, List.mem_cons, Option.mem_toList,
    Option.map_eq_some_iff] at h
  simp only [pointsOf, List.mem_append, Option.mem_toList, Option.map_eq_some_iff]
  obtain (rfl | ⟨case, hcase, rfl⟩) | ⟨property, hproperty, rfl⟩ := h
  · exact ⟨resource.type, rfl, Or.inl (Or.inl ⟨id, hid, rfl⟩)⟩
  · obtain rfl := Option.some.inj hid
    exact ⟨"case", rfl, Or.inl (Or.inr ⟨case, hcase, rfl⟩)⟩
  · obtain rfl := Option.some.inj hid
    exact ⟨"property", rfl, Or.inr ⟨property, hproperty, rfl⟩⟩

/-- What a limit demands of the string that is asked for. -/
theorem scopeCovers_present {limit asked : Option String} :
    scopeCovers (present limit) asked = true
      ↔ ∀ v, limit = some v → v ≠ "" → asked = some v := by
  cases hp : present limit with
  | none =>
    refine ⟨fun _ v hv hne => ?_, fun _ => rfl⟩
    rw [present_eq_some.mpr ⟨hv, hne⟩] at hp
    exact absurd hp (by simp)
  | some v =>
    obtain ⟨rfl, hne⟩ := present_eq_some.mp hp
    simp [scopeCovers, hne]

/-- **A grant scoped by `scopedTo`** gives what its fields reach: no scope at
all reaches everything, as a scope without fields does. -/
theorem gives_scopedTo (capability asked : Capability) (recordType recordId : Option String)
    (locales : Option (List PublicLocale)) (expiresAt : Option Instant)
    (ctx : CapabilityContext) :
    (CapabilityGrant.mk capability (scopedTo recordType recordId locales
        expiresAt)).gives asked ctx = true
      ↔ capability = asked
        ∧ (scopeFields recordType recordId locales expiresAt).reaches ctx = true := by
  unfold CapabilityGrant.gives scopedTo
  by_cases hempty : scopeFields recordType recordId locales expiresAt
      = ⟨none, none, none, none⟩
  · rw [if_pos hempty, hempty]
    simp [CapabilityScope.reaches, scopeCovers]
  · rw [if_neg hempty]
    simp

/-- **What the fields of a scope reach.** -/
theorem reaches_scopeFields {recordType recordId : Option String}
    {locales : Option (List PublicLocale)} {expiresAt : Option Instant}
    {ctx : CapabilityContext}
    (h : (scopeFields recordType recordId locales expiresAt).reaches ctx = true) :
    (∀ v, recordType = some v → v ≠ "" → ctx.recordType = some v)
      ∧ ∀ v, recordId = some v → v ≠ "" → ctx.recordId = some v := by
  simp only [scopeFields, CapabilityScope.reaches, Bool.and_eq_true] at h
  exact ⟨scopeCovers_present.mp h.1.1.2, scopeCovers_present.mp h.1.2⟩

/-- **A scope with an id reaches only what it names.** -/
theorem names_of_reaches {capability asked : Capability} {type : Option String}
    {id : String} {locales : Option (List PublicLocale)} {expiresAt : Option Instant}
    {resource : Option Resource} {now : Instant} {ctx : CapabilityContext} (hid : id ≠ "")
    (hctx : ctx ∈ contextsFor resource now)
    (h : (CapabilityGrant.mk capability (scopedTo type (some id) locales
      expiresAt)).gives asked ctx = true) :
    capability = asked ∧ ∃ r, resource = some r ∧ Names (type.getD "", id) r := by
  obtain ⟨hcapability, hreaches⟩ := (gives_scopedTo _ _ _ _ _ _ _).mp h
  obtain ⟨htype, hrecord⟩ := reaches_scopeFields hreaches
  refine ⟨hcapability, ?_⟩
  have hctxid := hrecord id rfl hid
  cases resource with
  | none =>
    obtain rfl := List.mem_singleton.mp hctx
    exact absurd hctxid (by simp)
  | some r =>
    obtain ⟨pointType, hpoint, hmem⟩ := point_of_context hctx hctxid
    refine ⟨r, rfl, (pointType, id), hmem, rfl, ?_⟩
    by_cases hempty : type.getD "" = ""
    · exact Or.inl hempty
    · cases type with
      | none => exact absurd rfl hempty
      | some t =>
        rw [htype t rfl hempty] at hpoint
        exact Or.inr (Option.some.inj hpoint)

/-! ## What backs a client's access -/

/-- The relationships of a client's party, while its account is active. -/
def liveRelationships (data : AuthzData) (id : Uuid) (now : Instant) :
    List Relationship :=
  match clientAccount data id with
  | none => []
  | some account => relationshipsOf data account.partyId now

/-- **What a relationship may confer**: a capability of the client portal, or
the submission of an inquiry. -/
def ClientCapability (capability : Capability) : Prop :=
  isPortal capability = true ∨ capability = .inquirySubmit

/-- **What backs a client's capability on a resource.** -/
inductive Backed (data : AuthzData) (id : Uuid) (now : Instant) (capability : Capability)
    (resource : Resource) : Prop
  /-- A live grant row of the client, scoped to a record it names. -/
  | grant (row : GrantRow) (record : Uuid) (hrow : row ∈ grantsOf data id now)
      (hrecord : row.recordId = some record) (hcapability : capability ∈ row.granted)
      (hnames : Names (row.recordType.getD "", record) resource)
  /-- A live relationship of the client's party, about a record it names. -/
  | relationship (rel : Relationship) (target : String × String)
      (hrel : rel ∈ liveRelationships data id now) (htarget : target ∈ rel.targets)
      (hcapability : capability ∈ rel.conferred) (hportal : ClientCapability capability)
      (hnames : Names target resource)

/-- **Client confinement**, for one client at one instant. -/
structure Confined (data : AuthzData) (id : Uuid) (now : Instant) : Prop where
  /-- Whatever is allowed is allowed on a record, and something backs it. -/
  backed : ∀ capability resource, can data ⟨.client, id⟩ capability resource now = true →
    ∃ r, resource = some r ∧ Backed data id now capability r
  /-- What a relationship grants is a capability of the client portal. -/
  portal : ∀ rel ∈ liveRelationships data id now, ∀ grant ∈ relationshipGrants rel,
    ClientCapability grant.capability
  /-- Nothing internal is allowed. -/
  internal : ∀ capability resource, resource.audience = some .internal →
    can data ⟨.client, id⟩ capability (some resource) now = false

/-- **The resources of the client's invitations have ids**: in every live
relationship that grants anything. -/
def InvitationsHaveIds (data : AuthzData) (id : Uuid) (now : Instant) : Prop :=
  ∀ rel ∈ liveRelationships data id now, rel.usable = true →
    ∀ target ∈ rel.targets, target.snd ≠ ""

/-! ## Relationships confer portal capabilities -/

theorem clientCapability_verifiedClient :
    ∀ c ∈ rolePresets .verifiedClient, ClientCapability c := by
  unfold ClientCapability
  decide

theorem isPortal_invitedRolePresets (role : ParticipantRole) {floor : List Capability}
    (h : invitedRolePresets role = some floor) : ∀ c ∈ floor, isPortal c = true := by
  cases role <;> simp only [invitedRolePresets, Option.some.injEq, reduceCtorEq] at h <;>
    subst h <;> decide

/-- **Whatever was invited, a relationship confers portal capabilities.** -/
theorem clientCapability_relationshipCapabilities {role : ParticipantRole}
    {reviewed : Bool} {invited : List Capability} {c : Capability}
    (h : c ∈ relationshipCapabilities role reviewed invited) : ClientCapability c := by
  unfold relationshipCapabilities at h
  split at h
  · next floor hfloor =>
    obtain h | h := List.mem_append.mp h
    · exact Or.inl (isPortal_invitedRolePresets role hfloor c h)
    · have hportal := (List.mem_filter.mp h).2
      rw [Bool.and_eq_true] at hportal
      exact Or.inl hportal.1
  · exact clientCapability_verifiedClient c (List.mem_filter.mp h).1

/-- **Every relationship lets its party read its case.** -/
theorem portalCaseRead_mem_conferred (rel : Relationship) :
    Capability.portalCaseRead ∈ rel.conferred := by
  unfold Relationship.conferred relationshipCapabilities
  cases rel.role <;> simp [invitedRolePresets, rolePresets]

/-- What a relationship grants, it confers on one of its targets. -/
theorem mem_relationshipGrants {rel : Relationship} {grant : CapabilityGrant} :
    grant ∈ relationshipGrants rel ↔ rel.usable = true ∧ ∃ target ∈ rel.targets,
      ∃ c ∈ rel.conferred,
        (⟨c, scopedTo (some target.fst) (some target.snd) none rel.expiresAt⟩
          : CapabilityGrant) = grant := by
  unfold relationshipGrants
  split
  · next husable => simp [husable]
  · next husable => simp [husable]

/-! ## The law -/

/-- A client's grants: what its grant rows with an id expand to, and what its
relationships grant. -/
theorem mem_resolveGrants_client {data : AuthzData} {id : Uuid} {now : Instant}
    {grant : CapabilityGrant} (h : grant ∈ resolveGrants data ⟨.client, id⟩ now) :
    (∃ row ∈ grantsOf data id now, ∃ record, row.recordId = some record ∧ record ≠ ""
        ∧ grant ∈ expandGrant row)
      ∨ ∃ rel ∈ liveRelationships data id now, grant ∈ relationshipGrants rel := by
  dsimp only [resolveGrants] at h
  unfold liveRelationships
  cases haccount : clientAccount data id with
  | none =>
    rw [haccount] at h
    exact absurd h List.not_mem_nil
  | some account =>
    rw [haccount] at h
    obtain h | h := List.mem_append.mp h
    · obtain ⟨row, hrow, hgrant⟩ := List.mem_flatMap.mp h
      obtain ⟨hrow, hrecord⟩ := List.mem_filter.mp hrow
      obtain ⟨record, hpresent⟩ := Option.isSome_iff_exists.mp hrecord
      obtain ⟨hrecord, hne⟩ := present_eq_some.mp hpresent
      exact Or.inl ⟨row, hrow, record, hrecord, hne, hgrant⟩
    · obtain ⟨rel, hrel, hgrant⟩ := List.mem_flatMap.mp h
      exact Or.inr ⟨rel, hrel, hgrant⟩

/-- **Confinement**, once every invited resource has an id. -/
theorem backed_of_invitationsHaveIds {data : AuthzData} {id : Uuid} {now : Instant}
    (hids : InvitationsHaveIds data id now) {capability : Capability}
    {resource : Option Resource}
    (h : can data ⟨.client, id⟩ capability resource now = true) :
    ∃ r, resource = some r ∧ Backed data id now capability r := by
  unfold can allows at h
  split_ifs at h
  obtain ⟨ctx, hctx, hhas⟩ := List.any_eq_true.mp h
  obtain ⟨grant, hgrant, hgives⟩ := exists_gives_of_hasCapability hhas
  obtain ⟨row, hrow, record, hrecord, hne, hexpand⟩ | ⟨rel, hrel, hmem⟩ :=
    mem_resolveGrants_client hgrant
  · obtain ⟨c, hc, rfl⟩ := List.mem_map.mp hexpand
    rw [hrecord] at hgives
    obtain ⟨rfl, r, hr, hnames⟩ := names_of_reaches hne hctx hgives
    exact ⟨r, hr, .grant row record hrow hrecord hc hnames⟩
  · obtain ⟨husable, target, htarget, c, hc, rfl⟩ := mem_relationshipGrants.mp hmem
    obtain ⟨rfl, r, hr, hnames⟩ :=
      names_of_reaches (hids rel hrel husable target htarget) hctx hgives
    exact ⟨r, hr, .relationship rel target hrel htarget hc
      (clientCapability_relationshipCapabilities hc) hnames⟩

/-- Nothing internal is allowed to a client. -/
theorem not_can_internal (data : AuthzData) (id : Uuid) (now : Instant)
    (capability : Capability) {resource : Resource}
    (h : resource.audience = some .internal) :
    can data ⟨.client, id⟩ capability (some resource) now = false := by
  unfold can allows
  rw [if_pos]
  simp [h, clientSideActors]

/-! ## The defect -/

/-- There is always another id. -/
theorem exists_fresh (ids : List String) : ∃ id, id ≠ "" ∧ id ∉ ids := by
  have hinj : Function.Injective (fun n => String.ofList (List.replicate (n + 1) 'a')) := by
    intro n m h
    have hlist := congrArg (List.length ∘ String.toList) h
    simpa using hlist
  obtain ⟨id, ⟨n, rfl⟩, hfresh⟩ :=
    (Set.infinite_range_of_injective hinj).exists_notMem_finset ids.toFinset
  refine ⟨_, fun hempty => ?_, fun hmem => hfresh (List.mem_toFinset.mpr hmem)⟩
  have hlist := congrArg (List.length ∘ String.toList) hempty
  simp at hlist

/-- The record of a fresh id an invitation without an id reaches. -/
def strayRecord (type id : String) : Resource where
  type := if type = "" then "case" else type
  id := some id
  locale := none
  caseId := none
  propertyId := none
  audience := none

theorem pointsOf_strayRecord {type id : String} {point : String × String}
    (h : point ∈ pointsOf (strayRecord type id)) : point.snd = id := by
  simp only [pointsOf, strayRecord, List.mem_append, Option.mem_toList,
    Option.map_eq_some_iff, Option.filter_eq_some_iff, present_eq_some] at h
  obtain (⟨_, ⟨hid, -⟩, rfl⟩ | ⟨_, ⟨hid, -⟩, rfl⟩) | ⟨_, ⟨⟨hid, -⟩, -⟩, rfl⟩ := h
  · exact (Option.some.inj hid).symm
  · exact absurd hid (by simp)
  · exact absurd hid (by simp)

/-- A live relationship has not expired. -/
theorem unexpired_of_liveRelationships {data : AuthzData} {id : Uuid} {now : Instant}
    {rel : Relationship} (h : rel ∈ liveRelationships data id now) :
    unexpired rel.expiresAt now = true := by
  unfold liveRelationships at h
  split at h
  · exact absurd h List.not_mem_nil
  · have hlive := (List.mem_filter.mp h).2
    simp only [liveRelationship, Bool.and_eq_true] at hlive
    exact hlive.2.2

/-- A client holds what its live relationships grant. -/
theorem mem_resolveGrants_of_relationship {data : AuthzData} {id : Uuid} {now : Instant}
    {rel : Relationship} {grant : CapabilityGrant}
    (hrel : rel ∈ liveRelationships data id now) (h : grant ∈ relationshipGrants rel) :
    grant ∈ resolveGrants data ⟨.client, id⟩ now := by
  unfold liveRelationships at hrel
  dsimp only [resolveGrants]
  cases haccount : clientAccount data id with
  | none =>
    rw [haccount] at hrel
    exact absurd hrel List.not_mem_nil
  | some account =>
    rw [haccount] at hrel
    exact List.mem_append_right _ (List.mem_flatMap.mpr ⟨rel, hrel, h⟩)

/-- **An invited resource without an id reaches every record of its type.** -/
theorem can_strayRecord {data : AuthzData} {id : Uuid} {now : Instant} {rel : Relationship}
    {target : String × String} (hrel : rel ∈ liveRelationships data id now)
    (husable : rel.usable = true) (htarget : target ∈ rel.targets) (hempty : target.snd = "")
    (record : String) (hrecord : record ≠ "") :
    can data ⟨.client, id⟩ .portalCaseRead (some (strayRecord target.fst record)) now
      = true := by
  have hgrant : (⟨.portalCaseRead, scopedTo (some target.fst) (some target.snd) none
      rel.expiresAt⟩ : CapabilityGrant) ∈ relationshipGrants rel :=
    mem_relationshipGrants.mpr ⟨husable, target, htarget, _,
      portalCaseRead_mem_conferred rel, rfl⟩
  have hctx : (⟨some (strayRecord target.fst record).type, some record, none, some now⟩
      : CapabilityContext) ∈ contextsFor (some (strayRecord target.fst record)) now := by
    simp [contextsFor, strayRecord, present, Option.filter, hrecord]
  have hexpiry := unexpired_of_liveRelationships hrel
  unfold can allows
  rw [if_neg (by simp [strayRecord])]
  refine List.any_eq_true.mpr ⟨_, hctx, ?_⟩
  refine hasCapability_of_gives (by simp)
    (mem_resolveGrants_of_relationship hrel hgrant) ?_
  refine (gives_scopedTo _ _ _ _ _ _ _).mpr ⟨rfl, ?_⟩
  rw [hempty]
  simp only [scopeFields, CapabilityScope.reaches, Bool.and_eq_true, scopeCovers_present]
  refine ⟨⟨⟨?_, fun v hv hne => ?_⟩, fun v hv hne => ?_⟩, rfl⟩
  · revert hexpiry
    cases rel.expiresAt <;> simp [unexpired]
  · obtain rfl := Option.some.inj hv
    simp [strayRecord, hne]
  · exact absurd (Option.some.inj hv).symm hne

/-- The ids that rows and invitations name. -/
def namedIds (data : AuthzData) (id : Uuid) (now : Instant) : List String :=
  (grantsOf data id now).filterMap GrantRow.recordId
    ++ (liveRelationships data id now).flatMap (fun rel => rel.targets.map Prod.snd)

/-- What is backed has an id that is named. -/
theorem mem_namedIds_of_backed {data : AuthzData} {id : Uuid} {now : Instant}
    {capability : Capability} (type record : String)
    (h : Backed data id now capability (strayRecord type record)) :
    record ∈ namedIds data id now := by
  cases h with
  | grant row named hrow hrecord _ hnames =>
    obtain ⟨point, hpoint, hsame, -⟩ := hnames
    rw [← pointsOf_strayRecord hpoint, ← hsame]
    exact List.mem_append_left _ (List.mem_filterMap.mpr ⟨row, hrow, hrecord⟩)
  | relationship rel target hrel htarget _ _ hnames =>
    obtain ⟨point, hpoint, hsame, -⟩ := hnames
    rw [← pointsOf_strayRecord hpoint, ← hsame]
    exact List.mem_append_right _ (List.mem_flatMap.mpr
      ⟨rel, hrel, List.mem_map_of_mem htarget⟩)

/-- **When clients are confined.** A client is confined exactly when no live
relationship of its party that grants anything lists a resource without an
id. -/
theorem confined_iff (data : AuthzData) (id : Uuid) (now : Instant) :
    Confined data id now ↔ InvitationsHaveIds data id now := by
  refine ⟨fun h rel hrel husable target htarget hempty => ?_, fun h => ?_⟩
  · obtain ⟨record, hne, hfresh⟩ := exists_fresh (namedIds data id now)
    obtain ⟨r, hr, hbacked⟩ := h.backed _ _
      (can_strayRecord hrel husable htarget hempty record hne)
    obtain rfl := Option.some.inj hr
    exact hfresh (mem_namedIds_of_backed _ _ hbacked)
  · refine ⟨fun capability resource => backed_of_invitationsHaveIds h,
      fun rel _ grant hgrant => ?_,
      fun capability resource => not_can_internal data id now capability⟩
    obtain ⟨-, target, -, c, hc, rfl⟩ := mem_relationshipGrants.mp hgrant
    exact clientCapability_relationshipCapabilities hc

/-- A client whose invitation lists a case without an id. -/
def strayData : AuthzData where
  principals := [⟨"client", .client, "party", .active⟩]
  memberships := []
  grants := []
  participants :=
    [⟨"own case", "party", .buyer, .notClaimed,
      .obj [("resources", .arr [.obj [("type", .str "case"), ("id", .str "")]])],
      0, none, none⟩]
  propertyLinks := []

/-- **The invited case without an id reaches another client's case.** -/
theorem not_confined_strayData :
    can strayData ⟨.client, "client"⟩ .portalCaseRead
        (some ⟨"case", some "another case", none, none, none, none⟩) 1 = true
      ∧ ¬ Confined strayData "client" 1 := by
  have hcan : can strayData ⟨.client, "client"⟩ .portalCaseRead
      (some ⟨"case", some "another case", none, none, none, none⟩) 1 = true := by
    decide +kernel
  refine ⟨hcan, fun h => ?_⟩
  obtain ⟨r, hr, hbacked⟩ := h.backed _ _ hcan
  obtain rfl := Option.some.inj hr
  have hmem : "another case" ∈ namedIds strayData "client" 1 :=
    mem_namedIds_of_backed "case" "another case" hbacked
  revert hmem
  decide +kernel

end Authz
