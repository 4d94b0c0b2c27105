import MsRealty.AccessGrants

/-!
# Delegated access

What a grant gives is narrowed in four ways: to a record, to languages, in time
and to one capability. A grantor who may not grant everywhere gives no more
than grants of their own do (`exists_parent`): for each of the four, the grant
that permitted it is no narrower.
-/

namespace Access

open Authz

variable {data data' : AccessData} {found : Findings} {actor : Actor} {clock : ℕ → Instant}
  {scope : Scope} {capability : Capability} {context : CapabilityContext}

/-! ## What a grant gives -/

/-- **What a grant of the table gives.** -/
def StoredGrant.Gives (grant : StoredGrant) (capability : Capability)
    (context : CapabilityContext) : Prop :=
  ∃ g ∈ expandGrant grant.toGrantRow, g.gives capability context = true

/-- The scope of a row reaches a context. -/
structure Reaches (row : GrantRow) (context : CapabilityContext) : Prop where
  recordType : ∀ v, row.recordType = some v → v ≠ "" → context.recordType = some v
  recordId : ∀ v, row.recordId = some v → v ≠ "" → context.recordId = some v
  locale : ∀ locales, row.locales = some locales → locales ≠ [] →
    ∃ locale ∈ locales, context.locale = some locale
  time : ∀ expiry, row.expiresAt = some expiry → ∃ now, context.now = some now ∧ now < expiry

/-- What a scope reaches, field by field. -/
theorem scope_reaches_iff {s : CapabilityScope} : s.reaches context = true ↔
    (((∀ expiry, s.expiresAt = some expiry → ∃ now, context.now = some now ∧ now < expiry) ∧
      scopeCovers s.recordType context.recordType = true) ∧
      scopeCovers s.recordId context.recordId = true) ∧
      ∀ locales, s.locales = some locales → ∃ locale ∈ locales, context.locale = some locale := by
  unfold CapabilityScope.reaches
  simp only [Bool.and_eq_true]
  refine and_congr (and_congr (and_congr ?_ Iff.rfl) Iff.rfl) ?_
  · cases s.expiresAt with
    | none => simp
    | some expiry => cases context.now <;> simp
  · cases s.locales with
    | none => simp
    | some locales => cases context.locale <;> simp

/-- **What the fields of a row reach**, each on its own. -/
theorem reaches_iff {row : GrantRow} : (scopeFields row.recordType row.recordId row.locales
    row.expiresAt).reaches context = true ↔ Reaches row context := by
  rw [scope_reaches_iff]
  simp only [scopeFields, scopeCovers_present, Option.filter_eq_some_iff, decide_eq_true_eq]
  exact ⟨fun h => ⟨h.1.1.2, h.1.2, fun locales hl hne => h.2 locales ⟨hl, hne⟩, h.1.1.1⟩,
    fun h => ⟨⟨⟨h.time, h.recordType⟩, h.recordId⟩, fun locales hl => h.locale locales hl.1 hl.2⟩⟩

/-- **A grant gives** a capability of its own, where its scope reaches. -/
theorem gives_iff {grant : StoredGrant} : grant.Gives capability context ↔
    capability ∈ grant.granted ∧ Reaches grant.toGrantRow context := by
  unfold StoredGrant.Gives expandGrant
  simp only [List.mem_map, exists_exists_and_eq_and, gives_scopedTo, reaches_iff]
  refine ⟨?_, fun h => ⟨capability, h.1, rfl, h.2⟩⟩
  rintro ⟨_, hmem, rfl, hreaches⟩
  exact ⟨hmem, hreaches⟩

/-! ## Authority over a record -/

/-- **A live grant of a member of staff**: all it expands to is theirs. -/
structure Owned (data : AccessData) (actor : Actor) (now : Instant) (grant : StoredGrant) :
    Prop where
  mem : grant ∈ data.grants.rows
  principalId : grant.principalId = some actor.id
  live : liveGrant now grant.toGrantRow = true
  resolved : ∀ g ∈ expandGrant grant.toGrantRow, g ∈ resolveGrants data.authz actor now

/-- The grants a member of staff has are of rows they own. -/
theorem mem_resolveGrants_staff (hstaff : actor.kind = .staff) {now : Instant}
    {g : CapabilityGrant} (h : g ∈ resolveGrants data.authz actor now) :
    ∃ grant, Owned data actor now grant ∧ g ∈ expandGrant grant.toGrantRow := by
  have hresolve : resolveGrants data.authz actor now =
      if activeStaff data.authz actor.id then
        (grantsOf data.authz actor.id now).flatMap expandGrant else [] := by
    rw [resolveGrants, hstaff]
  rw [hresolve] at h
  split_ifs at h with hactive
  · obtain ⟨row, hrow, hg⟩ := List.mem_flatMap.mp h
    obtain ⟨hmem, hlive⟩ := List.mem_filter.mp hrow
    obtain ⟨grant, hgrant, rfl⟩ := List.mem_map.mp hmem
    rw [Bool.and_eq_true] at hlive
    refine ⟨grant, ⟨hgrant, of_decide_eq_true hlive.1, hlive.2, fun g hg => ?_⟩, hg⟩
    rw [hresolve, if_pos hactive]
    exact List.mem_flatMap.mpr ⟨_, hrow, hg⟩
  · exact absurd h List.not_mem_nil

theorem liveManager_eq_ok (h : liveManager found actor = .ok ()) : actor.kind = .staff := by
  simp only [liveManager, Tx.refuse_bind, Tx.demand_bind] at h
  exact h.2.1.1

/-- **Authority of one who may not grant everywhere** is permitted in each
context by a grant they own. -/
theorem authority_eq_ok (h : authority data found actor clock scope capability true = .ok ())
    (hlocal : can data.authz actor .accessGrant none (clock 0) = false) :
    actor.kind = .staff ∧ (present scope.recordType).isSome = true ∧
      (present scope.recordId).isSome = true ∧ ∀ context ∈ scope.contexts clock,
        permitted actor (resolveGrants data.authz actor (clock 1)) capability context scope true =
          true := by
  obtain ⟨⟨⟩, hmanager, h⟩ := Tx.bind_eq_ok.mp h
  rw [if_neg (by rw [hlocal]; exact Bool.false_ne_true)] at h
  simp only [Tx.demand_bind] at h
  obtain ⟨⟨htype, hid⟩, hpermitted, -⟩ := h
  exact ⟨liveManager_eq_ok hmanager, htype, hid, fun context hcontext =>
    hpermitted context hcontext capability (List.mem_cons_of_mem _ List.mem_cons_self)⟩

/-- The context in which what a scope reaches was checked. -/
theorem exists_context (scope : Scope) (clock : ℕ → Instant)
    (h : ∀ locales, scope.narrowing = some locales →
      ∃ locale ∈ locales, context.locale = some locale) :
    ∃ checked ∈ scope.contexts clock, checked.recordType = scope.recordType ∧
      checked.recordId = scope.recordId ∧ (checked.locale = none ∨
        checked.locale = context.locale) := by
  unfold Scope.contexts
  cases hnarrow : scope.narrowing with
  | none => exact ⟨_, List.mem_singleton.mpr rfl, rfl, rfl, .inl rfl⟩
  | some locales =>
    obtain ⟨locale, hlocale, hcontext⟩ := h locales hnarrow
    obtain ⟨i, hi, rfl⟩ := List.mem_iff_getElem.mp hlocale
    refine ⟨_, List.mem_map.mpr ⟨(locales[i], i), ?_, rfl⟩, rfl, rfl, .inr hcontext.symm⟩
    rw [List.mem_zipIdx_iff_getElem?]
    exact List.getElem?_eq_getElem hi

/-- **A grant that outlasts a text** does not end before its instant. -/
theorem le_of_outlasts {g : CapabilityGrant} {limit : Instant}
    (h : outlasts g scope.expiresAt = true)
    (hlimit : g.scope.bind CapabilityScope.expiresAt = some limit) :
    ∃ text, scope.expiresAt = some text ∧
      ∀ t, IsoInstant.datetime text.toList = some t → t ≤ limit := by
  unfold outlasts at h
  rw [hlimit] at h
  cases htext : scope.expiresAt with
  | none =>
    rw [htext] at h
    cases h
  | some text =>
    rw [htext] at h
    exact ⟨text, rfl, fun t ht => IsoInstant.le_of_text_le ht (of_decide_eq_true h)⟩

/-- A row that expires gives grants that do. -/
theorem expiresAt_of_mem_expandGrant {row : GrantRow} {g : CapabilityGrant} {expiry : Instant}
    (h : g ∈ expandGrant row) (hexpiry : row.expiresAt = some expiry) :
    g.scope.bind CapabilityScope.expiresAt = some expiry := by
  obtain ⟨c, -, rfl⟩ := List.mem_map.mp h
  have hfields : scopeFields row.recordType row.recordId row.locales row.expiresAt ≠
      ⟨none, none, none, none⟩ := by
    intro hnone
    have hexpires := congrArg CapabilityScope.expiresAt hnone
    rw [scopeFields, hexpiry] at hexpires
    cases hexpires
  rw [scopedTo, if_neg hfields]
  exact hexpiry

/-- What a schema accepts as the end of a scope is a date and time. -/
theorem Scope.exists_datetime {isUuid : String → Bool} (h : scope.isValid isUuid = true)
    {text : String} (htext : scope.expiresAt = some text) :
    ∃ t, IsoInstant.datetime text.toList = some t := by
  simp only [Scope.isValid, Bool.and_eq_true, htext, Option.all_some] at h
  exact Option.isSome_iff_exists.mp h.1.1.2

/-- **A delegated grant gives no more than its grantor's own**: what it gives is
given by a live grant of the grantor. -/
theorem exists_parent {input : GrantInput} {isUuid : String → Bool}
    (hvalid : input.scope.isValid isUuid = true)
    (h : authority data found actor clock input.scope input.capability true = .ok ())
    (hlocal : can data.authz actor .accessGrant none (clock 0) = false) {id : Uuid}
    (hgives : (input.row id actor).Gives capability context) :
    ∃ parent, Owned data actor (clock 1) parent ∧ parent.Gives capability context := by
  obtain ⟨hstaff, -, -, hpermitted⟩ := authority_eq_ok h hlocal
  obtain ⟨hgranted, hreaches⟩ := gives_iff.mp hgives
  obtain rfl : capability = input.capability := List.mem_singleton.mp hgranted
  obtain ⟨checked, hchecked, htype, hid, hlocale⟩ := exists_context input.scope clock
    (fun locales hl => hreaches.locale locales hl
      (of_decide_eq_true (Option.filter_eq_some_iff.mp hl).2))
  obtain ⟨g, hg, hpermits⟩ := List.any_eq_true.mp (hpermitted checked hchecked)
  rw [Bool.and_eq_true] at hpermits
  obtain ⟨_, hmem, hg'⟩ := exists_gives_of_hasCapability hpermits.1
  rw [List.mem_singleton.mp hmem] at hg'
  obtain ⟨parent, howned, hexpand⟩ := mem_resolveGrants_staff hstaff hg
  obtain ⟨hcapability, hreach⟩ := gives_iff.mp (⟨g, hexpand, hg'⟩ : parent.Gives _ checked)
  refine ⟨parent, howned, gives_iff.mpr ⟨hcapability, ?_, ?_, ?_, ?_⟩⟩
  · intro v hv hne
    exact hreaches.recordType v (htype.symm.trans (hreach.recordType v hv hne)) hne
  · intro v hv hne
    have hcanonical := parent.canonical
    rw [hv, Option.map_some] at hcanonical
    refine hreaches.recordId v ?_ hne
    show input.scope.recordId.map canonicalUuid = some v
    rw [← hid, hreach.recordId v hv hne, Option.map_some, hcanonical]
  · intro locales hl hne
    obtain ⟨locale, hmem, heq⟩ := hreach.locale locales hl hne
    obtain hnone | hsame := hlocale
    · rw [hnone] at heq
      cases heq
    · exact ⟨locale, hmem, hsame.symm.trans heq⟩
  · intro expiry hexpiry
    obtain ⟨text, htext, hle⟩ := le_of_outlasts (hpermits.2 : (!true || _) = true)
      (expiresAt_of_mem_expandGrant hexpand hexpiry)
    obtain ⟨t, ht⟩ := input.scope.exists_datetime hvalid htext
    have hends : (input.row id actor).expiresAt = some t := by
      show input.scope.expiresAt.bind (fun text => IsoInstant.datetime text.toList) = some t
      rw [htext, Option.bind_some, ht]
    obtain ⟨now, hnow, hlt⟩ := hreaches.time t hends
    exact ⟨now, hnow, lt_of_lt_of_le hlt (hle t ht)⟩

/-- What a delegated grant allows on a record, its grantor's grants allowed. -/
theorem allows_of_parent {grants : List CapabilityGrant} {grantee : Uuid} {row : StoredGrant}
    (hstaff : actor.kind = .staff)
    (h : ∀ c ctx, row.Gives c ctx → ∃ g ∈ grants, g.gives c ctx = true)
    {resource : Option Resource} {now : Instant}
    (hallows : allows ⟨.staff, grantee⟩ (expandGrant row.toGrantRow) capability resource now =
      true) : allows actor grants capability resource now = true := by
  have hinside : (.staff : ActorKind) ∉ clientSideActors := by decide
  unfold allows at hallows ⊢
  rw [hstaff]
  simp only [hinside, decide_false, Bool.and_false, Bool.false_eq_true, if_false] at hallows ⊢
  obtain ⟨context, hcontext, hhas⟩ := List.any_eq_true.mp hallows
  obtain ⟨g, hg, hgives⟩ := h capability context (exists_gives_of_hasCapability hhas)
  refine List.any_eq_true.mpr ⟨context, hcontext, ?_⟩
  exact hasCapability_of_gives (by rw [hstaff]; decide) hg hgives

end Access
