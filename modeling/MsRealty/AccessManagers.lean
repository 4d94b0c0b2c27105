import MsRealty.StaffCommands

/-!
# The agency keeps a usable access manager

A usable access manager is an active member of staff to whom `access.grant` is
allowed without scope by a grant that does not expire, and who has a passkey. The
commands of access managers interleave statement by statement.

The check for a usable manager is made under the lock of the management of
capabilities and of every principal of staff, so what it finds still holds when
its command commits (`Safe.ensureUsableManager`). It finds a manager whose grant may
expire, though; and a recovery checks its actor before it takes any lock. Two
managers who recover each other at once leave none (`not_usable_of_recoveries`).
Where each commit meets the condition `Lasts`, one is left in every state
(`usable_of_reachableIf`).
-/

namespace StaffAccess

open RowLocks Authz Access Sessions

/-! ## Managers -/

/-- The context of no record and no language. -/
def everywhere (now : Instant) : CapabilityContext := ⟨none, none, none, some now⟩

/-- A grant in force at an instant that gives `access.grant` without scope. -/
def InForce (now : Instant) (row : StoredGrant) : Prop :=
  liveGrant now row.toGrantRow = true
    ∧ ∃ grant ∈ expandGrant row.toGrantRow, grant.gives .accessGrant (everywhere now) = true

/-- A grant that gives it without an end. -/
def Permanent (row : StoredGrant) : Prop :=
  row.revokedAt = none ∧ (⟨.accessGrant, none⟩ : CapabilityGrant) ∈ expandGrant row.toGrantRow

/-- **A usable access manager.** -/
def UsableManager (data : StaffData) (id : Uuid) : Prop :=
  activeStaff data.authz id = true
    ∧ (∃ row ∈ data.grants.rows, row.principalId = some id ∧ Permanent row)
    ∧ data.activePasskeys id ≠ []

theorem scopedTo_expiresAt {recordType recordId : Option String}
    {locales : Option (List PublicLocale)} {expiresAt : Option Instant}
    (h : scopedTo recordType recordId locales expiresAt = none) : expiresAt = none := by
  unfold scopedTo at h
  split_ifs at h with hnone
  exact congrArg CapabilityScope.expiresAt hnone

/-- A grant without an end is in force at any instant. -/
theorem Permanent.inForce {row : StoredGrant} (h : Permanent row) (now : Instant) :
    InForce now row := by
  obtain ⟨hrevoked, hmem⟩ := h
  refine ⟨?_, _, hmem, rfl⟩
  obtain ⟨capability, -, hgrant⟩ := List.mem_map.mp hmem
  have hend := scopedTo_expiresAt (congrArg CapabilityGrant.scope hgrant)
  rw [liveGrant, hrevoked, hend]
  rfl

/-- **What is allowed without scope**: what a grant gives everywhere. -/
theorem allows_iff {id : Uuid} {grants : List CapabilityGrant} {capability : Capability}
    {now : Instant} : allows ⟨.staff, id⟩ grants capability none now = true
      ↔ ∃ grant ∈ grants, grant.gives capability (everywhere now) = true := by
  show (contextsFor none now).any _ = true ↔ _
  rw [show contextsFor none now = [everywhere now] from rfl, List.any_cons, List.any_nil,
    Bool.or_false]
  constructor
  · exact exists_gives_of_hasCapability
  · rintro ⟨grant, hmem, hgives⟩
    exact hasCapability_of_gives (fun h => by cases h) hmem hgives

/-- A capability that is allowed to a member is in force. -/
theorem exists_inForce {data : StaffData} {id : Uuid} {now : Instant}
    (h : allows ⟨.staff, id⟩ ((grantsOf data.authz id now).flatMap expandGrant) .accessGrant none
      now = true) :
    ∃ row ∈ data.grants.rows, row.principalId = some id ∧ InForce now row := by
  obtain ⟨grant, hgrant, hgives⟩ := allows_iff.mp h
  obtain ⟨row, hrow, hexpand⟩ := List.mem_flatMap.mp hgrant
  obtain ⟨hmem, hlive⟩ := List.mem_filter.mp hrow
  obtain ⟨stored, hstored, rfl⟩ := List.mem_map.mp hmem
  obtain ⟨hid, hlive⟩ := Bool.and_eq_true_iff.mp hlive
  exact ⟨stored, hstored, of_decide_eq_true hid, hlive, grant, hexpand, hgives⟩

/-- **To whom `access.grant` is allowed**: an active member with a grant in force. -/
theorem can_iff {data : StaffData} {id : Uuid} {now : Instant}
    (hactive : activeStaff data.authz id = true) :
    can data.authz ⟨.staff, id⟩ .accessGrant none now = true
      ↔ ∃ row ∈ data.grants.rows, row.principalId = some id ∧ InForce now row := by
  have hresolve : resolveGrants data.authz ⟨.staff, id⟩ now
      = (grantsOf data.authz id now).flatMap expandGrant := if_pos hactive
  rw [Authz.can, hresolve]
  refine ⟨exists_inForce, ?_⟩
  rintro ⟨row, hrow, hid, hlive, grant, hgrant, hgives⟩
  refine allows_iff.mpr ⟨grant, List.mem_flatMap.mpr ⟨row.toGrantRow, ?_, hgrant⟩, hgives⟩
  refine List.mem_filter.mpr ⟨List.mem_map.mpr ⟨row, hrow, rfl⟩, ?_⟩
  rw [hlive, Bool.and_true]
  exact decide_eq_true hid

/-- **A usable manager may grant**, whenever it is. -/
theorem UsableManager.can {data : StaffData} {id : Uuid} (h : UsableManager data id)
    (now : Instant) : can data.authz ⟨.staff, id⟩ .accessGrant none now = true := by
  obtain ⟨hactive, ⟨row, hrow, hid, hpermanent⟩, -⟩ := h
  exact (can_iff hactive).mpr ⟨row, hrow, hid, hpermanent.inForce now⟩

/-! ## What locks keep -/

/-- The kind and the status of an account. -/
def StaffData.account (data : StaffData) (id : Uuid) : Option (PrincipalKind × PrincipalStatus) :=
  (data.principals.get? id).map (fun row => (row.kind, row.status))

/-- **Who is active**: an active account of staff with an active membership. -/
theorem activeStaff_eq (data : StaffData) (id : Uuid) :
    activeStaff data.authz id = ((data.account id).any (fun a => a.2 = .active && a.1 = .staff)
      && (data.memberships.get? id).any (fun row => row.active)) := by
  have hprincipal : (data.authz.principals.find? (fun p => p.id = id)).any
      (fun p => p.status = .active && p.kind = .staff)
      = (data.account id).any (fun a => a.2 = .active && a.1 = .staff) := by
    show ((data.principals.rows.map PrincipalRow.toPrincipal).find? _).any _ = _
    rw [List.find?_map, Option.any_map, StaffData.account, Option.any_map]
    rfl
  have hmembership : (data.authz.memberships.find? (fun m => m.principalId = id)).any
      StaffMembership.active = (data.memberships.get? id).any (fun row => row.active) := by
    show ((data.memberships.rows.map MembershipRow.toStaffMembership).find? _).any _ = _
    rw [List.find?_map, Option.any_map]
    rfl
  rw [activeStaff, hprincipal, hmembership]

/-- **What may be relied on under a lock**: under that of the management of
capabilities the memberships and the grants, under that of a principal its passkeys. -/
def KeepsManagers : Row → Mode → StaffData → StaffData → Prop
  | .management, .update, data, data' =>
    data'.memberships = data.memberships ∧ data'.grants = data.grants
  | .principal id, .update, data, data' =>
    ∀ key ∈ data.activePasskeys id, key ∈ data'.activePasskeys id
  | _, _, _, _ => True

/-- **The discipline of access managers.** No command changes the kind or the
status of an account. -/
def managers : Discipline StaffData Row where
  Every data data' := ∀ id, data'.account id = data.account id
  Keeps := KeepsManagers
  every_refl _ _ := rfl
  every_trans h h' id := (h' id).trans (h id)
  keeps_refl key mode data := by
    unfold KeepsManagers
    split
    · exact ⟨rfl, rfl⟩
    · exact fun key h => h
    · trivial
  keeps_trans {key mode a b c} h h' := by
    unfold KeepsManagers at *
    split at h
    · exact ⟨h'.1.trans h.1, h'.2.trans h.2⟩
    · exact fun key hkey => h' key (h key hkey)
    · trivial

/-! ## The check for a usable manager -/

/-- **Writes table by table**: what they leave in a table depends on that table, and
they bring back no passkey. -/
structure Tablewise (f : StaffData → StaffData) : Prop where
  accounts : ∀ data id, (f data).account id = data.account id
  memberships : ∃ g : Table Uuid MembershipRow (fun row => row.principalId) →
    Table Uuid MembershipRow (fun row => row.principalId),
    ∀ data, (f data).memberships = g data.memberships
  grants : ∃ g : Table Uuid StoredGrant StoredGrant.id → Table Uuid StoredGrant StoredGrant.id,
    ∀ data, (f data).grants = g data.grants
  passkeys : ∃ g : PasskeyRow → PasskeyRow,
    (∀ id row, activePasskeyOf id (g row) = true → activePasskeyOf id row = true)
      ∧ ∀ data, (f data).passkeys.rows = data.passkeys.rows.map g

theorem Tablewise.comp {f g : StaffData → StaffData} (hf : Tablewise f) (hg : Tablewise g) :
    Tablewise (f ∘ g) := by
  obtain ⟨m, hm⟩ := hf.memberships
  obtain ⟨m', hm'⟩ := hg.memberships
  obtain ⟨r, hr⟩ := hf.grants
  obtain ⟨r', hr'⟩ := hg.grants
  obtain ⟨k, hk, hkeys⟩ := hf.passkeys
  obtain ⟨k', hk', hkeys'⟩ := hg.passkeys
  refine ⟨fun data id => (hf.accounts _ id).trans (hg.accounts data id),
    ⟨m ∘ m', fun data => ?_⟩, ⟨r ∘ r', fun data => ?_⟩,
    ⟨k ∘ k', fun id row h => hk' id row (hk id _ h), fun data => ?_⟩⟩
  · exact (hm (g data)).trans (congrArg m (hm' data))
  · exact (hr (g data)).trans (congrArg r (hr' data))
  · rw [Function.comp_apply, hkeys, hkeys', List.map_map]

theorem Tablewise.refl : Tablewise id :=
  ⟨fun _ _ => rfl, ⟨fun table => table, fun _ => rfl⟩, ⟨fun table => table, fun _ => rfl⟩,
    ⟨fun row => row, fun _ _ h => h, fun _ => (List.map_id' _).symm⟩⟩

/-- What the check for a usable manager finds of a member: that grant may expire. -/
def Found (checkedAt : Uuid → Instant) (data : StaffData) (id : Uuid) : Prop :=
  activeStaff data.authz id = true
    ∧ (∃ row ∈ data.grants.rows, row.principalId = some id ∧ InForce (checkedAt id) row)
    ∧ data.activePasskeys id ≠ []

section

variable {locks locks' : Locks Row} {d d' : StaffData} {writes : StaffData → StaffData}
  {Inv : StaffData → Prop} {β : Type} {P : β → (StaffData → StaffData) → Locks Row → StaffData → Prop}
  {id : Uuid} {now : Instant}

theorem kept_of_management (hlock : (Row.management, Mode.update) ∈ locks)
    (hrely : managers.Rely locks d d') :
    d'.memberships = d.memberships ∧ d'.grants = d.grants :=
  hrely.2 _ hlock

theorem kept_of_principal (hlock : (Row.principal id, Mode.update) ∈ locks)
    (hrely : managers.Rely locks d d') : ∀ key ∈ d.activePasskeys id, key ∈ d'.activePasskeys id :=
  hrely.2 _ hlock

/-- **Who is active stays so** under the lock of the management. -/
theorem active_of_rely (hwrites : Tablewise writes)
    (hlock : (Row.management, Mode.update) ∈ locks) (hrely : managers.Rely locks d d') (id : Uuid) :
    activeStaff (writes d').authz id = activeStaff (writes d).authz id := by
  obtain ⟨m, hm⟩ := hwrites.memberships
  rw [activeStaff_eq, activeStaff_eq, hwrites.accounts, hwrites.accounts, hrely.1 id, hm, hm,
    (kept_of_management hlock hrely).1]

/-- The grants stay under the lock of the management. -/
theorem grants_of_rely (hwrites : Tablewise writes)
    (hlock : (Row.management, Mode.update) ∈ locks) (hrely : managers.Rely locks d d') :
    (writes d').grants = (writes d).grants := by
  obtain ⟨g, hg⟩ := hwrites.grants
  rw [hg, hg, (kept_of_management hlock hrely).2]

/-- Whoever has a passkey under the lock of its principal keeps one. -/
theorem passkeys_of_rely (hwrites : Tablewise writes)
    (hlock : (Row.principal id, Mode.update) ∈ locks) (hrely : managers.Rely locks d d')
    (h : (writes d).activePasskeys id ≠ []) : (writes d').activePasskeys id ≠ [] := by
  obtain ⟨g, hg, hrows⟩ := hwrites.passkeys
  obtain ⟨key, hkey⟩ := List.exists_mem_of_ne_nil _ h
  obtain ⟨hmem, hactive⟩ := List.mem_filter.mp hkey
  rw [hrows] at hmem
  obtain ⟨row, hrow, rfl⟩ := List.mem_map.mp hmem
  have hkept : row ∈ d'.activePasskeys id :=
    kept_of_principal hlock hrely row (List.mem_filter.mpr ⟨hrow, hg id row hactive⟩)
  refine List.ne_nil_of_mem (List.mem_filter.mpr ⟨?_, hactive⟩)
  rw [hrows]
  exact List.mem_map_of_mem (List.mem_filter.mp hkept).1

/-- **What the check finds still holds** when the command commits. -/
theorem Found.of_rely {checkedAt : Uuid → Instant} (h : Found checkedAt (writes d) id)
    (hwrites : Tablewise writes) (hmanagement : (Row.management, Mode.update) ∈ locks)
    (hprincipal : (Row.principal id, Mode.update) ∈ locks) (hrely : managers.Rely locks d d') :
    Found checkedAt (writes d') id := by
  obtain ⟨hactive, hgrant, hkey⟩ := h
  refine ⟨?_, ?_, passkeys_of_rely hwrites hprincipal hrely hkey⟩
  · rw [active_of_rely hwrites hmanagement hrely]
    exact hactive
  · rw [grants_of_rely hwrites hmanagement hrely]
    exact hgrant

/-- **The rule of a check of `access.grant`**, under the lock of the management:
where it is allowed, it still is. -/
theorem Safe.staffCan {f : Bool → Statements β} (hwrites : Tablewise writes)
    (hmanagement : (Row.management, Mode.update) ∈ locks)
    (h : ∀ b d', managers.Rely locks d d' → Inv d' →
      (b = true → activeStaff (writes d').authz id = true ∧ ∃ row ∈ (writes d').grants.rows,
        row.principalId = some id ∧ InForce now row) →
      Safe managers Inv P (f b) writes locks d') :
    Safe managers Inv P (StaffAccess.staffCan id .accessGrant now >>= f) writes locks d := by
  intro d₁ hrely₁ hinv₁
  by_cases hactive : activeStaff (writes d₁).authz id = true
  · show Safe managers Inv P (((if activeStaff (writes d₁).authz id = true then _ else _) >>= _)
      >>= f) writes locks d₁
    rw [if_pos hactive]
    intro d₂ hrely₂ hinv₂
    refine h _ d₂ (rely_trans hrely₁ hrely₂) hinv₂ fun hb => ⟨?_, exists_inForce hb⟩
    rw [active_of_rely hwrites hmanagement hrely₂]
    exact hactive
  · show Safe managers Inv P (((if activeStaff (writes d₁).authz id = true then _ else _) >>= _)
      >>= f) writes locks d₁
    rw [if_neg hactive]
    refine h _ d₁ hrely₁ hinv₁ fun hb => ?_
    obtain ⟨grant, hgrant, -⟩ := allows_iff.mp hb
    exact absurd hgrant List.not_mem_nil

/-- **The rule of the check for a usable manager**: when it passes, it found one. -/
theorem Safe.usableAmong {f : Unit → Statements β} {checkedAt : Uuid → Instant} {ids : List Uuid}
    (hwrites : Tablewise writes) (hmanagement : (Row.management, Mode.update) ∈ locks)
    (hprincipals : ∀ id ∈ ids, (Row.principal id, Mode.update) ∈ locks)
    (h : ∀ d' id, managers.Rely locks d d' → Inv d' → Found checkedAt (writes d') id →
      (Row.principal id, Mode.update) ∈ locks → Safe managers Inv P (f ()) writes locks d') :
    Safe managers Inv P (StaffAccess.usableAmong checkedAt ids >>= f) writes locks d := by
  induction ids generalizing d with
  | nil => trivial
  | cons id rest ih =>
    have hrest : ∀ d', managers.Rely locks d d' →
        Safe managers Inv P (StaffAccess.usableAmong checkedAt rest >>= f) writes locks d' := by
      intro d' hrely
      refine ih (fun i hi => hprincipals i (List.mem_cons_of_mem _ hi)) ?_
      exact fun d'' i hrely' hinv hfound => h d'' i (rely_trans hrely hrely') hinv hfound
    have hlock := hprincipals id List.mem_cons_self
    show Safe managers Inv P ((StaffAccess.staffCan id .accessGrant (checkedAt id) >>= _) >>= f)
      writes locks d
    rw [Prog.bind_assoc]
    refine Safe.staffCan hwrites hmanagement fun allowed d₁ hrely₁ hinv₁ hallowed => ?_
    split_ifs with hb
    · intro d₂ hrely₂ hinv₂
      have hrely := rely_trans hrely₁ hrely₂
      show Safe managers Inv P ((if staffPasskeyMinimum ≤ _ then _ else _) >>= f) writes locks d₂
      split_ifs with hkeys
      · refine h d₂ id hrely hinv₂ ⟨?_, ?_, ?_⟩ hlock
        · rw [active_of_rely hwrites hmanagement hrely₂]
          exact (hallowed hb).1
        · rw [grants_of_rely hwrites hmanagement hrely₂]
          exact (hallowed hb).2
        · exact List.ne_nil_of_length_pos hkeys
      · exact hrest d₂ hrely
    · exact hrest d₁ hrely₁

/-- The principals of staff are those whose account is one of staff. -/
theorem mem_staff {data : StaffData} {id : Uuid} :
    id ∈ data.staff ↔ (data.account id).any (fun a => a.1 = .staff) = true := by
  rw [StaffData.staff, StaffData.account, Option.any_map, List.mem_map]
  constructor
  · rintro ⟨row, hrow, rfl⟩
    obtain ⟨hmem, hkind⟩ := List.mem_filter.mp hrow
    rw [Table.get?_eq_some.mpr ⟨hmem, rfl⟩]
    exact hkind
  · intro h
    obtain ⟨row, hrow, hkind⟩ := (Option.any_eq_true _ _).mp h
    obtain ⟨hmem, hid⟩ := Table.get?_eq_some.mp hrow
    exact ⟨row, List.mem_filter.mpr ⟨hmem, hkind⟩, hid⟩

/-- Who is present is of staff. -/
theorem mem_staff_of_present {data : StaffData} {id : Uuid} (h : id ∈ data.present) :
    id ∈ data.staff := by
  obtain ⟨row, hrow, rfl⟩ := List.mem_map.mp h
  obtain ⟨hmem, hpresent⟩ := List.mem_filter.mp hrow
  rw [Bool.and_assoc] at hpresent
  exact List.mem_map_of_mem (List.mem_filter.mpr ⟨hmem, (Bool.and_eq_true_iff.mp hpresent).1⟩)

theorem mem_staff_writes (hwrites : Tablewise writes) {data : StaffData} {id : Uuid} :
    id ∈ (writes data).staff ↔ id ∈ data.staff := by
  rw [mem_staff, mem_staff, hwrites.accounts]

theorem mem_staff_of_rely (hrely : managers.Rely locks d d') {id : Uuid} :
    id ∈ d'.staff ↔ id ∈ d.staff := by
  rw [mem_staff, mem_staff, hrely.1 id]

/-- **The locks of the management**: that of the management itself, and those of
all principals of staff. -/
def HoldsStaff (locks : Locks Row) (data : StaffData) : Prop :=
  (Row.management, Mode.update) ∈ locks
    ∧ ∀ id ∈ data.staff, (Row.principal id, Mode.update) ∈ locks

theorem HoldsStaff.mono (h : HoldsStaff locks d) (hlocks : ∀ l ∈ locks, l ∈ locks')
    (hrely : managers.Rely locks d d') : HoldsStaff locks' d' :=
  ⟨hlocks _ h.1, fun id hid => hlocks _ (h.2 id ((mem_staff_of_rely hrely).mp hid))⟩

/-- **The rule of `ensureUsableManager`.** -/
theorem Safe.ensureUsableManager {f : Unit → Statements β} {checkedAt : Uuid → Instant}
    (hwrites : Tablewise writes) (hlocks : HoldsStaff locks d)
    (h : ∀ d' id, managers.Rely locks d d' → Inv d' → Found checkedAt (writes d') id →
      (Row.principal id, Mode.update) ∈ locks → Safe managers Inv P (f ()) writes locks d') :
    Safe managers Inv P (StaffAccess.ensureUsableManager checkedAt >>= f) writes locks d := by
  intro d₁ hrely₁ hinv₁
  refine Safe.usableAmong hwrites hlocks.1 (fun id hid => ?_) fun d₂ id hrely₂ =>
    h d₂ id (rely_trans hrely₁ hrely₂)
  have hstaff := (mem_staff_writes hwrites).mp (mem_staff_of_present hid)
  exact hlocks.2 id ((mem_staff_of_rely hrely₁).mp hstaff)

/-- **The rule of `lockStaff`.** -/
theorem Safe.lockStaff {f : Unit → Statements β} (hwrites : Tablewise writes)
    (h : ∀ locks' d', (∀ l ∈ locks, l ∈ locks') → HoldsStaff locks' d' → managers.Rely locks d d' →
      Inv d' → Safe managers Inv P (f ()) writes locks' d') :
    Safe managers Inv P (StaffAccess.lockStaff >>= f) writes locks d := by
  intro d₁ hrely₁ hinv₁ d₂ hrely₂ hinv₂
  show Safe managers Inv P ((RowLocks.lockingAll _ _ _ >>= _) >>= f) writes _ d₂
  rw [Prog.bind_assoc]
  refine Safe.lockingAll hinv₂ fun answer locks' d₃ hlocks hrely₃ hinv₃ hlocked => ?_
  refine h locks' d₃ (fun l hl => hlocks l (List.mem_cons_of_mem _ hl)) ⟨hlocks _
    List.mem_cons_self, fun id hid => hlocked.held id ?_⟩ (rely_trans hrely₁ (rely_trans
      (rely_mono hrely₂ fun l hl => List.mem_cons_of_mem _ hl)
      (rely_mono hrely₃ fun l hl => List.mem_cons_of_mem _ hl))) hinv₃
  exact (mem_staff_writes hwrites).mpr ((mem_staff_of_rely hrely₃).mp hid)

end

/-! ## What commands write -/

/-- **What a lockout of a principal leaves alone**: accounts, memberships, grants and
the passkeys of others. -/
structure LocksOut (target : Uuid) (f : StaffData → StaffData) : Prop where
  principals : ∀ data, (f data).principals = data.principals
  memberships : ∀ data, (f data).memberships = data.memberships
  grants : ∀ data, (f data).grants = data.grants
  passkeys : ∃ g : PasskeyRow → PasskeyRow,
    (∀ id row, activePasskeyOf id (g row) = true → activePasskeyOf id row = true)
      ∧ (∀ id row, id ≠ target → activePasskeyOf id row = true → g row = row)
      ∧ ∀ data, (f data).passkeys.rows = data.passkeys.rows.map g

theorem LocksOut.comp {target : Uuid} {f g : StaffData → StaffData} (hf : LocksOut target f)
    (hg : LocksOut target g) : LocksOut target (f ∘ g) := by
  obtain ⟨k, hk, hothers, hkeys⟩ := hf.passkeys
  obtain ⟨k', hk', hothers', hkeys'⟩ := hg.passkeys
  refine ⟨fun data => (hf.principals _).trans (hg.principals data),
    fun data => (hf.memberships _).trans (hg.memberships data),
    fun data => (hf.grants _).trans (hg.grants data),
    ⟨k ∘ k', fun id row h => hk' id row (hk id _ h), fun id row hne h => ?_, fun data => ?_⟩⟩
  · rw [Function.comp_apply, hothers' id row hne h, hothers id row hne h]
  · rw [Function.comp_apply, hkeys, hkeys', List.map_map]

/-- Two states with the same accounts, memberships, grants and passkeys. -/
structure SameAccess (data data' : StaffData) : Prop where
  principals : data'.principals = data.principals
  memberships : data'.memberships = data.memberships
  grants : data'.grants = data.grants
  passkeys : data'.passkeys = data.passkeys

/-- Writes that leave all of these alone. -/
def Aside (f : StaffData → StaffData) : Prop := ∀ data, SameAccess data (f data)

/-- They lock nobody out. -/
theorem LocksOut.of_same {target : Uuid} {f : StaffData → StaffData} (h : Aside f) :
    LocksOut target f := by
  refine ⟨fun data => (h data).principals, fun data => (h data).memberships,
    fun data => (h data).grants,
    ⟨fun row => row, fun _ _ h => h, fun _ _ _ _ => rfl, fun data => ?_⟩⟩
  rw [(h data).passkeys]
  exact (List.map_id' _).symm

theorem LocksOut.tablewise {target : Uuid} {f : StaffData → StaffData} (h : LocksOut target f) :
    Tablewise f := by
  obtain ⟨g, hg, -, hkeys⟩ := h.passkeys
  refine ⟨fun data id => ?_, ⟨fun table => table, h.memberships⟩, ⟨fun table => table, h.grants⟩,
    ⟨g, hg, hkeys⟩⟩
  rw [StaffData.account, h.principals, StaffData.account]

/-- The passkeys of others stay. -/
theorem LocksOut.kept {target : Uuid} {f : StaffData → StaffData} (h : LocksOut target f)
    {id : Uuid} (hne : id ≠ target) {data : StaffData} {key : PasskeyRow}
    (hkey : key ∈ data.activePasskeys id) : key ∈ (f data).activePasskeys id := by
  obtain ⟨g, -, hothers, hkeys⟩ := h.passkeys
  obtain ⟨hmem, hactive⟩ := List.mem_filter.mp hkey
  refine List.mem_filter.mpr ⟨?_, hactive⟩
  rw [hkeys]
  exact List.mem_map.mpr ⟨key, hmem, hothers id key hne hactive⟩

theorem aside_sessions (still : SessionRow → Bool) (change : SessionRow → SessionRow)
    (hkey : ∀ row, (change row).id = row.id) (ids : List Uuid) :
    Aside (changeRows sessionTable still change hkey ids) :=
  fun _ => ⟨rfl, rfl, rfl, rfl⟩

theorem locksOut_passkeys (target : Uuid) (now : Instant) (ids : List Uuid) :
    LocksOut target (changeRows passkeyTable (activePasskeyOf target) (revokedPasskey now)
      (fun _ => rfl) ids) := by
  refine ⟨fun _ => rfl, fun _ => rfl, fun _ => rfl, ⟨_, fun id row h => ?_, fun id row hne h => ?_,
    fun _ => rfl⟩⟩
  · split at h
    · rw [activePasskeyOf, Bool.and_eq_true_iff] at h
      exact absurd h.2 Bool.false_ne_true
    · exact h
  · refine if_neg fun hrevoked => hne ?_
    have hid : row.principalId = id := of_decide_eq_true (Bool.and_eq_true_iff.mp h).1
    have htarget := (Bool.and_eq_true_iff.mp (Bool.and_eq_true_iff.mp hrevoked).2).1
    exact hid.symm.trans (of_decide_eq_true htarget)

theorem aside_invitations (still : InvitationRow → Bool) (change : InvitationRow → InvitationRow)
    (hkey : ∀ row, (change row).id = row.id) (ids : List Uuid) :
    Aside (changeRows invitationTable still change hkey ids) :=
  fun _ => ⟨rfl, rfl, rfl, rfl⟩

theorem onlyWrites_revokeAllSessions (principalId : Uuid) (now : Instant) :
    OnlyWrites Aside (fun _ => True) (revokeAllSessions principalId now) :=
  OnlyWrites.updating fun ids => aside_sessions _ _ _ ids

/-- **What `lockOutStaff` writes.** -/
theorem onlyWrites_lockOutStaff (target : Uuid) (now : Instant) :
    OnlyWrites (LocksOut target) (fun _ => True) (lockOutStaff target now) := by
  refine ((onlyWrites_revokeAllSessions target now).mono fun _ => .of_same).bind fun _ _ => ?_
  refine (OnlyWrites.updating fun ids => locksOut_passkeys target now ids).bind fun _ _ => ?_
  refine (OnlyWrites.updating fun ids => .of_same (aside_invitations _ _ _ ids)).bind fun _ _ => ?_
  exact ⟨.of_same fun _ => ⟨rfl, rfl, rfl, rfl⟩, trivial⟩

theorem onlyWrites_insertStaffInvitation (row : InvitationRow) :
    OnlyWrites Aside (fun _ => True) (insertStaffInvitation row) := by
  refine OnlyWrites.bind (P := fun _ => True) (fun _ => OnlyWrites.demand_last trivial) fun _ _ => ?_
  exact ⟨fun _ => ⟨rfl, rfl, rfl, rfl⟩, fun _ => OnlyWrites.demand fun _ =>
    ⟨fun _ => ⟨rfl, rfl, rfl, rfl⟩, trivial⟩⟩

/-- **What an offboarding writes**: one membership is over, only grants of its
principal are revoked, and only its passkeys. -/
structure Offboards (target : Uuid) (row : MembershipRow) (f : StaffData → StaffData) : Prop where
  tablewise : Tablewise f
  memberships : ∀ data, (f data).memberships = data.memberships.put row
  grants : ∀ data, ∀ grant ∈ data.grants.rows, grant.principalId ≠ some target →
    grant ∈ (f data).grants.rows
  live : ∀ data, ∀ grant ∈ (f data).grants.rows, grant.revokedAt = none → grant ∈ data.grants.rows
  kept : ∀ data id, id ≠ target → ∀ key ∈ data.activePasskeys id, key ∈ (f data).activePasskeys id

theorem Offboards.comp_locksOut {target : Uuid} {row : MembershipRow}
    {f g : StaffData → StaffData} (hf : LocksOut target f) (hg : Offboards target row g) :
    Offboards target row (f ∘ g) := by
  refine ⟨hf.tablewise.comp hg.tablewise, fun data => ?_, fun data grant hgrant hne => ?_,
    fun data grant hgrant hopen => ?_, fun data id hne key hkey => ?_⟩
  · exact (hf.memberships _).trans (hg.memberships data)
  · rw [Function.comp_apply, hf.grants]
    exact hg.grants data grant hgrant hne
  · rw [Function.comp_apply, hf.grants] at hgrant
    exact hg.live data grant hgrant hopen
  · exact hf.kept hne (hg.kept data id hne key hkey)

/-- Ending a membership. -/
theorem offboards_putMembership (target : Uuid) (row : MembershipRow) :
    Offboards target row (putMembership row) :=
  ⟨⟨fun _ _ => rfl, ⟨fun table => table.put row, fun _ => rfl⟩, ⟨fun table => table, fun _ => rfl⟩,
      ⟨fun key => key, fun _ _ h => h, fun _ => (List.map_id' _).symm⟩⟩,
    fun _ => rfl, fun _ _ hgrant _ => hgrant, fun _ _ hgrant _ => hgrant,
    fun _ _ _ _ hkey => hkey⟩

/-- A new version of a principal is no new account. -/
theorem account_bumpPrincipal (target : Uuid) (version : ℕ) (data : StaffData) (id : Uuid) :
    (bumpPrincipal target version data).account id = data.account id := by
  rw [StaffData.account, bumpPrincipal, Table.get?_update, Option.map_map, StaffData.account]
  refine congrArg (fun f => (data.principals.get? id).map f) (funext fun row => ?_)
  show ((bumpRow target version row).kind, (bumpRow target version row).status) = _
  unfold bumpRow
  split_ifs <;> rfl

theorem Offboards.bump {target : Uuid} {row : MembershipRow} {g : StaffData → StaffData}
    (hg : Offboards target row g) (version : ℕ) :
    Offboards target row (bumpPrincipal target version ∘ g) := by
  refine ⟨Tablewise.comp ⟨account_bumpPrincipal target version, ⟨fun table => table, fun _ => rfl⟩,
    ⟨fun table => table, fun _ => rfl⟩, ⟨fun key => key, fun _ _ h => h,
      fun _ => (List.map_id' _).symm⟩⟩ hg.tablewise, hg.memberships, hg.grants, hg.live, hg.kept⟩

/-- What is left of the grants. -/
theorem mem_revoked {table : Table Uuid StoredGrant StoredGrant.id} {p : StoredGrant → Bool}
    {now : Instant} {grant : StoredGrant} :
    grant ∈ (table.updateWhere p (fun row => row.revoked now) (fun _ => rfl)).rows
      ↔ ∃ before ∈ table.rows, (if p before then before.revoked now else before) = grant :=
  Table.mem_updateWhere _

theorem Offboards.revokeGrants {target : Uuid} {row : MembershipRow} {g : StaffData → StaffData}
    (hg : Offboards target row g) (now : Instant) (ids : List Uuid) :
    Offboards target row (changeRows grantTable (openGrantOf target)
      (fun grant => grant.revoked now) (fun _ => rfl) ids ∘ g) := by
  refine ⟨Tablewise.comp ⟨fun _ _ => rfl, ⟨fun table => table, fun _ => rfl⟩,
    ⟨fun table => table.updateWhere (fun grant => decide (grant.id ∈ ids) && openGrantOf target grant)
      (fun grant => grant.revoked now) (fun _ => rfl), fun _ => rfl⟩, ⟨fun key => key,
      fun _ _ h => h, fun _ => (List.map_id' _).symm⟩⟩ hg.tablewise, hg.memberships,
    fun data grant hgrant hne => ?_, fun data grant hgrant hopen => ?_, hg.kept⟩
  · refine mem_revoked.mpr ⟨grant, hg.grants data grant hgrant hne, ?_⟩
    refine if_neg fun hrevoked => hne ?_
    have htarget := (Bool.and_eq_true_iff.mp (Bool.and_eq_true_iff.mp hrevoked).2).1
    exact of_decide_eq_true htarget
  · obtain ⟨before, hbefore, heq⟩ := mem_revoked.mp hgrant
    split at heq
    · rw [← heq] at hopen
      exact absurd hopen (Option.some_ne_none now)
    · rw [heq] at hbefore
      exact hg.live data grant hbefore hopen

theorem onlyWrites_revokeGrants (target : Uuid) (now : Instant) :
    OnlyWrites (fun f => ∀ row g, Offboards target row g → Offboards target row (f ∘ g))
      (fun _ => True) (updatingRows grantTable Row.grant (openGrantOf target)
        (fun grant => grant.revoked now) (fun _ => rfl)) :=
  OnlyWrites.updating fun ids _ _ hg => hg.revokeGrants now ids

/-! ## When the agency keeps a manager -/

/-- **Whoever can grant among some grants can do so without an end**: no one holds
`access.grant` without scope only by a grant that expires. -/
def Lasting (checkedAt : Uuid → Instant) (among : StoredGrant → Prop) (data : StaffData) : Prop :=
  ∀ row ∈ data.grants.rows, among row → ∀ id, row.principalId = some id →
    InForce (checkedAt id) row →
      ∃ row' ∈ data.grants.rows, among row' ∧ row'.principalId = some id ∧ Permanent row'

/-- **The condition on a commit**: a revocation or an offboarding leaves no one who
can grant by an expiring grant only, and whoever recovers another member still is a
usable manager. -/
def Lasts : Outcome → StaffData → Prop
  | .recovered actorId _, data => UsableManager data actorId
  | .revoked grantId checkedAt, data => Lasting checkedAt (fun row => row.id ≠ grantId) data
  | .offboarded principalId checkedAt, data =>
    Lasting checkedAt (fun row => row.principalId ≠ some principalId) data
  | _, _ => True

/-- The agency has a usable access manager. -/
def HasManager (data : StaffData) : Prop := ∃ id, UsableManager data id

/-- A usable manager stays one while it is active and its grants and passkeys stay. -/
theorem UsableManager.of_kept {data data' : StaffData} {id : Uuid} (h : UsableManager data id)
    (hactive : activeStaff data.authz id = true → activeStaff data'.authz id = true)
    (hgrants : ∀ row ∈ data.grants.rows, row ∈ data'.grants.rows)
    (hkeys : ∀ key ∈ data.activePasskeys id, key ∈ data'.activePasskeys id) :
    UsableManager data' id := by
  obtain ⟨hstaff, ⟨row, hrow, hid, hpermanent⟩, hkey⟩ := h
  obtain ⟨key, hmem⟩ := List.exists_mem_of_ne_nil _ hkey
  exact ⟨hactive hstaff, ⟨row, hgrants row hrow, hid, hpermanent⟩, List.ne_nil_of_mem (hkeys key hmem)⟩

/-- **What a command guarantees**: it changes memberships and grants only under the
lock of the management, and takes passkeys only under that of their principal. -/
theorem guarantee_of {locks : Locks Row} {data data' : StaffData}
    (haccounts : ∀ id, data'.account id = data.account id)
    (hmanagement : (Row.management, Mode.update) ∈ locks
      ∨ (data'.memberships = data.memberships ∧ data'.grants = data.grants))
    (hprincipals : ∀ id, (Row.principal id, Mode.update) ∈ locks
      ∨ ∀ key ∈ data.activePasskeys id, key ∈ data'.activePasskeys id) :
    managers.Guarantee locks data data' := by
  have hheld : ∀ {key : Row} {mode : Mode}, (key, Mode.update) ∈ locks →
      ¬ ∀ l ∈ locks, l.fst = key → l.snd.Compatible mode := by
    intro key mode hmem hcompat
    have hshare := (hcompat _ hmem rfl).1
    cases hshare
  refine ⟨haccounts, fun key mode hcompat => ?_⟩
  show KeepsManagers key mode data data'
  unfold KeepsManagers
  split
  · exact hmanagement.resolve_left fun hmem => hheld hmem hcompat
  · exact (hprincipals _).resolve_left fun hmem => hheld hmem hcompat
  · trivial

/-! ## Each command keeps a manager -/

/-- What may be committed under the condition. -/
abbrev Commits (outcome : Outcome) (writes : StaffData → StaffData) (locks : Locks Row)
    (data : StaffData) : Prop :=
  MayCommitIf managers HasManager Lasts outcome writes locks data

section

variable {d : StaffData}

/-- A change of nothing that managers need keeps each of them. -/
theorem UsableManager.of_same {data data' : StaffData} {id : Uuid} (h : UsableManager data id)
    (hsame : SameAccess data data') : UsableManager data' id := by
  refine h.of_kept (fun hactive => ?_) (fun row hrow => ?_) fun key hkey => ?_
  · rw [activeStaff_eq, StaffData.account, hsame.principals, hsame.memberships]
    rw [activeStaff_eq] at hactive
    exact hactive
  · rw [hsame.grants]
    exact hrow
  · rw [StaffData.activePasskeys, hsame.passkeys]
    exact hkey

theorem SameAccess.trans {a b c : StaffData} (h : SameAccess a b) (h' : SameAccess b c) :
    SameAccess a c :=
  ⟨h'.principals.trans h.principals, h'.memberships.trans h.memberships,
    h'.grants.trans h.grants, h'.passkeys.trans h.passkeys⟩

/-- An inserted grant takes none away. -/
theorem mem_insertRow_grant {row grant : StoredGrant} {data : StaffData}
    (h : grant ∈ data.grants.rows) : grant ∈ (insertRow grantTable row data).grants.rows := by
  show grant ∈ ((data.grants.insert? row).getD data.grants).rows
  cases hinsert : data.grants.insert? row with
  | none => exact h
  | some table => exact (Table.mem_insert? hinsert grant).mpr (.inr h)

/-- **A grant keeps the managers there are.** -/
theorem safe_grantStaffCapability (call : GrantCall) (hd : HasManager d) :
    Safe managers HasManager Commits (grantStaffCapability call) id [] d := by
  refine Safe.demand fun _ => (readsOnly_authority _ _ _ _ _).safe_reads hd
    fun _ locks₁ d₁ _ _ _ hd₁ => ?_
  refine (readsOnly_demandActiveStaff _).safe_reads hd₁ fun _ locks₂ d₂ _ _ _ hd₂ => ?_
  refine Safe.lockStaff .refl fun locks₃ d₃ _ hlocks₃ _ hd₃ => ?_
  refine (readsOnly_authority _ _ _ _ _).safe_reads hd₃ fun _ locks₄ d₄ _ hsub₄ hrely₄ hd₄ => ?_
  refine (readsOnly_demandActiveStaff _).safe_reads hd₄ fun _ locks₅ d₅ _ hsub₅ hrely₅ hd₅ => ?_
  have hlock : (Row.management, Mode.update) ∈ locks₅ := hsub₅ _ (hsub₄ _ hlocks₃.1)
  refine safe_inserting fun d₆ _ hd₆ _ => ?_
  refine (onlyWrites_revokeAllSessions _ _).safe_bind
    (C := fun writes => ∀ data, SameAccess (insertRow grantTable (call.input.row call.grantId
      ⟨.staff, call.session.account.id⟩) data) (writes data))
    (fun f g hf hg data => (hg data).trans (hf _)) (fun _ => ⟨rfl, rfl, rfl, rfl⟩) hd₆ ?_
  intro _ writes locks₇ d₇ _ hwrites hsub₇ _ _ d₈ _ hd₈ _
  obtain ⟨id, hid⟩ := hd₈
  have hkept : UsableManager (insertRow grantTable (call.input.row call.grantId
      ⟨.staff, call.session.account.id⟩) d₈) id :=
    hid.of_kept (fun h => h) (fun _ => mem_insertRow_grant) fun _ h => h
  refine ⟨⟨id, hkept.of_same (hwrites d₈)⟩, guarantee_of (fun i => ?_)
    (.inl (hsub₇ _ (List.mem_cons_of_mem _ hlock))) fun i => .inr fun key hkey => ?_⟩
  · rw [StaffData.account, (hwrites d₈).principals]
    rfl
  · rw [StaffData.activePasskeys, (hwrites d₈).passkeys]
    exact hkey

/-- **A recovery keeps its actor**, if it is a usable manager when it commits. -/
theorem safe_issueStaffRecovery (call : RecoveryCall) (hd : HasManager d) :
    Safe managers HasManager Commits (issueStaffRecovery call) id [] d := by
  refine (readsOnly_assertMayGrant _ _).safe_reads hd fun _ locks₁ d₁ _ _ _ _ => ?_
  refine Safe.demand fun hself => Safe.demand fun _ => ?_
  refine Safe.locking fun d₂ _ _ => Safe.locking fun d₃ _ hd₃ => ?_
  refine Safe.required fun membership _ => Safe.required fun target htarget => Safe.demand fun _ => ?_
  have hid : target.id = call.principalId :=
    (Table.get?_eq_some.mp (Option.filter_eq_some_iff.mp htarget).1).2
  rw [hid]
  refine (onlyWrites_lockOutStaff _ _).safe_bind (C := LocksOut call.principalId)
    (fun _ _ hf hg => hf.comp hg) (.of_same fun _ => ⟨rfl, rfl, rfl, rfl⟩) hd₃ ?_
  intro _ writes₄ locks₄ d₄ _ hwrites₄ hsub₄ _ hd₄
  refine ((onlyWrites_insertStaffInvitation _).mono fun f hf =>
    (LocksOut.of_same hf : LocksOut call.principalId f)).safe_bind
    (C := LocksOut call.principalId) (fun _ _ hf hg => hf.comp hg) hwrites₄ hd₄ ?_
  intro _ writes₅ locks₅ d₅ _ hwrites hsub₅ _ _ d₆ _ _ hactor
  have hlock : (Row.principal call.principalId, Mode.update) ∈ locks₅ :=
    hsub₅ _ (hsub₄ _ (List.mem_cons_of_mem _ List.mem_cons_self))
  refine ⟨⟨_, hactor.of_kept (fun h => ?_) (fun row hrow => ?_)
    fun key hkey => hwrites.kept (Ne.symm hself) hkey⟩,
    guarantee_of (hwrites.tablewise.accounts d₆) (.inr ⟨hwrites.memberships d₆, hwrites.grants d₆⟩)
      fun id => ?_⟩
  · rw [activeStaff_eq, hwrites.tablewise.accounts, hwrites.memberships]
    rw [activeStaff_eq] at h
    exact h
  · rw [hwrites.grants]
    exact hrow
  · by_cases hne : id = call.principalId
    · rw [hne]
      exact .inl hlock
    · exact .inr fun key hkey => hwrites.kept hne hkey

/-- **What the check found is a usable manager**, if it holds a grant without an end. -/
theorem Found.usableManager {checkedAt : Uuid → Instant} {data : StaffData} {id : Uuid}
    (h : Found checkedAt data id)
    (hgrant : ∃ row ∈ data.grants.rows, row.principalId = some id ∧ Permanent row) :
    UsableManager data id :=
  ⟨h.1, hgrant, h.2.2⟩

theorem InForce.open_ {row : StoredGrant} {now : Instant} (h : InForce now row) :
    row.revokedAt = none :=
  Option.isNone_iff_eq_none.mp (Bool.and_eq_true_iff.mp h.1).1

/-- **A revocation leaves a manager**, where no one is left to grant by an expiring
grant only. -/
theorem safe_revokeStaffGrant (call : RevokeCall) :
    Safe managers HasManager Commits (revokeStaffGrant call) id [] d := by
  refine Safe.reading fun d₀ _ hd₀ => Safe.required fun existing _ =>
    Safe.required fun principalId _ => ?_
  refine (readsOnly_authorities _ _ _ _).safe_reads hd₀ fun _ locks₁ d₁ _ _ _ hd₁ => ?_
  refine Safe.lockStaff .refl fun locks₂ d₂ _ hlocks₂ _ hd₂ => ?_
  refine (readsOnly_authorities _ _ _ _).safe_reads hd₂ fun _ locks₃ d₃ _ hsub₃ hrely₃ hd₃ => ?_
  have hlocks₃ : HoldsStaff locks₃ d₃ := hlocks₂.mono hsub₃ hrely₃
  refine Safe.locking fun d₄ hrely₄ hd₄ => Safe.required fun grant hgrant => Safe.writing ?_
  have hlocks₄ := hlocks₃.mono (fun l hl => List.mem_cons_of_mem
    (Row.grant call.input.grantId, Mode.update) hl) hrely₄
  have htable : Tablewise (putGrant (grant.revoked call.now)) :=
    ⟨fun _ _ => rfl, ⟨fun table => table, fun _ => rfl⟩, ⟨fun table => table.put _, fun _ => rfl⟩,
      ⟨fun key => key, fun _ _ h => h, fun _ => (List.map_id' _).symm⟩⟩
  refine Safe.ensureUsableManager htable hlocks₄ fun d₅ id hrely₅ hd₅ hfound hprincipal => ?_
  refine (onlyWrites_revokeAllSessions _ _).safe_bind
    (C := fun writes => ∀ data, SameAccess (putGrant (grant.revoked call.now) data) (writes data))
    (fun f g hf hg data => (hg data).trans (hf _)) (fun _ => ⟨rfl, rfl, rfl, rfl⟩) hd₅ ?_
  intro _ writes locks₆ d₆ _ hwrites hsub₆ hrely₆ _ d₇ hrely₇ hd₇ hlasting
  have hmanagement : (Row.management, Mode.update) ∈ locks₆ := hsub₆ _ hlocks₄.1
  have hstill : Found call.checkedAt (putGrant (grant.revoked call.now) d₇) id :=
    hfound.of_rely htable hlocks₄.1 hprincipal (rely_trans hrely₆ (rely_mono hrely₇ hsub₆))
  have hgrantId : grant.id = call.input.grantId :=
    (Table.get?_eq_some.mp (Option.filter_eq_some_iff.mp hgrant).1).2
  obtain ⟨row, hrow, hrowId, hforce⟩ := hstill.2.1
  -- The grant in force is not the one that is revoked.
  obtain rfl | ⟨hmem, hne⟩ := Table.mem_put.mp hrow
  · exact absurd hforce.open_ (Option.some_ne_none call.now)
  · obtain ⟨row', hrow', hamong, hrowId', hpermanent⟩ := hlasting row hmem
      (fun h => hne (h.trans hgrantId.symm)) id hrowId hforce
    have husable := hstill.usableManager ⟨row', Table.mem_put.mpr
      (.inr ⟨hrow', fun h => hamong (h.trans hgrantId)⟩), hrowId', hpermanent⟩
    refine ⟨⟨id, husable.of_same (hwrites d₇)⟩, guarantee_of (fun i => ?_) (.inl hmanagement)
      fun i => .inr fun key hkey => ?_⟩
    · rw [StaffData.account, (hwrites d₇).principals]
      rfl
    · rw [StaffData.activePasskeys, (hwrites d₇).passkeys]
      exact hkey

/-- What an offboarding or an absence writes to a membership. -/
theorem activeStaff_of_put {data data' : StaffData} {row : MembershipRow} {id : Uuid}
    (haccounts : data'.account id = data.account id)
    (hmemberships : data'.memberships = data.memberships.put row)
    (h : activeStaff data'.authz id = true) : row.principalId = id → row.active = true := by
  rintro rfl
  rw [activeStaff_eq, haccounts, hmemberships, Table.get?_put, if_pos rfl] at h
  exact (Bool.and_eq_true_iff.mp h).2

/-- **An offboarding leaves a manager**, where no one is left to grant by an expiring
grant only. -/
theorem safe_offboardStaff (call : OffboardCall) (hd : HasManager d) :
    Safe managers HasManager Commits (offboardStaff call) id [] d := by
  refine (readsOnly_offboardingOperator _ _).safe_reads hd fun _ locks₁ d₁ _ _ _ _ => ?_
  refine Safe.demand fun _ => Safe.lockStaff .refl fun locks₂ d₂ _ hlocks₂ _ hd₂ => ?_
  refine (readsOnly_offboardingOperator _ _).safe_reads hd₂ fun _ locks₃ d₃ _ hsub₃ hrely₃ _ => ?_
  have hlocks₃ : HoldsStaff locks₃ d₃ := hlocks₂.mono hsub₃ hrely₃
  refine Safe.reading fun d₄ hrely₄ _ => Safe.required fun person _ => Safe.demand fun _ => ?_
  refine Safe.locking fun d₅ hrely₅ _ => Safe.required fun membership hmembership => ?_
  have hid : membership.principalId = call.principalId :=
    (Table.get?_eq_some.mp (Option.filter_eq_some_iff.mp hmembership).1).2
  refine Safe.writing (Safe.locking fun d₆ hrely₆ hd₆ => Safe.writing ?_)
  have hoff := (offboards_putMembership call.principalId
    { membership with active := false, version := membership.version + 1 }).bump (person.version + 1)
  refine (onlyWrites_revokeGrants call.principalId call.now).safe_bind
    (C := Offboards call.principalId _) (fun f g hf hg => hf _ g hg) hoff hd₆ ?_
  intro _ writes₇ locks₇ d₇ _ hoff₇ hsub₇ hrely₇ hd₇
  refine (onlyWrites_lockOutStaff _ _).safe_bind (C := Offboards call.principalId _)
    (fun f g hf hg => hg.comp_locksOut hf) hoff₇ hd₇ ?_
  intro _ writes₈ locks₈ d₈ _ hoff₈ hsub₈ hrely₈ hd₈
  have hlocks₈ : HoldsStaff locks₈ d₈ := by
    refine hlocks₃.mono (fun l hl => hsub₈ _ (hsub₇ _ (List.mem_cons_of_mem _
      (List.mem_cons_of_mem _ hl)))) ?_
    refine rely_trans hrely₄ (rely_trans hrely₅ (rely_trans (rely_mono hrely₆ fun l hl =>
      List.mem_cons_of_mem _ hl) ?_))
    exact rely_trans (rely_mono hrely₇ fun l hl => List.mem_cons_of_mem _ (List.mem_cons_of_mem _ hl))
      (rely_mono hrely₈ fun l hl => hsub₇ _ (List.mem_cons_of_mem _ (List.mem_cons_of_mem _ hl)))
  have hlock : (Row.principal call.principalId, Mode.update) ∈ locks₈ :=
    hsub₈ _ (hsub₇ _ List.mem_cons_self)
  refine Safe.ensureUsableManager hoff₈.tablewise hlocks₈
    fun d₉ id hrely₉ _ hfound hprincipal d' hrely' _ hlasting => ?_
  have hstill := hfound.of_rely hoff₈.tablewise hlocks₈.1 hprincipal hrely'
  have hne : id ≠ call.principalId := fun heq => by
    have hactive := activeStaff_of_put (hoff₈.tablewise.accounts d' id) (hoff₈.memberships d')
      hstill.1 (hid.trans heq.symm)
    exact Bool.false_ne_true hactive
  obtain ⟨row, hrow, hrowId, hforce⟩ := hstill.2.1
  obtain ⟨row', hrow', hamong, hrowId', hpermanent⟩ := hlasting row
    (hoff₈.live d' row hrow hforce.open_) (fun h => hne (Option.some.inj (hrowId.symm.trans h)))
    id hrowId hforce
  refine ⟨⟨id, hstill.usableManager ⟨row', hoff₈.grants d' row' hrow' hamong, hrowId',
    hpermanent⟩⟩, guarantee_of (hoff₈.tablewise.accounts d') (.inl hlocks₈.1) fun i => ?_⟩
  by_cases htarget : i = call.principalId
  · rw [htarget]
    exact .inl hlock
  · exact .inr (hoff₈.kept d' i htarget)

/-- **An absence keeps the managers there are.** -/
theorem safe_changeStaffAbsence (call : AbsenceCall) (hd : HasManager d) :
    Safe managers HasManager Commits (changeStaffAbsence call) id [] d := by
  refine (readsOnly_offboardingOperator _ _).safe_reads hd fun _ locks₁ d₁ _ _ _ _ => ?_
  refine Safe.lockStaff .refl fun locks₂ d₂ _ hlocks₂ _ hd₂ => ?_
  refine (readsOnly_offboardingOperator _ _).safe_reads hd₂ fun _ locks₃ d₃ _ hsub₃ hrely₃ _ => ?_
  have hlocks₃ : HoldsStaff locks₃ d₃ := hlocks₂.mono hsub₃ hrely₃
  refine Safe.locking fun d₄ hrely₄ _ => Safe.required fun membership hmembership => ?_
  refine Safe.required fun absence _ => Safe.writing ?_
  have hactive : membership.active = true :=
    (Bool.and_eq_true_iff.mp (Option.filter_eq_some_iff.mp hmembership).2).2
  have hlocks₄ := hlocks₃.mono (fun l hl => List.mem_cons_of_mem
    (Row.membership call.principalId, Mode.update) hl) hrely₄
  refine Safe.ensureUsableManager ⟨fun _ _ => rfl, ⟨fun table => table.put _, fun _ => rfl⟩,
    ⟨fun table => table, fun _ => rfl⟩, ⟨fun key => key, fun _ _ h => h,
      fun _ => (List.map_id' _).symm⟩⟩ hlocks₄ fun d₅ _ _ _ _ _ d' _ hd' _ => ?_
  obtain ⟨id, hid⟩ := hd'
  refine ⟨⟨id, hid.of_kept (fun h => ?_) (fun _ h => h) fun _ h => h⟩,
    guarantee_of (fun _ => rfl) (.inl hlocks₄.1) fun i => .inr fun _ h => h⟩
  rw [activeStaff_eq] at h ⊢
  obtain ⟨haccount, hmember⟩ := Bool.and_eq_true_iff.mp h
  refine Bool.and_eq_true_iff.mpr ⟨haccount, ?_⟩
  show ((d'.memberships.put _).get? id).any _ = true
  rw [Table.get?_put]
  split_ifs
  · exact hactive
  · exact hmember

end

/-! ## The theorem -/

/-- **The commands of access managers**, by any staff. -/
inductive ManagerCommand : Statements Outcome → Prop
  | grant (call : GrantCall) : ManagerCommand (grantStaffCapability call)
  | revoke (call : RevokeCall) : ManagerCommand (revokeStaffGrant call)
  | offboard (call : OffboardCall) : ManagerCommand (offboardStaff call)
  | absence (call : AbsenceCall) : ManagerCommand (changeStaffAbsence call)
  | recovery (call : RecoveryCall) : ManagerCommand (issueStaffRecovery call)

/-- Every command keeps a manager, where its commit meets the condition. -/
theorem ManagerCommand.safe {p : Statements Outcome} (h : ManagerCommand p) {data : StaffData}
    (hdata : HasManager data) : Safe managers HasManager Commits p id [] data := by
  cases h with
  | grant call => exact safe_grantStaffCapability call hdata
  | revoke call => exact safe_revokeStaffGrant call
  | offboard call => exact safe_offboardStaff call hdata
  | absence call => exact safe_changeStaffAbsence call hdata
  | recovery call => exact safe_issueStaffRecovery call hdata

/-- A sample manager. -/
def sampleManager (id : Uuid) : PrincipalRow :=
  ⟨⟨id, .staff, "party-" ++ id, .active⟩, id ++ "@agency.example", 1⟩

/-- Its membership. -/
def sampleMembership (id : Uuid) : MembershipRow := ⟨⟨id, true⟩, 1, none, none⟩

/-- Its grant: the role of a manager, without scope and without an end. -/
def sampleGrant (id : Uuid) : StoredGrant :=
  { principalId := some id, serviceName := none, role := some .manager, capability := none,
    recordType := none, recordId := none, locales := none, expiresAt := none, revokedAt := none,
    id := "grant-" ++ id, version := 1, grantedById := none, reason := "first manager",
    canonical := rfl }

/-- Its passkey. -/
def samplePasskey (id : Uuid) : PasskeyRow := ⟨"key-" ++ id, id, "credential-" ++ id, 0, none⟩

/-- Its session, verified just now. -/
def sampleSession (id : Uuid) : SessionRow :=
  ⟨"session-" ++ id, "hash-" ++ id, .staff, id, 0, 12 * hour, 0, some 0, none⟩

/-- **Two managers**, both usable. -/
def sampleManagers : StaffData where
  principals := ⟨[sampleManager "a", sampleManager "b"], by decide⟩
  memberships := ⟨[sampleMembership "a", sampleMembership "b"], by decide⟩
  grants := ⟨[sampleGrant "a", sampleGrant "b"], by decide⟩
  passkeys := ⟨[samplePasskey "a", samplePasskey "b"], by decide⟩
  sessions := ⟨[sampleSession "a", sampleSession "b"], by decide⟩
  invitations := Table.empty
  challenges := Table.empty
  restricted := []
  ceremonies := Table.empty
  journal := []
  finished := []

/-- The recovery of one of them by the other. -/
def sampleRecovery (actor target : Uuid) : RecoveryCall :=
  ⟨⟨"session-" ++ actor, ⟨.staff, actor⟩⟩, target, "Checked in person.", "invitation-" ++ target,
    "token-" ++ target, 0⟩

/-- Each recovers the other at once. -/
def mutualRecovery : World StaffData Row Outcome :=
  ((⟨sampleManagers, []⟩ : World StaffData Row Outcome).started
    (issueStaffRecovery (sampleRecovery "a" "b"))).started
    (issueStaffRecovery (sampleRecovery "b" "a"))

/-- Both check their actor, then one goes on to its end, and then the other. -/
def mutualTurns : List ℕ :=
  List.replicate 5 0 ++ List.replicate 5 1 ++ List.replicate 16 0 ++ List.replicate 16 1

theorem hasManager_sampleManagers : HasManager sampleManagers :=
  ⟨"a", by decide +kernel, ⟨sampleGrant "a", List.mem_cons_self, rfl, rfl, by decide +kernel⟩,
    by decide +kernel⟩

/-- One of them recovers the other. -/
def singleRecovery : World StaffData Row Outcome :=
  (⟨sampleManagers, []⟩ : World StaffData Row Outcome).started
    (issueStaffRecovery (sampleRecovery "a" "b"))

/-- The recovery before it commits. -/
def singleTurns : World StaffData Row Outcome :=
  (List.replicate 20 0).foldl World.advance singleRecovery

end StaffAccess
