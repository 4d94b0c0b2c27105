import MsRealty.AccessManagers
import MsRealty.StaffEnrolment

/-!
# What breaking the glass restores

A bootstrap, the redemption of its link and the registration of a passkey, with no
other command of access in between, from any state. For a new or a former member the
link is an enrolment, and the principal ends as a usable access manager. For a current
member it is a recovery, which restores no role: the member keeps exactly the grants
it had (`restored_of_bootstrap`), so one without a manager grant gets none
(`not_restored_of_recovery`).
-/

namespace StaffAccess

open RowLocks Authz Access Sessions

section

variable {α : Type} {a : α} {d d' : StaffData}

/-! ## Parts of a command -/

theorem account_of_principals (h : d'.principals = d.principals) (id : Uuid) :
    d'.account id = d.account id :=
  congrArg (fun table => (table.get? id).map fun row => (row.kind, row.status)) h

theorem SameAccess.refl (d : StaffData) : SameAccess d d := ⟨rfl, rfl, rfl, rfl⟩

/-- What only reads leaves the data. -/
theorem ReadsOnly.alone {p : Statements α} (h : ReadsOnly p)
    (halone : alone p id d = some (a, d')) : d' = d := by
  obtain ⟨-, writes, rfl, hd'⟩ := OnlyWrites.alone (C := fun writes => writes = id) h
    (fun _ _ hfalse => hfalse.elim) rfl halone
  exact hd'

/-- What writes aside leaves accounts, memberships, grants and passkeys. -/
theorem aside_alone {P : α → Prop} {p : Statements α} (h : OnlyWrites Aside P p)
    (halone : alone p id d = some (a, d')) : SameAccess d d' := by
  obtain ⟨-, writes, hwrites, rfl⟩ := OnlyWrites.alone (C := Aside) h
    (fun _ _ hf hg data => (hg data).trans (hf _)) SameAccess.refl halone
  exact hwrites d

/-- **Alone, an update of rows** writes to every row that satisfies the condition. -/
theorem updatingRows_alone {ρ : Type} {key : ρ → Uuid} {table : TableOf ρ key} {row : Uuid → Row}
    {still : ρ → Bool} {change : ρ → ρ} {hkey : ∀ row, key (change row) = key row}
    {ids : List Uuid} (h : alone (updatingRows table row still change hkey) id d = some (ids, d')) :
    d' = changeRows table still change hkey ids d
      ∧ (∀ r ∈ (table.get d).rows, still r = true → key r ∈ ids)
      ∧ ∀ id ∈ ids, ((table.get d).get? id).any still = true := by
  obtain ⟨rfl, rfl⟩ := Prod.mk.inj (Option.some.inj ((alone_updating d).symm.trans h))
  refine ⟨rfl, fun r hr hstill => ?_, fun id hid => (List.mem_filter.mp hid).2⟩
  refine List.mem_filter.mpr ⟨List.mem_map.mpr ⟨r, List.mem_filter.mpr ⟨hr, hstill⟩, rfl⟩, ?_⟩
  exact (Option.any_eq_true _ _).mpr ⟨r, Table.get?_eq_some.mpr ⟨hr, rfl⟩, hstill⟩

/-- Alone, an insertion has a free id. -/
theorem inserting_alone {ρ : Type} {key : ρ → Uuid} {table : TableOf ρ key} {lockRow : Uuid → Row}
    {row : ρ} {u : Unit} (h : alone (inserting table lockRow row) id d = some (u, d')) :
    (table.get d).get? (key row) = none ∧ d' = insertRow table row d := by
  obtain ⟨hfree, hwrite⟩ := alone_demand.mp h
  refine ⟨Option.isNone_iff_eq_none.mp hfree, ?_⟩
  exact (Prod.mk.inj (Option.some.inj hwrite)).2.symm

theorem claiming_alone {index : UniqueIndex} {value : String} {taken : StaffData → Bool} {u : Unit}
    (h : alone (claiming index value taken) id d = some (u, d')) : taken d = false ∧ d' = d :=
  alone_demand_last.mp h

theorem insert?_of_free {ρ : Type} {key : ρ → Uuid} {table : Table Uuid ρ key} {row : ρ}
    (h : table.get? (key row) = none) : (table.insert? row).getD table = table.put row := by
  rw [Table.insert?, h]
  rfl

/-! ## The bootstrap -/

/-- The principal of a bootstrap: the one with its address, or a new one. -/
def StaffData.bootstrapped (data : StaffData) (call : BootstrapCall) : Uuid :=
  ((data.staffByEmail call.email).map (fun row => row.id)).getD call.principal.id

/-- **What a bootstrap leaves**: memberships and grants as they were, and one
invitation with its token. -/
structure Bootstrapped (call : BootstrapCall) (d d' : StaffData) : Prop where
  memberships : d'.memberships = d.memberships
  grants : d'.grants = d.grants
  account : ∀ id, d.account id ≠ none → d'.account id = d.account id
  only : ∀ row ∈ d'.invitations.rows, row.tokenHash = call.tokenHash →
    row = call.invitation (d.bootstrapped call) (d.bootstrapKind (d.bootstrapped call))

/-- A principal that is ensured is the one with the address. -/
theorem ensurePrincipal_alone {email : String} {new : NewPrincipal} {p : Uuid}
    (h : alone (ensurePrincipal email new) id d = some (p, d')) :
    p = ((d.staffByEmail email).map (fun row => row.id)).getD new.id
      ∧ d'.memberships = d.memberships ∧ d'.grants = d.grants
      ∧ ∀ id, d.account id ≠ none → d'.account id = d.account id := by
  unfold ensurePrincipal at h
  rw [alone_reading] at h
  cases hrow : d.staffByEmail email with
  | some row =>
    rw [hrow] at h
    obtain ⟨rfl, rfl⟩ := Prod.mk.inj (Option.some.inj h)
    exact ⟨rfl, rfl, rfl, fun _ _ => rfl⟩
  | none =>
    rw [hrow] at h
    obtain ⟨u, d₁, hclaim, h₁⟩ := alone_bind.mp h
    obtain ⟨-, rfl⟩ := claiming_alone hclaim
    obtain ⟨u, d₂, hinsert, h₂⟩ := alone_bind.mp h₁
    obtain ⟨hfree, rfl⟩ := inserting_alone hinsert
    obtain ⟨rfl, rfl⟩ := Prod.mk.inj (Option.some.inj h₂)
    refine ⟨rfl, rfl, rfl, fun id hid => ?_⟩
    show ((principalTable.get (insertRow principalTable _ d₁)).get? id).map _ = _
    rw [get?_insertRow hfree]
    split_ifs with hnew
    · refine absurd ?_ hid
      rw [← hnew]
      exact congrArg (Option.map fun row => (row.kind, row.status)) hfree
    · rfl

/-- **What a bootstrap leaves**, where it succeeds. -/
theorem bootstrapped_of_alone {call : BootstrapCall} {o : Outcome}
    (h : alone (bootstrapManager call) id d = some (o, d')) : Bootstrapped call d d' := by
  obtain ⟨u, d₁, hcheck, h₁⟩ := alone_bind.mp h
  obtain rfl := (readsOnly_demandNoManager call).alone hcheck
  obtain ⟨p, d₂, hensure, h₂⟩ := alone_bind.mp h₁
  obtain ⟨hp, hmemberships, hgrants, haccounts⟩ := ensurePrincipal_alone hensure
  rw [alone_locking, alone_reading] at h₂
  obtain ⟨u, d₃, hlockOut, h₃⟩ := alone_bind.mp h₂
  obtain ⟨-, writes, hwrites, rfl⟩ := OnlyWrites.alone (C := LocksOut p)
    (onlyWrites_lockOutStaff p call.now) (fun _ _ hf hg => hf.comp hg)
    (.of_same SameAccess.refl) hlockOut
  obtain ⟨u, d₄, hissue, h₄⟩ := alone_bind.mp h₃
  obtain ⟨-, rfl⟩ := Prod.mk.inj (Option.some.inj h₄)
  have hsame := aside_alone (onlyWrites_insertStaffInvitation _) hissue
  obtain ⟨u, d₅, hclaim, h₅⟩ := alone_bind.mp hissue
  obtain ⟨hfreeToken, rfl⟩ := claiming_alone hclaim
  rw [alone_writing] at h₅
  obtain ⟨hfree, rfl⟩ := inserting_alone h₅
  have hkind : d₂.bootstrapKind p = d₁.bootstrapKind p := by
    rw [StaffData.bootstrapKind, hmemberships, StaffData.bootstrapKind]
  refine ⟨hsame.memberships.trans ((hwrites.memberships d₂).trans hmemberships),
    hsame.grants.trans ((hwrites.grants d₂).trans hgrants), fun id hid => ?_,
    fun row hrow htoken => ?_⟩
  · exact (account_of_principals hsame.principals id).trans
      ((hwrites.tablewise.accounts d₂ id).trans (haccounts id hid))
  · have hput : (insertRow invitationTable (call.invitation p (d₂.bootstrapKind p))
        (journalEvent p (.issued call.invitationId) (writes d₂))).invitations
        = (writes d₂).invitations.put (call.invitation p (d₂.bootstrapKind p)) :=
      insert?_of_free hfree
    have hrow' : row ∈ ((writes d₂).invitations.put
        (call.invitation p (d₂.bootstrapKind p))).rows := by
      rw [← hput]
      exact hrow
    obtain rfl | ⟨hold, -⟩ := Table.mem_put.mp hrow'
    · rw [hkind, hp]
      rfl
    · have htaken := List.any_eq_false.mp hfreeToken row hold
      exact absurd (decide_eq_true htoken) htaken

/-! ## The redemption of its link -/

theorem onlyWrites_insertingSession (row : SessionRow) :
    OnlyWrites Aside (fun _ => True) (insertingSession row) := by
  refine OnlyWrites.bind (P := fun _ => True) (fun _ => OnlyWrites.demand_last trivial) fun _ _ => ?_
  exact fun _ => OnlyWrites.demand fun _ => ⟨fun _ => ⟨rfl, rfl, rfl, rfl⟩, trivial⟩

theorem onlyWrites_endCurrent (currentTokenHash : Option String) (now : Instant) :
    OnlyWrites Aside (fun _ => True) (endCurrent currentTokenHash now) := by
  unfold endCurrent
  split
  · trivial
  · exact (OnlyWrites.updating fun ids => aside_sessions _ _ _ ids).bind fun _ _ => trivial

/-- **What the redemption of a link leaves**: an active member, with the role of a manager
after an enrolment, and with the grants it had after a recovery. -/
structure Redeemed (p : Uuid) (kind : StaffInvitationKind) (d d' : StaffData) : Prop where
  account : d'.account p = some (.staff, .active)
  active : (d'.memberships.get? p).any (fun m => m.active) = true
  enrolled : kind = .staffEnrolment → ∃ row ∈ d'.grants.rows, row.principalId = some p
    ∧ row.role = some .manager ∧ row.recordId = none ∧ Permanent row
  recovered : kind = .staffRecovery → d'.grants = d.grants ∧ d'.memberships = d.memberships

/-- What is redeemed stays so while nothing of access changes. -/
theorem Redeemed.of_same {p : Uuid} {kind : StaffInvitationKind} {d₁ : StaffData}
    (h : Redeemed p kind d d₁) (hsame : SameAccess d₁ d') : Redeemed p kind d d' := by
  refine ⟨(account_of_principals hsame.principals p).trans h.account, ?_, fun hkind => ?_,
    fun hkind => ?_⟩
  · rw [hsame.memberships]
    exact h.active
  · rw [hsame.grants]
    exact h.enrolled hkind
  · rw [hsame.grants, hsame.memberships]
    exact h.recovered hkind

theorem permanent_roleGrant (id p : Uuid) (invitation : InvitationRow) :
    Permanent (roleGrant id p .manager invitation) :=
  ⟨rfl, List.mem_map.mpr ⟨.accessGrant, (by decide : Capability.accessGrant ∈ rolePresets .manager),
    rfl⟩⟩

/-- **An enrolment opens the membership and grants the role.** -/
theorem enrolled_of_alone {call : AcceptCall} {invitation : InvitationRow} {u : Unit}
    (hroles : invitation.roles = [.manager])
    (haccount : d.account invitation.principalId = some (.staff, .active))
    (h : alone (enrol call invitation) id d = some (u, d')) :
    Redeemed invitation.principalId .staffEnrolment d d' := by
  obtain ⟨ids, d₁, hgrants, h₁⟩ := alone_bind.mp h
  obtain ⟨rfl, hall, -⟩ := updatingRows_alone hgrants
  obtain ⟨keys, d₂, hkeys, h₂⟩ := alone_bind.mp h₁
  obtain ⟨rfl, -, -⟩ := updatingRows_alone hkeys
  rw [alone_locking, alone_writing, hroles] at h₂
  obtain ⟨v, d₃, hrole, h₃⟩ := alone_bind.mp h₂
  obtain ⟨-, rfl⟩ := Prod.mk.inj (Option.some.inj h₃)
  unfold grantRole at hrole
  rw [alone_reading, if_neg ?_] at hrole
  · obtain ⟨hfree, rfl⟩ := inserting_alone hrole
    refine ⟨haccount, ?_, fun _ => ⟨roleGrant (call.grantIds .manager) invitation.principalId .manager
      invitation, ?_, rfl, rfl, rfl, permanent_roleGrant _ _ invitation⟩,
      fun hkind => (nomatch hkind)⟩
    · show ((d.memberships.put (d.openedMembership invitation.principalId)).get? _).any _ = true
      rw [Table.get?_put, if_pos (openedMembership_principalId d _), Option.any_some]
      exact openedMembership_active d _
    · show _ ∈ ((grantTable.get _).insert? _ |>.getD (grantTable.get _)).rows
      rw [insert?_of_free hfree]
      exact Table.mem_put.mpr (.inl rfl)
  · -- All grants there were are revoked, so the role is not held.
    intro hheld
    obtain ⟨row, hrow, hholds⟩ := List.any_eq_true.mp hheld
    obtain ⟨before, hbefore, rfl⟩ := (Table.mem_updateWhere
      (f := supersededGrant call.now) (fun _ => rfl)).mp hrow
    simp only [Bool.and_eq_true, decide_eq_true_eq, Option.isNone_iff_eq_none] at hholds
    split at hholds
    · exact absurd hholds.2 (Option.some_ne_none call.now)
    · next hkept =>
      have hopen : openGrantOf invitation.principalId before = true := by
        rw [openGrantOf, Bool.and_eq_true_iff]
        exact ⟨decide_eq_true hholds.1.1.1, Option.isNone_iff_eq_none.mpr hholds.2⟩
      exact hkept ⟨hall before hbefore hopen, hopen⟩

/-- A recovery demands the membership, and leaves all. -/
theorem recovered_of_alone {invitation : InvitationRow} {u : Unit}
    (haccount : d.account invitation.principalId = some (.staff, .active))
    (h : alone (recover invitation) id d = some (u, d')) :
    Redeemed invitation.principalId .staffRecovery d d' := by
  obtain ⟨hactive, rfl⟩ := alone_demand_last.mp h
  exact ⟨haccount, hactive, fun hkind => (nomatch hkind), fun _ => ⟨rfl, rfl⟩⟩

/-- A link that is redeemed is the one of the bootstrap. -/
theorem invitation_of_redeemed {call : BootstrapCall} {accept : AcceptCall} {d₁ : StaffData}
    {invitation : InvitationRow} {ids : List Uuid} (hboot : Bootstrapped call d d₁)
    (htoken : accept.tokenHash = call.tokenHash)
    (hids : ∀ id ∈ ids, (d₁.invitations.get? id).any (redeemable accept.tokenHash accept.now) = true)
    (h : ids.head?.bind (changeRows invitationTable (redeemable accept.tokenHash accept.now)
      (acceptedInvitation accept.now) (fun _ => rfl) ids d₁).invitations.get? = some invitation) :
    invitation.principalId = d.bootstrapped call
      ∧ invitation.kind = d.bootstrapKind (d.bootstrapped call)
      ∧ (invitation.kind = .staffEnrolment → invitation.roles = [.manager]) := by
  obtain ⟨i, hhead, hget⟩ := Option.bind_eq_some_iff.mp h
  obtain ⟨row, hrow, hnow⟩ := (Option.any_eq_true _ _).mp (hids i (List.mem_of_mem_head? hhead))
  have htokenRow : row.tokenHash = call.tokenHash := by
    rw [redeemable, Bool.and_eq_true_iff, Bool.and_eq_true_iff] at hnow
    exact (of_decide_eq_true hnow.1.1).trans htoken
  have hlink := hboot.only row (Table.get?_eq_some.mp hrow).1 htokenRow
  have hchanged := get?_changeRows invitationTable (redeemable accept.tokenHash accept.now)
    (acceptedInvitation accept.now) (fun _ => rfl) ids d₁ i
  have hfound : (invitationTable.get d₁).get? i = some row := hrow
  rw [hfound, Option.map_some] at hchanged
  have hget := Option.some.inj (hget.symm.trans hchanged)
  have hsame : invitation.principalId = row.principalId ∧ invitation.kind = row.kind
      ∧ invitation.roles = row.roles := by
    rw [hget]
    split <;> exact ⟨rfl, rfl, rfl⟩
  rw [hsame.1, hsame.2.1, hsame.2.2, hlink]
  exact ⟨rfl, rfl, fun hkind => if_pos hkind⟩

/-- **What the redemption of the link leaves**, where it succeeds. -/
theorem redeemed_of_alone {call : BootstrapCall} {accept : AcceptCall} {d₁ d₂ : StaffData}
    {o : Outcome} (hboot : Bootstrapped call d d₁) (htoken : accept.tokenHash = call.tokenHash)
    (h : alone (acceptStaffInvitation accept) id d₁ = some (o, d₂)) :
    Redeemed (d.bootstrapped call) (d.bootstrapKind (d.bootstrapped call)) d d₂ := by
  obtain ⟨u, d₃, hsame, h₁⟩ := alone_bind.mp h
  obtain rfl := (readsOnly_demandSameAccount accept).alone hsame
  obtain ⟨ids, d₄, haccept, h₂⟩ := alone_bind.mp h₁
  obtain ⟨rfl, -, hids⟩ := updatingRows_alone haccept
  rw [alone_reading, alone_required] at h₂
  obtain ⟨invitation, hinvitation, h₃⟩ := h₂
  obtain ⟨hp, hkind, hroles⟩ := invitation_of_redeemed hboot htoken hids hinvitation
  rw [alone_locking, alone_demand] at h₃
  obtain ⟨hstaff, h₄⟩ := h₃
  rw [alone_writing] at h₄
  obtain ⟨v, d₅, hinviter, h₅⟩ := alone_bind.mp h₄
  obtain rfl := (readsOnly_inviterStillAuthorized invitation accept.now).alone hinviter
  obtain ⟨w, d₆, hredeem, h₆⟩ := alone_bind.mp h₅
  obtain ⟨revoked, d₇, hrevoke, h₇⟩ := alone_bind.mp h₆
  obtain ⟨x, d₈, hend, h₈⟩ := alone_bind.mp h₇
  obtain ⟨y, d₉, hcreate, h₉⟩ := alone_bind.mp h₈
  obtain ⟨-, rfl⟩ := Prod.mk.inj (Option.some.inj h₉)
  have haside : SameAccess d₆ d₉ :=
    (aside_alone (onlyWrites_revokeAllSessions _ _) hrevoke).trans
      ((aside_alone (onlyWrites_endCurrent _ _) hend).trans
        (aside_alone (onlyWrites_insertingSession _) hcreate))
  refine Redeemed.of_same ?_ haside
  set d₅ := journalEvent invitation.principalId (.accepted invitation.id)
    (changeRows invitationTable (redeemable accept.tokenHash accept.now)
      (acceptedInvitation accept.now) (fun _ => rfl) ids d₃) with hd₅
  have haccount : d₅.account invitation.principalId = some (.staff, .active) := by
    obtain ⟨row, hrow, hactive⟩ := (Option.any_eq_true _ _).mp hstaff
    have hfound : d₅.principals.get? invitation.principalId = some row := hrow
    rw [StaffData.account, hfound, Option.map_some]
    simp only [Bool.and_eq_true, decide_eq_true_eq] at hactive
    rw [hactive.1.1, hactive.1.2]
  have hgrants : d₅.grants = d.grants := hboot.grants
  have hmemberships : d₅.memberships = d.memberships := hboot.memberships
  have hdone : Redeemed invitation.principalId invitation.kind d₅ d₆ := by
    unfold redeem at hredeem
    split at hredeem
    · next hkindOf =>
      rw [hkindOf]
      exact enrolled_of_alone (hroles hkindOf) haccount hredeem
    · next hkindOf =>
      rw [hkindOf]
      exact recovered_of_alone haccount hredeem
  rw [← hkind, ← hp]
  refine ⟨hdone.account, hdone.active, hdone.enrolled, fun hrecovery => ?_⟩
  obtain ⟨hsameGrants, hsameMemberships⟩ := hdone.recovered hrecovery
  exact ⟨hsameGrants.trans hgrants, hsameMemberships.trans hmemberships⟩

/-! ## The registration of a passkey -/

/-- What leaves accounts, memberships and grants. -/
structure SameRights (d d' : StaffData) : Prop where
  principals : d'.principals = d.principals
  memberships : d'.memberships = d.memberships
  grants : d'.grants = d.grants

theorem SameRights.refl (d : StaffData) : SameRights d d := ⟨rfl, rfl, rfl⟩

theorem SameRights.trans {a b c : StaffData} (h : SameRights a b) (h' : SameRights b c) :
    SameRights a c :=
  ⟨h'.principals.trans h.principals, h'.memberships.trans h.memberships,
    h'.grants.trans h.grants⟩

theorem sameRights_alone {P : α → Prop} {p : Statements α}
    (h : OnlyWrites (fun f => ∀ data, SameRights data (f data)) P p)
    (halone : alone p id d = some (a, d')) : SameRights d d' := by
  obtain ⟨-, writes, hwrites, rfl⟩ := OnlyWrites.alone
    (C := fun f => ∀ data, SameRights data (f data)) h
    (fun _ _ hf hg data => (hg data).trans (hf _)) SameRights.refl halone
  exact hwrites d

theorem onlyWrites_startPasskeyRegistration (session : Session) (id : Uuid) (challenge : String)
    (now : Instant) : OnlyWrites (fun f => ∀ data, SameRights data (f data)) (fun _ => True)
      (startPasskeyRegistration session id challenge now) := by
  refine ((readsOnly_assertMayRegister session now).mono fun _ => False.elim).bind fun _ _ => ?_
  refine fun _ => OnlyWrites.demand fun _ => OnlyWrites.bind (P := fun _ => True) ?_
    fun _ _ => trivial
  refine OnlyWrites.bind (P := fun _ => True) (fun _ => OnlyWrites.demand_last trivial) fun _ _ => ?_
  exact fun _ => OnlyWrites.demand fun _ => ⟨fun _ => ⟨rfl, rfl, rfl⟩, trivial⟩

theorem onlyWrites_verifyRegistration (call : RegistrationCall) :
    OnlyWrites (fun f => ∀ data, SameRights data (f data)) (fun _ => True)
      (verifyRegistration call) := by
  refine ((readsOnly_assertMayRegister _ _).mono fun _ => False.elim).bind fun _ _ => ?_
  refine OnlyWrites.demand fun _ => (OnlyWrites.updating fun ids _ => ⟨rfl, rfl, rfl⟩).bind
    fun ids _ => OnlyWrites.bind (P := fun _ => True) ?_ fun _ _ => trivial
  unfold beginCeremony
  split
  · split_ifs
    · exact fun _ => OnlyWrites.demand fun _ => ⟨fun _ => ⟨rfl, rfl, rfl⟩, trivial⟩
    · trivial
  · trivial

/-- **A registration leaves a passkey**, and no right changes. -/
theorem registered_of_alone {call : RegistrationCall} {o : Outcome}
    (h : alone (storePasskey call) id d = some (o, d')) :
    SameRights d d' ∧ d'.activePasskeys call.session.account.id ≠ [] := by
  obtain ⟨ceremony, d₁, htake, h₁⟩ := alone_bind.mp h
  have htaken : SameRights d d₁ := by
    refine sameRights_alone (P := fun _ => True) ?_ htake
    exact fun _ => OnlyWrites.required fun _ _ => ⟨fun _ => ⟨rfl, rfl, rfl⟩, trivial⟩
  rw [alone_demand, alone_locking] at h₁
  obtain ⟨v, d₂, hmay, h₂⟩ := alone_bind.mp h₁.2
  obtain rfl := (readsOnly_assertMayRegister _ _).alone hmay
  obtain ⟨w, d₃, hclaim, h₃⟩ := alone_bind.mp h₂
  obtain ⟨-, rfl⟩ := claiming_alone hclaim
  obtain ⟨x, d₄, hinsert, h₄⟩ := alone_bind.mp h₃
  obtain ⟨hfree, rfl⟩ := inserting_alone hinsert
  rw [alone_writing] at h₄
  obtain ⟨-, rfl⟩ := Prod.mk.inj (Option.some.inj h₄)
  refine ⟨htaken.trans ⟨rfl, rfl, rfl⟩, List.ne_nil_of_mem (List.mem_filter.mpr ⟨?_,
    (?_ : activePasskeyOf call.session.account.id ⟨call.passkeyId, call.session.account.id,
      call.credentialId, call.signCount, none⟩ = true)⟩)⟩
  · show _ ∈ ((passkeyTable.get _).insert? _ |>.getD (passkeyTable.get _)).rows
    rw [insert?_of_free hfree]
    exact Table.mem_put.mpr (.inl rfl)
  · rw [activePasskeyOf, Bool.and_eq_true_iff]
    exact ⟨decide_eq_true rfl, rfl⟩

/-! ## Who is a usable manager -/

/-- Alone, what staff can is what authorization says. -/
theorem alone_staffCan (p : Uuid) (capability : Capability) (now : Instant) (d : StaffData) :
    alone (staffCan p capability now) id d
      = some (can d.authz ⟨.staff, p⟩ capability none now, d) := by
  have hresolve : resolveGrants d.authz ⟨.staff, p⟩ now
      = if activeStaff d.authz p = true then (grantsOf d.authz p now).flatMap expandGrant else [] :=
    rfl
  rw [Authz.can, hresolve]
  refine alone_bind.mpr ⟨_, d, ?_, rfl⟩
  unfold resolveStaffGrants
  rw [alone_reading]
  split_ifs <;> rfl

/-- A usable one among some members is found. -/
theorem alone_someUsable {ids : List Uuid} {p : Uuid} {now : Instant} (hmem : p ∈ ids)
    (hkeys : d.activePasskeys p ≠ [])
    (hcan : can d.authz ⟨.staff, p⟩ .accessGrant none now = true) :
    alone (someUsable now ids) id d = some (true, d) := by
  induction ids with
  | nil => exact absurd hmem List.not_mem_nil
  | cons q rest ih =>
    have hrest : p ≠ q → alone (someUsable now rest) id d = some (true, d) := fun hne =>
      ih ((List.mem_cons.mp hmem).resolve_left hne)
    show alone (if staffPasskeyMinimum ≤ (d.activePasskeys q).length then _ else _) id d = _
    split_ifs with hmany
    · refine alone_bind.mpr ⟨_, d, alone_staffCan q .accessGrant now d, ?_⟩
      split_ifs with hallowed
      · rfl
      · exact hrest fun heq => hallowed (heq ▸ hcan)
    · exact hrest fun heq => hmany (List.length_pos_iff.mpr (heq ▸ hkeys))

/-- **Whoever holds a manager grant and a passkey is found** as a usable manager. -/
theorem hasUsableManager_of_grant {p : Uuid} {now : Instant} {row : StoredGrant}
    (haccount : d.account p = some (.staff, .active))
    (hmember : (d.memberships.get? p).any (fun m => m.active) = true)
    (hrow : row ∈ d.grants.rows) (hgrant : managerGrant p now row = true)
    (hkeys : d.activePasskeys p ≠ [])
    (hcan : can d.authz ⟨.staff, p⟩ .accessGrant none now = true) :
    alone (hasUsableManager now) id d = some (true, d) := by
  refine alone_someUsable (p := p) ?_ hkeys hcan
  obtain ⟨principal, hprincipal, hstatus⟩ := Option.map_eq_some_iff.mp haccount
  obtain ⟨hmem, hid⟩ := Table.get?_eq_some.mp hprincipal
  obtain ⟨key, hkey⟩ := List.exists_mem_of_ne_nil _ hkeys
  refine List.mem_flatMap.mpr ⟨principal, hmem, ?_⟩
  rw [if_pos ⟨(Prod.mk.inj hstatus).2, by rw [hid]; exact hmember⟩, hid]
  refine List.mem_flatMap.mpr ⟨row, List.mem_filter.mpr ⟨hrow, hgrant⟩, ?_⟩
  exact List.mem_map.mpr ⟨key, hkey, rfl⟩

/-- What gives `access.grant` everywhere is a manager grant, as the query asks it. -/
theorem managerGrant_of_inForce {p : Uuid} {now : Instant} {row : StoredGrant}
    (hid : row.principalId = some p) (huuid : row.recordId ≠ some "") (h : InForce now row) :
    managerGrant p now row = true := by
  obtain ⟨hlive, grant, hgrant, hgives⟩ := h
  obtain ⟨capability, hcapability, rfl⟩ := List.mem_map.mp hgrant
  obtain ⟨hname, hscope⟩ := Bool.and_eq_true_iff.mp hgives
  obtain rfl : capability = .accessGrant := of_decide_eq_true hname
  have hkind : (row.role = some .manager || row.capability = some .accessGrant) = true := by
    unfold GrantRow.granted at hcapability
    split at hcapability
    · next role hrole =>
      have hmanager : role = .manager := by
        revert hcapability
        cases role <;> decide
      rw [hrole, hmanager]
      rfl
    · rw [Option.mem_toList.mp hcapability]
      exact Bool.or_true _
  have hrecord : row.recordId = none := by
    cases hrecordId : row.recordId with
    | none => rfl
    | some id =>
      have hpresent : present row.recordId = some id := by
        rw [present, hrecordId, Option.filter_some, if_pos]
        exact decide_eq_true fun hempty => huuid (hrecordId.trans (congrArg some hempty))
      have hscoped : scopedTo row.recordType row.recordId row.locales row.expiresAt
          = some (scopeFields row.recordType row.recordId row.locales row.expiresAt) := by
        refine if_neg fun hnone => ?_
        have hgone : present row.recordId = none := congrArg CapabilityScope.recordId hnone
        rw [hpresent] at hgone
        cases hgone
      rw [hscoped] at hscope
      have hcovers : scopeCovers (present row.recordId) none = true := by
        simp only [CapabilityScope.reaches, Bool.and_eq_true] at hscope
        exact hscope.1.2
      rw [hpresent] at hcovers
      have hempty : id = "" := by
        simpa [scopeCovers] using hcovers
      exact absurd (hrecordId.trans (congrArg some hempty)) huuid
  rw [managerGrant, hkind, hrecord, hlive, decide_eq_true hid]
  rfl

end

/-! ## What is restored -/

/-- **A break of the glass**: a bootstrap, the redemption of its link, and the
registration of a passkey in the session this opens. -/
structure BreakGlass where
  bootstrap : BootstrapCall
  accept : AcceptCall
  link : accept.tokenHash = bootstrap.tokenHash
  registration : RegistrationCall
  opened : registration.session.id = accept.session.id
  challengeId : Uuid
  startedAt : Instant

/-- **The commands of a break of the glass**, one after the other and no other between
them: the data they leave, if all succeed. -/
def BreakGlass.run (b : BreakGlass) (d : StaffData) : Option StaffData :=
  (alone (bootstrapManager b.bootstrap) id d).bind fun r₁ =>
  (alone (acceptStaffInvitation b.accept) id r₁.2).bind fun r₂ =>
  (alone (startPasskeyRegistration b.registration.session b.challengeId b.registration.challenge
    b.startedAt) id r₂.2).bind fun r₃ =>
  (alone (verifyRegistration b.registration) id r₃.2).bind fun r₄ =>
  (alone (storePasskey b.registration) id r₄.2).map Prod.snd

/-- **A restored manager**: an active member to whom `access.grant` is allowed without
scope, and a usable manager is found. -/
def Restored (data : StaffData) (id : Uuid) : Prop :=
  activeStaff data.authz id = true
    ∧ ∀ now, can data.authz ⟨.staff, id⟩ .accessGrant none now = true
      ∧ ∃ d', alone (hasUsableManager now) (fun data => data) data = some (true, d')

/-- **What a break of the glass leaves**: an active member with a passkey; after an
enrolment a manager, and after a recovery the grants there were. -/
theorem redeemed_of_run {b : BreakGlass} {d d' : StaffData} (h : b.run d = some d')
    (haccount : b.registration.session.account.id = d.bootstrapped b.bootstrap) :
    Redeemed (d.bootstrapped b.bootstrap) (d.bootstrapKind (d.bootstrapped b.bootstrap)) d d'
      ∧ d'.activePasskeys (d.bootstrapped b.bootstrap) ≠ [] := by
  obtain ⟨⟨o₁, d₁⟩, h₁, h⟩ := Option.bind_eq_some_iff.mp h
  obtain ⟨⟨o₂, d₂⟩, h₂, h⟩ := Option.bind_eq_some_iff.mp h
  obtain ⟨⟨o₃, d₃⟩, h₃, h⟩ := Option.bind_eq_some_iff.mp h
  obtain ⟨⟨o₄, d₄⟩, h₄, h⟩ := Option.bind_eq_some_iff.mp h
  obtain ⟨⟨o₅, d₅⟩, h₅, rfl⟩ := Option.map_eq_some_iff.mp h
  have hredeemed := redeemed_of_alone (bootstrapped_of_alone h₁) b.link h₂
  obtain ⟨hregistered, hkeys⟩ := registered_of_alone h₅
  have hrights : SameRights d₂ d₅ :=
    (sameRights_alone (onlyWrites_startPasskeyRegistration _ _ _ _) h₃).trans
      ((sameRights_alone (onlyWrites_verifyRegistration _) h₄).trans hregistered)
  rw [haccount] at hkeys
  refine ⟨⟨(account_of_principals hrights.principals _).trans hredeemed.account, ?_,
    fun hkind => ?_, fun hkind => ?_⟩, hkeys⟩
  · rw [hrights.memberships]
    exact hredeemed.active
  · rw [hrights.grants]
    exact hredeemed.enrolled hkind
  · rw [hrights.grants, hrights.memberships]
    exact hredeemed.recovered hkind

/-- An active account of staff with an active membership is active. -/
theorem activeStaff_of {d : StaffData} {p : Uuid} (haccount : d.account p = some (.staff, .active))
    (hmember : (d.memberships.get? p).any (fun m => m.active) = true) :
    activeStaff d.authz p = true := by
  rw [activeStaff_eq, haccount, hmember]
  rfl

/-- **Breaking the glass restores a manager, or recovers a member.** For a new or a former
member the principal ends as a usable manager. For a current one the link is a recovery:
the member is active and has a passkey, the grants are those there were, and what is
allowed is what they give; if that is `access.grant`, a usable manager is found. -/
theorem restored_of_bootstrap {b : BreakGlass} {d d' : StaffData} (h : b.run d = some d')
    (haccount : b.registration.session.account.id = d.bootstrapped b.bootstrap) :
    (d.bootstrapKind (d.bootstrapped b.bootstrap) = .staffEnrolment →
      UsableManager d' (d.bootstrapped b.bootstrap) ∧ Restored d' (d.bootstrapped b.bootstrap))
    ∧ (d.bootstrapKind (d.bootstrapped b.bootstrap) = .staffRecovery →
      activeStaff d'.authz (d.bootstrapped b.bootstrap) = true
      ∧ d'.activePasskeys (d.bootstrapped b.bootstrap) ≠ [] ∧ d'.grants = d.grants
      ∧ ∀ now, (can d'.authz ⟨.staff, d.bootstrapped b.bootstrap⟩ .accessGrant none now = true
          ↔ ∃ row ∈ d.grants.rows, row.principalId = some (d.bootstrapped b.bootstrap)
            ∧ InForce now row)
        ∧ ((∀ row ∈ d.grants.rows, row.recordId ≠ some "") →
          can d'.authz ⟨.staff, d.bootstrapped b.bootstrap⟩ .accessGrant none now = true →
          ∃ data, alone (hasUsableManager now) (fun data => data) d' = some (true, data))) := by
  obtain ⟨hredeemed, hkeys⟩ := redeemed_of_run h haccount
  have hactive := activeStaff_of hredeemed.account hredeemed.active
  refine ⟨fun hkind => ?_, fun hkind => ?_⟩
  · obtain ⟨row, hrow, hid, hrole, hrecord, hpermanent⟩ := hredeemed.enrolled hkind
    have husable : UsableManager d' (d.bootstrapped b.bootstrap) :=
      ⟨hactive, ⟨row, hrow, hid, hpermanent⟩, hkeys⟩
    refine ⟨husable, hactive, fun now => ⟨husable.can now, d', ?_⟩⟩
    refine hasUsableManager_of_grant hredeemed.account hredeemed.active hrow ?_ hkeys
      (husable.can now)
    refine managerGrant_of_inForce hid (fun hempty => ?_) (hpermanent.inForce now)
    rw [hrecord] at hempty
    cases hempty
  · obtain ⟨hgrants, -⟩ := hredeemed.recovered hkind
    refine ⟨hactive, hkeys, hgrants, fun now => ?_⟩
    have hcan : can d'.authz ⟨.staff, d.bootstrapped b.bootstrap⟩ .accessGrant none now = true
        ↔ ∃ row ∈ d.grants.rows, row.principalId = some (d.bootstrapped b.bootstrap)
          ∧ InForce now row := by
      rw [← hgrants]
      exact can_iff hactive
    refine ⟨hcan, fun huuids hallowed => ⟨d', ?_⟩⟩
    obtain ⟨row, hrow, hid, hforce⟩ := hcan.mp hallowed
    refine hasUsableManager_of_grant hredeemed.account hredeemed.active ?_
      (managerGrant_of_inForce hid (huuids row hrow) hforce) hkeys hallowed
    rw [hgrants]
    exact hrow

/-! ## A member without a manager grant -/

/-- **An agency with a manager and a coordinator**, who was invited as one. -/
def sampleMember : StaffData where
  principals := ⟨[sampleManager "a", sampleManager "m"], by decide⟩
  memberships := ⟨[sampleMembership "a", sampleMembership "m"], by decide⟩
  grants := ⟨[sampleGrant "a", { sampleGrant "m" with role := some .coordinator }], by decide⟩
  passkeys := ⟨[samplePasskey "a", samplePasskey "m"], by decide⟩
  sessions := Table.empty
  invitations := Table.empty
  challenges := Table.empty
  restricted := []
  ceremonies := Table.empty
  journal := []
  finished := []

/-- A break of the glass for an address, whose principal has some id. -/
def sampleBreakGlass (email : String) (lower : lowerCase email = email) (p : Uuid) : BreakGlass where
  bootstrap := ⟨email, lower, true, ⟨p, "party"⟩, "invitation", "token", 0⟩
  accept := ⟨"token", none, 1000, ⟨"session", "cookie"⟩, fun _ => "role"⟩
  link := rfl
  registration := ⟨"ceremony", ⟨"session", ⟨.staff, p⟩⟩, "challenge", "challenge", true, "key",
    "credential", 0, 3000⟩
  opened := rfl
  challengeId := "stored challenge"
  startedAt := 2000

/-- The break of the glass for the coordinator. -/
def memberBreakGlass : BreakGlass := sampleBreakGlass "m@agency.example" (by decide +kernel) "m"

/-- **A member without a manager grant gets none**: every command succeeds, and
`access.grant` is not allowed to the member. -/
theorem not_restored_of_recovery :
    memberBreakGlass.registration.session.account.id
        = sampleMember.bootstrapped memberBreakGlass.bootstrap
      ∧ ∃ d', memberBreakGlass.run sampleMember = some d'
        ∧ ¬ Restored d' (sampleMember.bootstrapped memberBreakGlass.bootstrap) := by
  refine ⟨by decide +kernel, ?_⟩
  have hrun : (memberBreakGlass.run sampleMember).any (fun d' =>
      !can d'.authz ⟨.staff, sampleMember.bootstrapped memberBreakGlass.bootstrap⟩ .accessGrant none
        4000) = true := by decide +kernel
  obtain ⟨d', hd', hcan⟩ := (Option.any_eq_true _ _).mp hrun
  refine ⟨d', hd', fun hrestored => ?_⟩
  rw [(hrestored.2 4000).1] at hcan
  cases hcan

/-- The break of the glass for someone new. -/
def newBreakGlass : BreakGlass := sampleBreakGlass "n@agency.example" (by decide +kernel) "n"

/-- **Someone new ends as a usable manager.** -/
theorem restored_newBreakGlass : ∃ d', newBreakGlass.run sampleMember = some d'
    ∧ UsableManager d' "n" ∧ Restored d' "n" := by
  have hrun : (newBreakGlass.run sampleMember).isSome = true := by decide +kernel
  have hid : sampleMember.bootstrapped newBreakGlass.bootstrap = "n" := by decide +kernel
  have hkind : sampleMember.bootstrapKind "n" = .staffEnrolment := by decide +kernel
  obtain ⟨d', hd'⟩ := Option.isSome_iff_exists.mp hrun
  have hrestored := (restored_of_bootstrap hd' hid.symm).1
  rw [hid] at hrestored
  exact ⟨d', hd', hrestored hkind⟩

end StaffAccess
