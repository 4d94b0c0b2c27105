import MsRealty.PrivacyEffects

/-!
# Decisions in effect

What a decision of the safety ledger stands for in a database: the streams it
selects are withdrawn, its purposes are restricted, its clients hold no
credential that works and the copies it erases are erased.

Applying a decision puts it in effect (`inEffect_apply`), and applying any
other only tightens the database (`tighter_apply`), so what is in effect stays
in effect (`InEffect.tighter`).
-/

namespace Privacy

/-! ## What identifies a row, and what is not undone -/

/-- What identifies a stream. -/
def SubscriptionRow.key (row : SubscriptionRow) : Uuid × Uuid × SubscriptionPurpose :=
  (row.id, row.partyId, row.purpose)

/-- A stream is withdrawn. -/
def SubscriptionRow.Withdrawn (row : SubscriptionRow) : Prop := row.state = .withdrawn

/-- The criteria of a withdrawn stream are erased. -/
def SubscriptionRow.CriteriaErased (row : SubscriptionRow) : Prop :=
  row.criteria = some (.obj []) ∧ row.criteriaSummary = none

/-- What identifies an account. -/
def PrincipalRow.key (row : PrincipalRow) : Uuid × Uuid × PrincipalKind :=
  (row.id, row.partyId, row.kind)

/-- An account cannot be used. -/
def PrincipalRow.Closed (row : PrincipalRow) : Prop := row.status ≠ .active

/-- The profile of an account is erased. -/
def PrincipalRow.ProfileErased (row : PrincipalRow) : Prop :=
  row.email = row.id ++ "@erased.invalid" ∧ row.displayName = "[restricted client]"

/-- What identifies a session. -/
def SessionRow.key (row : SessionRow) : Uuid × PrincipalKind := (row.principalId, row.principalKind)

/-- A session is revoked. -/
def SessionRow.Revoked (row : SessionRow) : Prop := row.revokedAt ≠ none

/-- What identifies a sign-in link. -/
def EmailSignInToken.key (token : EmailSignInToken) : Uuid × Option Uuid × PrincipalKind :=
  (token.id, token.principalId, token.principalKind)

/-- A sign-in link is spent. -/
def EmailSignInToken.Spent (token : EmailSignInToken) : Prop :=
  token.revokedAt ≠ none ∨ token.consumedAt ≠ none

/-- What identifies what an action sends. -/
def actionKey (action : ExternalAction) :
    ExternalActionKind × String × Option String × Option Uuid :=
  (action.kind, action.effectKey, action.subjectType, action.subjectId)

/-- An action is not queued. -/
def NotQueued (action : ExternalAction) : Prop := action.state ≠ .queued

/-- What identifies an invitation. -/
def InvitationRow.key (row : InvitationRow) : Uuid × InvitationKind := (row.principalId, row.kind)

/-- An invitation is no longer open. -/
def InvitationRow.Closed (row : InvitationRow) : Prop :=
  row.revokedAt ≠ none ∨ row.acceptedAt ≠ none ∨ row.declinedAt ≠ none

/-- A passkey is revoked. -/
def PasskeyRow.Revoked (row : PasskeyRow) : Prop := row.revokedAt ≠ none

/-- A grant is revoked. -/
def GrantRow.Revoked (row : GrantRow) : Prop := row.revokedAt ≠ none

/-- An export is revoked. -/
def PrivacyExportRow.Revoked (row : PrivacyExportRow) : Prop := row.state = .revoked

/-- The preferences of a party are erased. -/
def PartyRow.PreferencesErased (row : PartyRow) : Prop := row.contactPreferences = .obj []

/-- The aliases of a party are erased. -/
def PartyRow.AliasesErased (row : PartyRow) : Prop := row.matchingAliases = []

/-- What identifies a contact. -/
def ContactMethodRow.key (row : ContactMethodRow) : Uuid × Uuid := (row.id, row.partyId)

/-- A contact is erased. -/
def ContactMethodRow.Erased (row : ContactMethodRow) : Prop :=
  row.value = row.id ++ "@erased.invalid" ∧ row.normalizedValue = "erased:" ++ row.id
    ∧ row.verification = .unverified ∧ row.verifiedAt = none ∧ row.lastFailureAt = none

/-- **A database is tightened.** The ledger, the parties there are and the name
are the same. -/
structure Tighter (db db' : Db) : Prop where
  restrictions : db.restrictions ⊆ db'.restrictions
  parties : Tightens PartyRow.id [PartyRow.PreferencesErased, PartyRow.AliasesErased]
    db.parties db'.parties
  contactMethods : Tightens ContactMethodRow.key [ContactMethodRow.Erased]
    db.contactMethods db'.contactMethods
  principals : Tightens PrincipalRow.key [PrincipalRow.Closed, PrincipalRow.ProfileErased]
    db.principals db'.principals
  subscriptions : Tightens SubscriptionRow.key
    [SubscriptionRow.Withdrawn, SubscriptionRow.CriteriaErased] db.subscriptions db'.subscriptions
  sessions : Tightens SessionRow.key [SessionRow.Revoked] db.sessions db'.sessions
  emailSignInTokens : Tightens EmailSignInToken.key [EmailSignInToken.Spent]
    db.emailSignInTokens db'.emailSignInTokens
  externalActions : Tightens actionKey [NotQueued] db.externalActions db'.externalActions
  invitations : Tightens InvitationRow.key [InvitationRow.Closed] db.invitations db'.invitations
  passkeys : Tightens PasskeyRow.principalId [PasskeyRow.Revoked] db.passkeys db'.passkeys
  grants : Tightens GrantRow.principalId [GrantRow.Revoked] db.grants db'.grants
  privacyExports : Tightens PrivacyExportRow.partyId [PrivacyExportRow.Revoked]
    db.privacyExports db'.privacyExports

theorem Tighter.refl (db : Db) : Tighter db db where
  restrictions := List.Subset.refl _
  parties := .refl _
  contactMethods := .refl _
  principals := .refl _
  subscriptions := .refl _
  sessions := .refl _
  emailSignInTokens := .refl _
  externalActions := .refl _
  invitations := .refl _
  passkeys := .refl _
  grants := .refl _
  privacyExports := .refl _

theorem Tighter.trans {db db' db'' : Db} (h : Tighter db db') (h' : Tighter db' db'') :
    Tighter db db'' where
  restrictions := List.Subset.trans h.restrictions h'.restrictions
  parties := h.parties.trans h'.parties
  contactMethods := h.contactMethods.trans h'.contactMethods
  principals := h.principals.trans h'.principals
  subscriptions := h.subscriptions.trans h'.subscriptions
  sessions := h.sessions.trans h'.sessions
  emailSignInTokens := h.emailSignInTokens.trans h'.emailSignInTokens
  externalActions := h.externalActions.trans h'.externalActions
  invitations := h.invitations.trans h'.invitations
  passkeys := h.passkeys.trans h'.passkeys
  grants := h.grants.trans h'.grants
  privacyExports := h.privacyExports.trans h'.privacyExports

/-! ## Every statement tightens -/

theorem tighter_withdraw (db : Db) (effect : PrivacySafetyEffect) (sequence : ℕ) (actor : Actor)
    (now : Instant) : Tighter db (db.withdraw effect sequence actor now) where
  __ := Tighter.refl db
  subscriptions := .update_two _ (fun _ => rfl) (fun _ _ _ => rfl) (fun _ _ h => h)

theorem subset_insertRestriction (rows : List ProcessingRestriction)
    (row : ProcessingRestriction) : rows ⊆ insertRestriction rows row := by
  unfold insertRestriction
  split_ifs
  · exact List.Subset.refl _
  · exact List.subset_append_left _ _

theorem subset_foldl_insertRestriction (row : String → ProcessingRestriction)
    (purposes : List String) (rows : List ProcessingRestriction) :
    rows ⊆ purposes.foldl (fun rows purpose => insertRestriction rows (row purpose)) rows := by
  induction purposes generalizing rows with
  | nil => exact List.Subset.refl _
  | cons purpose purposes ih =>
    exact List.Subset.trans (subset_insertRestriction rows (row purpose)) (ih _)

theorem tighter_restrict (db : Db) (effect : Restriction) (sequence : ℕ) :
    Tighter db (db.restrict effect sequence) where
  __ := Tighter.refl db
  restrictions := subset_foldl_insertRestriction
    (fun purpose => ⟨effect.partyId, purpose, sequence⟩) _ _

theorem tighter_suspend (db : Db) (ids : List Uuid) (now : Instant) :
    Tighter db (db.suspend ids now) where
  __ := Tighter.refl db
  principals := .update_two _ (fun _ => rfl)
    (fun _ _ _ => show PrincipalStatus.suspended ≠ .active by decide) (fun _ _ h => h)

theorem tighter_revokeCredentials (db : Db) (ids : List Uuid) (now : Instant) :
    Tighter db (db.revokeCredentials ids now) where
  __ := Tighter.refl db
  sessions := .update_one _ (fun _ => rfl) (fun _ _ _ => Option.some_ne_none now)
  emailSignInTokens := .update_one _ (fun _ => rfl)
    (fun _ _ _ => Or.inl (Option.some_ne_none now))
  externalActions := by
    unfold Db.revokeCredentials
    dsimp only
    split_ifs
    · exact .refl _
    · exact .update_one _ (fun _ => rfl)
        (fun _ _ _ => show ExternalActionState.cancelled ≠ .queued by decide)
  invitations := .update_one _ (fun _ => rfl) (fun _ _ _ => Or.inl (Option.some_ne_none now))
  passkeys := .update_one _ (fun _ => rfl) (fun _ _ _ => Option.some_ne_none now)
  grants := .update_one _ (fun _ => rfl) (fun _ _ _ => Option.some_ne_none now)

theorem tighter_revokeExports (db : Db) (partyId : Uuid) (now : Instant) :
    Tighter db (db.revokeExports partyId now) where
  __ := Tighter.refl db
  privacyExports := .update_one _ (fun _ => rfl) (fun _ _ _ => rfl)

theorem tighter_eraseParty (db : Db) (effect : Restriction) (now : Instant) :
    Tighter db (db.eraseParty effect now) := by
  have hpreferences : ∀ row : PartyRow, row.PreferencesErased →
      (row.erase effect now).PreferencesErased := by
    intro row h
    show (if effect.erasePreferences then .obj [] else row.contactPreferences) = .obj []
    rw [h, ite_self]
  have haliases : ∀ row : PartyRow, row.AliasesErased → (row.erase effect now).AliasesErased := by
    intro row h
    show (if effect.eraseAliases then [] else row.matchingAliases) = []
    rw [h, ite_self]
  unfold Db.eraseParty
  by_cases herase : (effect.erasePreferences || effect.eraseAliases) = true
  · rw [if_pos herase]
    exact { Tighter.refl db with
      parties := .update_two _ (fun _ => rfl) (fun row _ => hpreferences row)
        (fun row _ => haliases row) }
  · rw [if_neg herase]
    exact Tighter.refl db

theorem erased_erase {partyId id : Uuid} {row : ContactMethodRow} (now : Instant)
    (h : row.isOf partyId id = true) : (row.erase id now).Erased := by
  simp only [ContactMethodRow.isOf, Bool.and_eq_true, decide_eq_true_eq] at h
  rw [← h.1]
  exact ⟨rfl, rfl, rfl, rfl, rfl⟩

theorem tighter_eraseContacts (db : Db) (effect : Restriction) (now : Instant) :
    Tighter db (db.eraseContacts effect now) where
  __ := Tighter.refl db
  contactMethods := .foldl_update (p := ContactMethodRow.isOf effect.partyId)
    (f := fun id => ContactMethodRow.erase id now) effect.contactIds
    (fun _ rows => .update_one rows (fun _ => rfl) (fun _ hp _ => erased_erase now hp)) _

theorem profileErased_erase {partyId id : Uuid} {row : PrincipalRow} (now : Instant)
    (h : row.isClient partyId id = true) : (row.erase id now).ProfileErased := by
  simp only [PrincipalRow.isClient, Bool.and_eq_true, decide_eq_true_eq] at h
  rw [← h.1.1]
  exact ⟨rfl, rfl⟩

theorem tighter_eraseProfiles (db : Db) (effect : Restriction) (ids : List Uuid)
    (now : Instant) : Tighter db (db.eraseProfiles effect ids now) where
  __ := Tighter.refl db
  principals := .foldl_update (p := PrincipalRow.isClient effect.partyId)
    (f := fun id => PrincipalRow.erase id now)
    (effect.clientProfileIds.filter (fun id => id ∈ ids))
    (fun _ rows => .update_two rows (fun _ => rfl) (fun _ _ h => h)
      (fun _ hp _ => profileErased_erase now hp)) _

theorem tighter_eraseCriteria (db : Db) (effect : Restriction) (now : Instant) :
    Tighter db (db.eraseCriteria effect now) := by
  unfold Db.eraseCriteria
  split_ifs
  · exact Tighter.refl db
  · exact { Tighter.refl db with
      subscriptions := .update_two _ (fun _ => rfl) (fun _ _ h => h) (fun _ _ _ => ⟨rfl, rfl⟩) }

/-- The credentials of the clients, if there are any. -/
theorem tighter_clients (db : Db) (ids : List Uuid) (now : Instant) :
    Tighter db (if ids = [] then db else (db.suspend ids now).revokeCredentials ids now) := by
  split_ifs
  · exact Tighter.refl db
  · exact (tighter_suspend db ids now).trans (tighter_revokeCredentials _ ids now)

/-- **Applying a decision only tightens.** -/
theorem tighter_apply (db : Db) (effect : PrivacySafetyEffect) (sequence : ℕ) (actor : Actor)
    (now : Instant) : Tighter db (applyPrivacySafetyEffect db effect sequence actor now) := by
  have hwithdraw := tighter_withdraw db effect sequence actor now
  cases effect with
  | withdrawal effect => exact hwithdraw
  | restriction effect =>
    exact hwithdraw.trans (((((((tighter_restrict _ effect sequence).trans
      (tighter_clients _ _ now)).trans (tighter_revokeExports _ effect.partyId now)).trans
      (tighter_eraseParty _ effect now)).trans (tighter_eraseContacts _ effect now)).trans
      (tighter_eraseProfiles _ effect _ now)).trans (tighter_eraseCriteria _ effect now))

/-! ## What a decision stands for -/

/-- The sign-in links of some clients. -/
def credentialsOf (ids : List Uuid) (tokens : List EmailSignInToken) : List Uuid :=
  (tokens.filter (EmailSignInToken.isOf ids)).map EmailSignInToken.id

/-- **Some clients hold no credential that works.** -/
structure CredentialsClosed (ids : List Uuid) (db : Db) : Prop where
  principals : ∀ row ∈ db.principals, row.id ∈ ids → row.Closed
  sessions : ∀ row ∈ db.sessions, row.principalId ∈ ids ∧ row.principalKind = .client →
    row.Revoked
  emailSignInTokens : ∀ token ∈ db.emailSignInTokens, token.isOf ids = true → token.Spent
  externalActions : ∀ action ∈ db.externalActions, action.kind = .emailSend →
    sendsLink (credentialsOf ids db.emailSignInTokens) action = true → NotQueued action
  invitations : ∀ row ∈ db.invitations, row.principalId ∈ ids ∧ row.kind = .clientAccess →
    row.Closed
  passkeys : ∀ row ∈ db.passkeys, row.principalId ∈ ids → row.Revoked
  grants : ∀ row ∈ db.grants, row.principalId.any (fun id => id ∈ ids) = true → row.Revoked

/-- **A restriction is in effect.** Only rows of the party are concerned, and
search criteria only where search alerts are restricted. -/
structure Restriction.InEffect (db : Db) (effect : Restriction) : Prop where
  recorded : ∀ purpose ∈ effect.purposeNames, ∃ row ∈ db.restrictions,
    row.partyId = effect.partyId ∧ row.purpose = purpose
  credentials : CredentialsClosed (effect.clients db.principals) db
  exports : ∀ row ∈ db.privacyExports, row.partyId = effect.partyId → row.Revoked
  preferences : effect.erasePreferences = true →
    ∀ row ∈ db.parties, row.id = effect.partyId → row.PreferencesErased
  aliases : effect.eraseAliases = true →
    ∀ row ∈ db.parties, row.id = effect.partyId → row.AliasesErased
  contacts : ∀ id ∈ effect.contactIds, ∀ row ∈ db.contactMethods,
    row.id = id ∧ row.partyId = effect.partyId → row.Erased
  profiles : ∀ id ∈ effect.clientProfileIds, id ∈ effect.clients db.principals →
    ∀ row ∈ db.principals, row.id = id ∧ row.partyId = effect.partyId ∧ row.kind = .client →
      row.ProfileErased
  criteria : OptionalPurpose.searchAlerts ∈ effect.purposes → ∀ row ∈ db.subscriptions,
    row.id ∈ effect.searchSubscriptionIds ∧ row.partyId = effect.partyId
      ∧ row.purpose = .searchAlerts → row.CriteriaErased

/-- **A decision is in effect.** -/
structure InEffect (db : Db) (effect : PrivacySafetyEffect) : Prop where
  withdrawn : ∀ row ∈ db.subscriptions, effect.selects row = true → row.Withdrawn
  restricted : ∀ restriction, effect = .restriction restriction → restriction.InEffect db

/-! ## What is in effect stays in effect -/

variable {db db' : Db} {ids ids' : List Uuid}

theorem sendsLink_mono {credentials credentials' : List Uuid} {action action' : ExternalAction}
    (hsub : credentials' ⊆ credentials) (hkey : actionKey action' = actionKey action)
    (h : sendsLink credentials' action' = true) : sendsLink credentials action = true := by
  obtain ⟨-, heffect, htype, hid⟩ : action'.kind = action.kind ∧
      action'.effectKey = action.effectKey ∧ action'.subjectType = action.subjectType ∧
      action'.subjectId = action.subjectId := by
    simpa only [actionKey, Prod.mk.injEq] using hkey
  simp only [sendsLink, Bool.or_eq_true, Bool.and_eq_true, List.any_eq_true, decide_eq_true_eq,
    Option.any_eq_true] at h ⊢
  rw [← heffect, ← htype, ← hid]
  obtain ⟨id, hmem, heq⟩ | ⟨hsubject, id, heq, hmem⟩ := h
  · exact Or.inl ⟨id, hsub hmem, heq⟩
  · exact Or.inr ⟨hsubject, id, heq, hsub hmem⟩

theorem isOf_mono {token : EmailSignInToken} (hsub : ids' ⊆ ids) (h : token.isOf ids' = true) :
    token.isOf ids = true := by
  simp only [EmailSignInToken.isOf, Bool.and_eq_true, Option.any_eq_true,
    decide_eq_true_eq] at h ⊢
  obtain ⟨⟨id, heq, hmem⟩, hkind⟩ := h
  exact ⟨⟨id, heq, hsub hmem⟩, hkind⟩

theorem credentialsOf_mono (hsub : ids' ⊆ ids) (tokens : List EmailSignInToken) :
    credentialsOf ids' tokens ⊆ credentialsOf ids tokens := by
  intro id hid
  obtain ⟨token, htoken, rfl⟩ := List.mem_map.mp hid
  obtain ⟨hmem, hof⟩ := List.mem_filter.mp htoken
  exact List.mem_map_of_mem (List.mem_filter.mpr ⟨hmem, isOf_mono hsub hof⟩)

/-- Links that are tightened are links that were there. -/
theorem credentialsOf_tightens {tokens tokens' : List EmailSignInToken}
    (h : Tightens EmailSignInToken.key [EmailSignInToken.Spent] tokens tokens') :
    credentialsOf ids tokens' ⊆ credentialsOf ids tokens := by
  intro id hid
  obtain ⟨token', htoken', rfl⟩ := List.mem_map.mp hid
  obtain ⟨hmem', hof⟩ := List.mem_filter.mp htoken'
  obtain ⟨token, hmem, hkey⟩ := h.exists_key hmem'
  obtain ⟨hid, hprincipal, hkind⟩ : token'.id = token.id ∧
      token'.principalId = token.principalId ∧ token'.principalKind = token.principalKind := by
    simpa only [EmailSignInToken.key, Prod.mk.injEq] using hkey
  rw [hid]
  refine List.mem_map_of_mem (List.mem_filter.mpr ⟨hmem, ?_⟩)
  rwa [EmailSignInToken.isOf, ← hprincipal, ← hkind]

/-- The clients of a decision among fewer identities. -/
theorem clients_tightens (effect : Restriction) {rows rows' : List PrincipalRow}
    {facts : List (PrincipalRow → Prop)} (h : Tightens PrincipalRow.key facts rows rows') :
    effect.clients rows' ⊆ effect.clients rows := by
  unfold Restriction.clients
  split_ifs
  · exact List.Subset.refl _
  · intro id hid
    obtain ⟨row', hrow', rfl⟩ := List.mem_map.mp hid
    obtain ⟨hmem', hclient⟩ := List.mem_filter.mp hrow'
    obtain ⟨row, hmem, hkey⟩ := h.exists_key hmem'
    obtain ⟨hid, hparty, hkind⟩ : row'.id = row.id ∧ row'.partyId = row.partyId ∧
        row'.kind = row.kind := by
      simpa only [PrincipalRow.key, Prod.mk.injEq] using hkey
    rw [hid, hparty, hkind] at hclient
    rw [hid]
    exact List.mem_map_of_mem (List.mem_filter.mpr ⟨hmem, hclient⟩)

theorem CredentialsClosed.mono (h : CredentialsClosed ids db) (hsub : ids' ⊆ ids) :
    CredentialsClosed ids' db where
  principals row hrow hid := h.principals row hrow (hsub hid)
  sessions row hrow hof := h.sessions row hrow ⟨hsub hof.1, hof.2⟩
  emailSignInTokens token htoken hof := h.emailSignInTokens token htoken (isOf_mono hsub hof)
  externalActions action haction hkind hlink := h.externalActions action haction hkind
    (sendsLink_mono (credentialsOf_mono hsub _) rfl hlink)
  invitations row hrow hof := h.invitations row hrow ⟨hsub hof.1, hof.2⟩
  passkeys row hrow hid := h.passkeys row hrow (hsub hid)
  grants row hrow hid := by
    refine h.grants row hrow ?_
    simp only [Option.any_eq_true, decide_eq_true_eq] at hid ⊢
    obtain ⟨id, heq, hmem⟩ := hid
    exact ⟨id, heq, hsub hmem⟩

theorem CredentialsClosed.tighter (h : CredentialsClosed ids db) (htight : Tighter db db') :
    CredentialsClosed ids db' where
  principals := htight.principals.forall_mem (C := fun key => key.fst ∈ ids)
    List.mem_cons_self h.principals
  sessions := htight.sessions.forall_mem (C := fun key => key.fst ∈ ids ∧ key.snd = .client)
    List.mem_cons_self h.sessions
  emailSignInTokens := htight.emailSignInTokens.forall_mem
    (C := fun key => (key.snd.fst.any (fun id => id ∈ ids) && key.snd.snd = .client) = true)
    List.mem_cons_self h.emailSignInTokens
  externalActions action' haction' hkind hlink := by
    obtain ⟨action, haction, hkey, hfacts⟩ := htight.externalActions action' haction'
    refine hfacts _ List.mem_cons_self (h.externalActions action haction ?_ ?_)
    · rw [← hkind]
      exact (congrArg Prod.fst hkey).symm
    · exact sendsLink_mono (credentialsOf_tightens htight.emailSignInTokens) hkey hlink
  invitations := htight.invitations.forall_mem
    (C := fun key => key.fst ∈ ids ∧ key.snd = .clientAccess) List.mem_cons_self h.invitations
  passkeys := htight.passkeys.forall_mem (C := fun key => key ∈ ids) List.mem_cons_self h.passkeys
  grants := htight.grants.forall_mem (C := fun key => key.any (fun id => id ∈ ids) = true)
    List.mem_cons_self h.grants

/-- **A restriction in effect stays in effect.** -/
theorem Restriction.InEffect.tighter {effect : Restriction} (h : effect.InEffect db)
    (htight : Tighter db db') : effect.InEffect db' where
  recorded purpose hpurpose := by
    obtain ⟨row, hrow, hrest⟩ := h.recorded purpose hpurpose
    exact ⟨row, htight.restrictions hrow, hrest⟩
  credentials :=
    (h.credentials.tighter htight).mono (clients_tightens effect htight.principals)
  exports := htight.privacyExports.forall_mem (C := fun key => key = effect.partyId)
    List.mem_cons_self h.exports
  preferences herase := htight.parties.forall_mem (C := fun key => key = effect.partyId)
    List.mem_cons_self (h.preferences herase)
  aliases herase := htight.parties.forall_mem (C := fun key => key = effect.partyId)
    (List.mem_cons_of_mem _ List.mem_cons_self) (h.aliases herase)
  contacts id hid := htight.contactMethods.forall_mem
    (C := fun key => key.fst = id ∧ key.snd = effect.partyId) List.mem_cons_self
    (h.contacts id hid)
  profiles id hid hclient := htight.principals.forall_mem
    (C := fun key => key.fst = id ∧ key.snd.fst = effect.partyId ∧ key.snd.snd = .client)
    (List.mem_cons_of_mem _ List.mem_cons_self)
    (h.profiles id hid (clients_tightens effect htight.principals hclient))
  criteria halerts := htight.subscriptions.forall_mem
    (C := fun key => key.fst ∈ effect.searchSubscriptionIds ∧ key.snd.fst = effect.partyId
      ∧ key.snd.snd = .searchAlerts)
    (List.mem_cons_of_mem _ List.mem_cons_self) (h.criteria halerts)

/-- Whether a decision selects a stream, from what identifies it. -/
theorem selects_congr (effect : PrivacySafetyEffect) {row row' : SubscriptionRow}
    (hkey : row'.key = row.key) : effect.selects row' = effect.selects row := by
  obtain ⟨hid, hparty, hpurpose⟩ : row'.id = row.id ∧ row'.partyId = row.partyId ∧
      row'.purpose = row.purpose := by
    simpa only [SubscriptionRow.key, Prod.mk.injEq] using hkey
  cases effect with
  | withdrawal effect => rw [PrivacySafetyEffect.selects, PrivacySafetyEffect.selects, hid, hparty]
  | restriction effect =>
    rw [PrivacySafetyEffect.selects, PrivacySafetyEffect.selects, hparty, hpurpose]

/-- The streams of a decision stay withdrawn. -/
theorem withdrawn_tighter {effect : PrivacySafetyEffect}
    (h : ∀ row ∈ db.subscriptions, effect.selects row = true → row.Withdrawn)
    (htight : Tighter db db') :
    ∀ row ∈ db'.subscriptions, effect.selects row = true → row.Withdrawn := by
  intro row' hrow' hselects
  obtain ⟨row, hrow, hkey, hfacts⟩ := htight.subscriptions row' hrow'
  rw [selects_congr effect hkey] at hselects
  exact hfacts _ List.mem_cons_self (h row hrow hselects)

/-- **What is in effect stays in effect** when the database is tightened. -/
theorem InEffect.tighter {effect : PrivacySafetyEffect} (h : InEffect db effect)
    (htight : Tighter db db') : InEffect db' effect where
  withdrawn := withdrawn_tighter h.withdrawn htight
  restricted restriction heffect := (h.restricted restriction heffect).tighter htight

/-! ## Applying a decision puts it in effect -/

theorem withdrawn_withdraw (db : Db) (effect : PrivacySafetyEffect) (sequence : ℕ) (actor : Actor)
    (now : Instant) : ∀ row ∈ (db.withdraw effect sequence actor now).subscriptions,
      effect.selects row = true → row.Withdrawn := by
  refine forall_updateWhere (fun _ _ _ _ => rfl) (fun row _ hp hselects => ?_)
  rw [hselects, Bool.true_and, decide_eq_false_iff_not, not_not] at hp
  exact hp

theorem mem_insertRestriction (rows : List ProcessingRestriction) (row : ProcessingRestriction) :
    ∃ r ∈ insertRestriction rows row, r.partyId = row.partyId ∧ r.purpose = row.purpose := by
  unfold insertRestriction
  split_ifs with hany
  · obtain ⟨r, hr, hsame⟩ := List.any_eq_true.mp hany
    simp only [Bool.and_eq_true, decide_eq_true_eq] at hsame
    exact ⟨r, hr, hsame⟩
  · exact ⟨row, by simp, rfl, rfl⟩

theorem recorded_restrict (db : Db) (effect : Restriction) (sequence : ℕ) :
    ∀ purpose ∈ effect.purposeNames, ∃ row ∈ (db.restrict effect sequence).restrictions,
      row.partyId = effect.partyId ∧ row.purpose = purpose := by
  show ∀ purpose ∈ effect.purposeNames, ∃ row ∈ effect.purposeNames.foldl
    (fun rows purpose => insertRestriction rows ⟨effect.partyId, purpose, sequence⟩)
    db.restrictions, row.partyId = effect.partyId ∧ row.purpose = purpose
  generalize effect.purposeNames = purposes
  generalize db.restrictions = rows
  induction purposes generalizing rows with
  | nil => exact fun purpose h => absurd h List.not_mem_nil
  | cons first purposes ih =>
    intro purpose hpurpose
    obtain rfl | hpurpose := List.mem_cons.mp hpurpose
    · obtain ⟨row, hrow, hsame⟩ := mem_insertRestriction rows ⟨effect.partyId, purpose, sequence⟩
      exact ⟨row, subset_foldl_insertRestriction
        (fun purpose => ⟨effect.partyId, purpose, sequence⟩) purposes _ hrow, hsame⟩
    · exact ih _ purpose hpurpose

/-- No email with one of the links is left queued. -/
theorem notQueued_cancelLinks (credentials : List Uuid) (actions : List ExternalAction)
    (now : Instant) : ∀ action ∈ (if credentials = [] then actions
      else updateWhere (isQueuedLink credentials) (cancelLink now) actions),
      action.kind = .emailSend → sendsLink credentials action = true → NotQueued action := by
  split_ifs with hnil
  · intro action _ _ hlink
    rw [hnil] at hlink
    simp [sendsLink] at hlink
  · refine forall_updateWhere
      (fun _ _ _ _ _ => show ExternalActionState.cancelled ≠ .queued by decide) ?_
    intro action _ hp hkind hlink hqueued
    simp [isQueuedLink, hkind, hlink, hqueued] at hp

/-- **Revoking the credentials of some clients closes them.** -/
theorem closed_revokeCredentials (db : Db) (ids : List Uuid) (now : Instant) :
    CredentialsClosed ids ((db.suspend ids now).revokeCredentials ids now) where
  principals := by
    refine forall_updateWhere
      (fun _ _ _ _ => show PrincipalStatus.suspended ≠ .active by decide) ?_
    intro row _ hp hid hactive
    simp [hid, hactive] at hp
  sessions := by
    refine forall_updateWhere (fun _ _ _ _ => Option.some_ne_none now) ?_
    intro row _ hp hof hnone
    simp [SessionRow.isOpenOf, hof.1, hof.2, hnone] at hp
  emailSignInTokens := by
    refine forall_updateWhere (fun _ _ _ _ => Or.inl (Option.some_ne_none now)) ?_
    intro token _ hp hof
    by_cases hrevoked : token.revokedAt = none
    · by_cases hconsumed : token.consumedAt = none
      · simp [hof, hrevoked, hconsumed] at hp
      · exact Or.inr hconsumed
    · exact Or.inl hrevoked
  externalActions := by
    exact notQueued_cancelLinks (credentialsOf ids
      ((db.suspend ids now).revokeCredentials ids now).emailSignInTokens) db.externalActions now
  invitations := by
    refine forall_updateWhere (fun _ _ _ _ => Or.inl (Option.some_ne_none now)) ?_
    intro row _ hp hof
    by_cases hrevoked : row.revokedAt = none
    · by_cases haccepted : row.acceptedAt = none
      · by_cases hdeclined : row.declinedAt = none
        · simp [hof.1, hof.2, hrevoked, haccepted, hdeclined] at hp
        · exact Or.inr (Or.inr hdeclined)
      · exact Or.inr (Or.inl haccepted)
    · exact Or.inl hrevoked
  passkeys := by
    refine forall_updateWhere (fun _ _ _ _ => Option.some_ne_none now) ?_
    intro row _ hp hid hnone
    simp [hid, hnone] at hp
  grants := by
    refine forall_updateWhere (fun _ _ _ _ => Option.some_ne_none now) ?_
    intro row _ hp hid hnone
    rw [hid, hnone] at hp
    cases hp

theorem closed_nil (db : Db) : CredentialsClosed [] db where
  principals _ _ h := absurd h List.not_mem_nil
  sessions _ _ h := absurd h.1 List.not_mem_nil
  emailSignInTokens token _ h := by simp [EmailSignInToken.isOf] at h
  externalActions action _ _ h := by
    simp [credentialsOf, EmailSignInToken.isOf, sendsLink] at h
  invitations _ _ h := absurd h.1 List.not_mem_nil
  passkeys _ _ h := absurd h List.not_mem_nil
  grants row _ h := by simp at h

theorem closed_clients (db : Db) (ids : List Uuid) (now : Instant) :
    CredentialsClosed ids
      (if ids = [] then db else (db.suspend ids now).revokeCredentials ids now) := by
  split_ifs with hnil
  · rw [hnil]
    exact closed_nil db
  · exact closed_revokeCredentials db ids now

theorem revoked_revokeExports (db : Db) (partyId : Uuid) (now : Instant) :
    ∀ row ∈ (db.revokeExports partyId now).privacyExports, row.partyId = partyId →
      row.Revoked := by
  refine forall_updateWhere (fun _ _ _ _ => rfl) (fun row _ hp hparty => ?_)
  show row.state = .revoked
  simpa [hparty] using hp

theorem preferencesErased_eraseParty (db : Db) {effect : Restriction} (now : Instant)
    (herase : effect.erasePreferences = true) :
    ∀ row ∈ (db.eraseParty effect now).parties, row.id = effect.partyId →
      row.PreferencesErased := by
  rw [Db.eraseParty, if_pos (by rw [herase]; rfl)]
  refine forall_updateWhere (fun row _ _ _ => ?_) (fun row _ hp hid => ?_)
  · show (if effect.erasePreferences then JsonValue.obj [] else row.contactPreferences) = _
    rw [if_pos herase]
  · exact absurd hid (of_decide_eq_false hp)

theorem aliasesErased_eraseParty (db : Db) {effect : Restriction} (now : Instant)
    (herase : effect.eraseAliases = true) :
    ∀ row ∈ (db.eraseParty effect now).parties, row.id = effect.partyId →
      row.AliasesErased := by
  rw [Db.eraseParty, if_pos (by rw [herase, Bool.or_true])]
  refine forall_updateWhere (fun row _ _ _ => ?_) (fun row _ hp hid => ?_)
  · show (if effect.eraseAliases then [] else row.matchingAliases) = _
    rw [if_pos herase]
  · exact absurd hid (of_decide_eq_false hp)

theorem erased_eraseContacts (db : Db) (effect : Restriction) (now : Instant) :
    ∀ id ∈ effect.contactIds, ∀ row ∈ (db.eraseContacts effect now).contactMethods,
      row.id = id ∧ row.partyId = effect.partyId → row.Erased :=
  forall_foldl_update ContactMethodRow.key (p := ContactMethodRow.isOf effect.partyId)
    (f := fun id => ContactMethodRow.erase id now)
    (C := fun id key => key.fst = id ∧ key.snd = effect.partyId) (fun _ _ => rfl)
    (fun _ _ hp => erased_erase now hp)
    (fun id row hrow => by simpa [ContactMethodRow.isOf, ContactMethodRow.key] using hrow) _ _

theorem profileErased_eraseProfiles (db : Db) (effect : Restriction) (ids : List Uuid)
    (now : Instant) :
    ∀ id ∈ effect.clientProfileIds, id ∈ ids →
      ∀ row ∈ (db.eraseProfiles effect ids now).principals,
        row.id = id ∧ row.partyId = effect.partyId ∧ row.kind = .client → row.ProfileErased := by
  intro id hid hclient
  refine forall_foldl_update PrincipalRow.key (p := PrincipalRow.isClient effect.partyId)
    (f := fun id => PrincipalRow.erase id now)
    (C := fun id key => key.fst = id ∧ key.snd.fst = effect.partyId ∧ key.snd.snd = .client)
    (fun _ _ => rfl) (fun _ _ hp => profileErased_erase now hp) (fun id row hrow => ?_) _ _ id
    (List.mem_filter.mpr ⟨hid, decide_eq_true hclient⟩)
  simpa [PrincipalRow.isClient, PrincipalRow.key, and_assoc] using hrow

theorem criteriaErased_eraseCriteria (db : Db) {effect : Restriction} (now : Instant)
    (halerts : OptionalPurpose.searchAlerts ∈ effect.purposes)
    (hwithdrawn : ∀ row ∈ db.subscriptions,
      (PrivacySafetyEffect.restriction effect).selects row = true → row.Withdrawn) :
    ∀ row ∈ (db.eraseCriteria effect now).subscriptions,
      row.id ∈ effect.searchSubscriptionIds ∧ row.partyId = effect.partyId
        ∧ row.purpose = .searchAlerts → row.CriteriaErased := by
  unfold Db.eraseCriteria
  split_ifs with hnil
  · intro row _ hrow
    rw [hnil] at hrow
    exact absurd hrow.1 List.not_mem_nil
  · refine forall_updateWhere (fun _ _ _ _ => ⟨rfl, rfl⟩) (fun row hrow hp hof => ?_)
    obtain ⟨hid, hparty, hpurpose⟩ := hof
    have hselects : (PrivacySafetyEffect.restriction effect).selects row = true := by
      have hmem : SubscriptionPurpose.searchAlerts
          ∈ effect.purposes.map OptionalPurpose.toSubscription := List.mem_map_of_mem halerts
      simpa [PrivacySafetyEffect.selects, hparty, hpurpose] using hmem
    have hstate : row.state = .withdrawn := hwithdrawn row hrow hselects
    simp [hparty, hpurpose, hid, hstate] at hp

/-- **Applying a decision puts it in effect.** -/
theorem inEffect_apply (db : Db) (effect : PrivacySafetyEffect) (sequence : ℕ) (actor : Actor)
    (now : Instant) : InEffect (applyPrivacySafetyEffect db effect sequence actor now) effect := by
  have hwithdrawn := withdrawn_withdraw db effect sequence actor now
  cases effect with
  | withdrawal effect => exact ⟨hwithdrawn, fun _ h => nomatch h⟩
  | restriction effect =>
    -- the database after each statement
    let db₀ := db.withdraw (.restriction effect) sequence actor now
    let db₁ := db₀.restrict effect sequence
    let ids := effect.clients db₁.principals
    let db₂ := if ids = [] then db₁ else (db₁.suspend ids now).revokeCredentials ids now
    let db₃ := db₂.revokeExports effect.partyId now
    let db₄ := db₃.eraseParty effect now
    let db₅ := db₄.eraseContacts effect now
    let db₆ := db₅.eraseProfiles effect ids now
    let db₇ := db₆.eraseCriteria effect now
    have h₁ : Tighter db₀ db₁ := tighter_restrict _ _ _
    have h₂ : Tighter db₁ db₂ := tighter_clients _ _ _
    have h₃ : Tighter db₂ db₃ := tighter_revokeExports _ _ _
    have h₄ : Tighter db₃ db₄ := tighter_eraseParty _ _ _
    have h₅ : Tighter db₄ db₅ := tighter_eraseContacts _ _ _
    have h₆ : Tighter db₅ db₆ := tighter_eraseProfiles _ _ _ _
    have h₇ : Tighter db₆ db₇ := tighter_eraseCriteria _ _ _
    have h₆₇ : Tighter db₅ db₇ := h₆.trans h₇
    have h₄₇ : Tighter db₄ db₇ := h₅.trans h₆₇
    have h₂₇ : Tighter db₂ db₇ := (h₃.trans h₄).trans h₄₇
    have h₁₇ : Tighter db₁ db₇ := h₂.trans h₂₇
    have hclients : effect.clients db₇.principals ⊆ ids := clients_tightens effect h₁₇.principals
    have h₀₆ : Tighter db₀ db₆ := ((((h₁.trans h₂).trans h₃).trans h₄).trans h₅).trans h₆
    show InEffect db₇ _
    refine ⟨withdrawn_tighter hwithdrawn (h₁.trans h₁₇), ?_⟩
    rintro _ ⟨⟩
    refine ⟨?_, ?_, ?_, ?_, ?_, ?_, ?_, ?_⟩
    · intro purpose hpurpose
      obtain ⟨row, hrow, hsame⟩ := recorded_restrict db₀ effect sequence purpose hpurpose
      exact ⟨row, h₁₇.restrictions hrow, hsame⟩
    · exact ((closed_clients db₁ ids now).tighter h₂₇).mono hclients
    · exact (h₄.trans h₄₇).privacyExports.forall_mem (C := fun key => key = effect.partyId)
        List.mem_cons_self (revoked_revokeExports db₂ effect.partyId now)
    · exact fun herase => h₄₇.parties.forall_mem (C := fun key => key = effect.partyId)
        List.mem_cons_self (preferencesErased_eraseParty db₃ now herase)
    · exact fun herase => h₄₇.parties.forall_mem (C := fun key => key = effect.partyId)
        (List.mem_cons_of_mem _ List.mem_cons_self) (aliasesErased_eraseParty db₃ now herase)
    · exact fun id hid => h₆₇.contactMethods.forall_mem
        (C := fun key => key.fst = id ∧ key.snd = effect.partyId) List.mem_cons_self
        (erased_eraseContacts db₄ effect now id hid)
    · exact fun id hid hclient => h₇.principals.forall_mem
        (C := fun key => key.fst = id ∧ key.snd.fst = effect.partyId ∧ key.snd.snd = .client)
        (List.mem_cons_of_mem _ List.mem_cons_self)
        (profileErased_eraseProfiles db₅ effect ids now id hid (hclients hclient))
    · exact fun halerts => criteriaErased_eraseCriteria db₆ now halerts
        (withdrawn_tighter hwithdrawn h₀₆)

end Privacy
