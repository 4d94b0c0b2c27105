import MsRealty.PrivacyTail
import MsRealty.SafetyLedgerRuns

/-!
# What re-applying a tail guarantees

A re-application that fails leaves at most the quarantine behind, one that
succeeds leaves the ledger at the signed head with every decision it added in
effect, and a second one changes nothing.

Whether an entry is accepted depends on the ledger and on which parties there
are, not on when it is applied (`reapplyEntry_agree`), so what fails once fails
again; and entries that are there are only compared (`foldlM_of_present`).
-/

namespace Privacy

open JsonText

variable {host : TailHost} {db db' : Db} {restoreId : String} {now now' : ℕ → Instant}

/-! ## What a statement leaves alone -/

/-- **The ledger, the parties there are, the name and the control** are those
of another database. -/
structure Agrees (db db' : Db) : Prop where
  name : db'.name = db.name
  decisions : db'.decisions = db.decisions
  parties : db'.parties.map PartyRow.id = db.parties.map PartyRow.id
  recoveryControl : db'.recoveryControl = db.recoveryControl

theorem Agrees.refl (db : Db) : Agrees db db := ⟨rfl, rfl, rfl, rfl⟩

theorem Agrees.symm (h : Agrees db db') : Agrees db' db :=
  ⟨h.name.symm, h.decisions.symm, h.parties.symm, h.recoveryControl.symm⟩

theorem Agrees.trans {db'' : Db} (h : Agrees db db') (h' : Agrees db' db'') : Agrees db db'' :=
  ⟨h'.name.trans h.name, h'.decisions.trans h.decisions, h'.parties.trans h.parties,
    h'.recoveryControl.trans h.recoveryControl⟩

theorem map_updateWhere {ρ κ : Type*} (key : ρ → κ) {p : ρ → Bool} {f : ρ → ρ} (rows : List ρ)
    (hkey : ∀ row, key (f row) = key row) :
    (updateWhere p f rows).map key = rows.map key := by
  rw [updateWhere, List.map_map]
  refine List.map_congr_left (fun row _ => ?_)
  show key (if p row then f row else row) = key row
  split_ifs
  · exact hkey row
  · rfl

theorem agrees_clients (db : Db) (ids : List Uuid) (now : Instant) :
    Agrees db (if ids = [] then db else (db.suspend ids now).revokeCredentials ids now) := by
  split_ifs
  · exact Agrees.refl db
  · exact ⟨rfl, rfl, rfl, rfl⟩

theorem agrees_eraseParty (db : Db) (effect : Restriction) (now : Instant) :
    Agrees db (db.eraseParty effect now) := by
  unfold Db.eraseParty
  split_ifs
  · exact ⟨rfl, rfl, map_updateWhere PartyRow.id _ (fun _ => rfl), rfl⟩
  · exact Agrees.refl db

theorem agrees_eraseCriteria (db : Db) (effect : Restriction) (now : Instant) :
    Agrees db (db.eraseCriteria effect now) := by
  unfold Db.eraseCriteria
  split_ifs
  · exact Agrees.refl db
  · exact ⟨rfl, rfl, rfl, rfl⟩

/-- **The effect of a decision leaves the ledger alone.** -/
theorem agrees_apply (db : Db) (effect : PrivacySafetyEffect) (sequence : ℕ) (actor : Actor)
    (now : Instant) : Agrees db (applyPrivacySafetyEffect db effect sequence actor now) := by
  have hwithdraw : Agrees db (db.withdraw effect sequence actor now) := ⟨rfl, rfl, rfl, rfl⟩
  cases effect with
  | withdrawal effect => exact hwithdraw
  | restriction effect =>
    have hrestrict : ∀ db : Db, Agrees db (db.restrict effect sequence) :=
      fun _ => ⟨rfl, rfl, rfl, rfl⟩
    have hexports : ∀ db : Db, Agrees db (db.revokeExports effect.partyId now) :=
      fun _ => ⟨rfl, rfl, rfl, rfl⟩
    have hcontacts : ∀ db : Db, Agrees db (db.eraseContacts effect now) :=
      fun _ => ⟨rfl, rfl, rfl, rfl⟩
    have hprofiles : ∀ (db : Db) ids, Agrees db (db.eraseProfiles effect ids now) :=
      fun _ _ => ⟨rfl, rfl, rfl, rfl⟩
    exact hwithdraw.trans (((((((hrestrict _).trans (agrees_clients _ _ now)).trans
      (hexports _)).trans (agrees_eraseParty _ effect now)).trans (hcontacts _)).trans
      (hprofiles _ _)).trans (agrees_eraseCriteria _ effect now))

/-- **A decision of the tail adds its row** to the ledger. -/
theorem agrees_applyDecision (db : Db) (row : SafetyRow) (restoreId : String) (now : Instant) :
    Agrees { db with decisions := db.decisions ++ [row] } (db.applyDecision row restoreId now) :=
  (agrees_apply _ row.effect row.sequence offlineActor now).trans ⟨rfl, rfl, rfl, rfl⟩

theorem decisions_applyDecision (db : Db) (row : SafetyRow) (restoreId : String) (now : Instant) :
    (db.applyDecision row restoreId now).decisions = db.decisions ++ [row] :=
  (agrees_applyDecision db row restoreId now).decisions

/-- A decision of the tail only tightens. -/
theorem tighter_applyDecision (db : Db) (row : SafetyRow) (restoreId : String) (now : Instant) :
    Tighter db (db.applyDecision row restoreId now) := by
  have happly := tighter_apply { db with decisions := db.decisions ++ [row] } row.effect
    row.sequence offlineActor now
  exact ⟨happly.restrictions, happly.parties, happly.contactMethods, happly.principals,
    happly.subscriptions, happly.sessions, happly.emailSignInTokens, happly.externalActions,
    happly.invitations, happly.passkeys, happly.grants, happly.privacyExports⟩

theorem inEffect_applyDecision (db : Db) (row : SafetyRow) (restoreId : String) (now : Instant) :
    InEffect (db.applyDecision row restoreId now) row.effect := by
  have happly := inEffect_apply { db with decisions := db.decisions ++ [row] } row.effect
    row.sequence offlineActor now
  exact happly.tighter ⟨List.Subset.refl _, .refl _, .refl _, .refl _, .refl _, .refl _,
    .refl _, .refl _, .refl _, .refl _, .refl _, .refl _⟩

/-- **A quarantine only tightens**, and is made once. -/
theorem quarantine_spec {fenced : Db} {restoreId snapshotDigest : String} {now : Instant}
    (h : quarantineRestoredDatabase db restoreId snapshotDigest now = .ok fenced) :
    Tighter db fenced ∧ fenced.name = db.name ∧ fenced.decisions = db.decisions ∧
      ∀ (db' : Db) (now' : Instant), db'.recoveryControl = fenced.recoveryControl →
        quarantineRestoredDatabase db' restoreId snapshotDigest now' = .ok db' := by
  unfold quarantineRestoredDatabase at h
  cases hcontrol : db.recoveryControl with
  | none =>
    rw [hcontrol] at h
    cases h
  | some control =>
    rw [hcontrol] at h
    cases control with
    | quarantined boundTo boundDigest at' invalidated =>
      dsimp only at h
      split_ifs at h with hother
      obtain rfl := Except.ok.inj h
      refine ⟨Tighter.refl db, rfl, rfl, fun db' now' hcontrol' => ?_⟩
      rw [quarantineRestoredDatabase, hcontrol', hcontrol]
      exact if_neg hother
    | normal =>
      obtain rfl := Except.ok.inj h
      refine ⟨{ Tighter.refl db with
        sessions := .update_one _ (fun _ => rfl) (fun _ _ _ => Option.some_ne_none now)
        emailSignInTokens := .update_one _ (fun _ => rfl)
          (fun _ _ _ => Or.inl (Option.some_ne_none now))
        invitations := .update_one _ (fun _ => rfl)
          (fun _ _ _ => Or.inl (Option.some_ne_none now)) }, rfl, rfl, fun db' now' hcontrol' => ?_⟩
      rw [quarantineRestoredDatabase, hcontrol']
      exact if_neg (by simp)

/-- Whether a destination is refused does not depend on when. -/
theorem quarantine_error {restoreId snapshotDigest message : String} {now : Instant}
    (h : quarantineRestoredDatabase db restoreId snapshotDigest now = .error message)
    (now' : Instant) :
    quarantineRestoredDatabase db restoreId snapshotDigest now' = .error message := by
  unfold quarantineRestoredDatabase at h ⊢
  cases hcontrol : db.recoveryControl with
  | none => rwa [hcontrol] at h
  | some control =>
    rw [hcontrol] at h
    cases control with
    | quarantined boundTo boundDigest at' invalidated => exact h
    | normal => cases h

/-! ## One entry -/

theorem ne_of_decisionAt {decisions : List SafetyRow} {sequence : ℕ} {row : SafetyRow}
    (h : decisionAt decisions sequence = none) (hrow : row ∈ decisions) :
    row.sequence ≠ sequence := by
  simpa using List.find?_eq_none.mp h row hrow

theorem plain_entry (entry : SafetyTailEntry) : Plain entry.toJson := by
  obtain ⟨hoperation, hparty, hrequest, hhash, hreview, heffect, hsequence, hid, hprevious,
    hrecorded, -⟩ := plain_fields entry.toSafetyFields
  exact ⟨hoperation, hparty, hrequest, hhash, hreview, heffect, hsequence, hid, hprevious,
    hrecorded, trivial, trivial⟩

/-- Entries of the same canonical text have the same digest. -/
theorem digest_of_canonicalJson {a b : SafetyTailEntry}
    (h : canonicalJson a.toJson = canonicalJson b.toJson) : a.digest = b.digest := by
  have hvalues := map_normalForm_of_zip (by decide +kernel) rfl rfl
    (normalForm_eq_of_canonicalJson (plain_entry a) (plain_entry b) h)
  simp only [SafetyFields.values, List.map_append, List.map_cons, List.map_nil] at hvalues
  exact JsonValue.str.inj (List.cons.inj (List.append_inj_right hvalues rfl)).1

/-- **What re-applying an entry does**: nothing, if the destination has it, or
it adds its row and applies its effect. -/
theorem reapplyEntry_cases {applied : ℕ} {entry : SafetyTailEntry} {state : Db × ℕ}
    (h : reapplyEntry host restoreId now (db, applied) entry = .ok state) :
    (state = (db, applied) ∧ ∃ row ∈ db.decisions, row.sequence = entry.sequence ∧
        row.digest = entry.digest) ∨
      decisionAt db.decisions entry.sequence = none ∧
        state = (db.applyDecision (entry.store host.toHost) restoreId (now entry.sequence),
          applied + 1) := by
  unfold reapplyEntry at h
  dsimp only at h
  cases hfound : decisionAt db.decisions entry.sequence with
  | some existing =>
    rw [hfound] at h
    dsimp only at h
    split_ifs at h with hsame
    refine Or.inl ⟨(Except.ok.inj h).symm, existing, List.mem_of_find?_eq_some hfound, ?_,
      digest_of_canonicalJson (not_not.mp hsame)⟩
    simpa [decisionAt] using List.find?_some hfound
  | none =>
    rw [hfound] at h
    dsimp only at h
    split_ifs at h
    exact Or.inr ⟨rfl, (Except.ok.inj h).symm⟩

/-- **Whether an entry is accepted depends on the ledger and the parties there
are**, not on when it is applied. -/
theorem reapplyEntry_agree (host : TailHost) (restoreId : String) (now now' : ℕ → Instant)
    (hagrees : Agrees db db') (applied : ℕ) (entry : SafetyTailEntry) :
    (∃ message, reapplyEntry host restoreId now (db, applied) entry = .error message ∧
        reapplyEntry host restoreId now' (db', applied) entry = .error message) ∨
      ∃ after after' applied', reapplyEntry host restoreId now (db, applied) entry
          = .ok (after, applied') ∧
        reapplyEntry host restoreId now' (db', applied) entry = .ok (after', applied') ∧
        Agrees after after' := by
  have hparties : ∀ row : SafetyRow, db'.insertableDecision row = db.insertableDecision row := by
    intro row
    have hany : ∀ parties : List PartyRow, parties.any (fun party => party.id = row.partyId)
        = (parties.map PartyRow.id).any (fun id => id = row.partyId) := by
      intro parties
      rw [List.any_map]
      rfl
    rw [Db.insertableDecision, Db.insertableDecision, hany, hany, hagrees.parties,
      hagrees.decisions]
  unfold reapplyEntry
  dsimp only
  rw [hagrees.decisions, hparties]
  cases decisionAt db.decisions entry.sequence with
  | some existing =>
    dsimp only
    by_cases hsame : canonicalJson existing.read.toJson ≠ canonicalJson entry.toJson
    · rw [if_pos hsame, if_pos hsame]
      exact Or.inl ⟨_, rfl, rfl⟩
    · rw [if_neg hsame, if_neg hsame]
      exact Or.inr ⟨db, db', applied, rfl, rfl, hagrees⟩
  | none =>
    dsimp only
    by_cases hgap : (privacySafetyHead db.decisions).fst + 1 ≠ entry.sequence
        ∨ (privacySafetyHead db.decisions).snd ≠ entry.previousDigest
    · rw [if_pos hgap, if_pos hgap]
      exact Or.inl ⟨_, rfl, rfl⟩
    rw [if_neg hgap, if_neg hgap]
    by_cases hinsert : ¬ db.insertableDecision (entry.store host.toHost) = true
    · rw [if_pos hinsert, if_pos hinsert]
      exact Or.inl ⟨_, rfl, rfl⟩
    · rw [if_neg hinsert, if_neg hinsert]
      refine Or.inr ⟨_, _, applied + 1, rfl, rfl, ?_⟩
      refine (agrees_applyDecision _ _ _ _).symm.trans (Agrees.trans ?_
        (agrees_applyDecision _ _ _ _))
      exact ⟨hagrees.name, by rw [hagrees.decisions], hagrees.parties, hagrees.recoveryControl⟩

/-! ## All entries -/

/-- The rows of the ledger are kept, and what is in effect stays so. -/
structure Extends (db db' : Db) : Prop where
  tighter : Tighter db db'
  name : db'.name = db.name
  recoveryControl : db'.recoveryControl = db.recoveryControl
  decisions : db.decisions ⊆ db'.decisions

theorem Extends.refl (db : Db) : Extends db db :=
  ⟨Tighter.refl db, rfl, rfl, List.Subset.refl _⟩

theorem Extends.trans {db'' : Db} (h : Extends db db') (h' : Extends db' db'') :
    Extends db db'' :=
  ⟨h.tighter.trans h'.tighter, h'.name.trans h.name,
    h'.recoveryControl.trans h.recoveryControl, List.Subset.trans h.decisions h'.decisions⟩

theorem extends_applyDecision (db : Db) (row : SafetyRow) (restoreId : String) (now : Instant) :
    Extends db (db.applyDecision row restoreId now) := by
  have hagrees := agrees_applyDecision db row restoreId now
  refine ⟨tighter_applyDecision db row restoreId now, hagrees.name, hagrees.recoveryControl, ?_⟩
  rw [decisions_applyDecision]
  exact List.subset_append_left _ _

theorem foldlM_cons_ok {entry : SafetyTailEntry} {entries : List SafetyTailEntry}
    {state after : Db × ℕ}
    (h : (entry :: entries).foldlM (reapplyEntry host restoreId now) state = .ok after) :
    ∃ mid, reapplyEntry host restoreId now state entry = .ok mid ∧
      entries.foldlM (reapplyEntry host restoreId now) mid = .ok after := by
  rw [List.foldlM_cons] at h
  cases hentry : reapplyEntry host restoreId now state entry with
  | error message =>
    rw [hentry] at h
    cases h
  | ok mid =>
    rw [hentry] at h
    exact ⟨mid, rfl, h⟩

/-- **What re-applying entries does**: the ledger has a row of each, and each
that was not there is in effect. -/
theorem foldlM_spec {entries : List SafetyTailEntry}
    (hnodup : (entries.map fun entry => entry.sequence).Nodup) {applied : ℕ} {after : Db × ℕ}
    (h : entries.foldlM (reapplyEntry host restoreId now) (db, applied) = .ok after) :
    Extends db after.fst ∧ ∀ entry ∈ entries,
      (∃ row ∈ after.fst.decisions, row.sequence = entry.sequence ∧ row.digest = entry.digest) ∧
      (decisionAt db.decisions entry.sequence = none ∨ InEffect db entry.effect →
        InEffect after.fst entry.effect) := by
  induction entries generalizing db applied with
  | nil =>
    obtain rfl : (db, applied) = after := Except.ok.inj h
    exact ⟨Extends.refl db, fun entry hentry => absurd hentry List.not_mem_nil⟩
  | cons first entries ih =>
    obtain ⟨⟨mid, applied'⟩, hfirst, hrest⟩ := foldlM_cons_ok h
    rw [List.map_cons, List.nodup_cons] at hnodup
    obtain ⟨hextends, hentries⟩ := ih hnodup.2 hrest
    obtain ⟨hsame, row, hrow, hsequence, hdigest⟩ | ⟨hnone, hadded⟩ := reapplyEntry_cases hfirst
    · obtain ⟨rfl, rfl⟩ := Prod.mk.inj hsame
      refine ⟨hextends, fun entry hentry => ?_⟩
      obtain rfl | hentry := List.mem_cons.mp hentry
      · refine ⟨⟨row, hextends.decisions hrow, hsequence, hdigest⟩, fun hbefore => ?_⟩
        obtain hnone | hbefore := hbefore
        · exact absurd hsequence (ne_of_decisionAt hnone hrow)
        · exact hbefore.tighter hextends.tighter
      · exact hentries entry hentry
    · obtain ⟨rfl, rfl⟩ := Prod.mk.inj hadded
      have hadds := extends_applyDecision db (first.store host.toHost) restoreId
        (now first.sequence)
      refine ⟨hadds.trans hextends, fun entry hentry => ?_⟩
      obtain rfl | hentry := List.mem_cons.mp hentry
      · refine ⟨⟨entry.store host.toHost, hextends.decisions ?_, rfl, rfl⟩, fun _ => ?_⟩
        · rw [decisions_applyDecision]
          exact List.mem_append_right _ List.mem_cons_self
        · exact (inEffect_applyDecision db (entry.store host.toHost) restoreId _).tighter
            hextends.tighter
      · refine ⟨(hentries entry hentry).1, fun hbefore => (hentries entry hentry).2 ?_⟩
        -- its number is not that of the row that was added
        have hother : entry.sequence ≠ first.sequence := fun heq =>
          hnodup.1 (heq ▸ List.mem_map_of_mem hentry)
        refine hbefore.imp (fun hnone' => ?_) (fun hbefore => hbefore.tighter hadds.tighter)
        rw [decisions_applyDecision, decisionAt, List.find?_append]
        rw [decisionAt] at hnone'
        rw [hnone', Option.none_or]
        exact List.find?_cons_of_neg (fun heq => hother (of_decide_eq_true heq).symm)

/-- **Entries that are there** are only compared. -/
theorem foldlM_of_present {entries : List SafetyTailEntry} {applied : ℕ} {after : Db × ℕ}
    (hpresent : ∀ entry ∈ entries, ∃ row ∈ db.decisions, row.sequence = entry.sequence)
    (h : entries.foldlM (reapplyEntry host restoreId now) (db, applied) = .ok after) :
    after = (db, applied) := by
  induction entries generalizing applied with
  | nil => exact (Except.ok.inj h).symm
  | cons first entries ih =>
    obtain ⟨mid, hfirst, hrest⟩ := foldlM_cons_ok h
    obtain ⟨rfl, -⟩ | ⟨hnone, -⟩ := reapplyEntry_cases hfirst
    · exact ih (fun entry hentry => hpresent entry (List.mem_cons_of_mem _ hentry)) hrest
    · obtain ⟨row, hrow, hsequence⟩ := hpresent first List.mem_cons_self
      exact absurd hsequence (ne_of_decisionAt hnone hrow)

/-- **Entries that are refused once are refused again.** -/
theorem foldlM_agree (host : TailHost) (restoreId : String) (now now' : ℕ → Instant)
    (hagrees : Agrees db db') (applied : ℕ) (entries : List SafetyTailEntry) :
    (∃ message, entries.foldlM (reapplyEntry host restoreId now) (db, applied) = .error message ∧
        entries.foldlM (reapplyEntry host restoreId now') (db', applied) = .error message) ∨
      ∃ after after' applied',
        entries.foldlM (reapplyEntry host restoreId now) (db, applied) = .ok (after, applied') ∧
        entries.foldlM (reapplyEntry host restoreId now') (db', applied)
          = .ok (after', applied') ∧
        Agrees after after' := by
  induction entries generalizing db db' applied with
  | nil => exact Or.inr ⟨db, db', applied, rfl, rfl, hagrees⟩
  | cons first entries ih =>
    rw [List.foldlM_cons, List.foldlM_cons]
    obtain ⟨message, hfirst, hfirst'⟩ | ⟨mid, mid', applied', hfirst, hfirst', hmid⟩ :=
      reapplyEntry_agree host restoreId now now' hagrees applied first
    · rw [hfirst, hfirst']
      exact Or.inl ⟨message, rfl, rfl⟩
    · rw [hfirst, hfirst']
      exact ih hmid applied'

/-- **What a re-application of checked entries leaves**: the signed head. -/
theorem reapplyEntries_ok {manifest : SyntheticPrivacyTail} {after : Db × ℕ}
    (h : reapplyEntries host db manifest restoreId now = .ok after) :
    manifest.entries.foldlM (reapplyEntry host restoreId now) (db, 0) = .ok after ∧
      privacySafetyHead after.fst.decisions = (manifest.throughSequence, manifest.headDigest) := by
  unfold reapplyEntries at h
  split_ifs at h
  cases hfold : manifest.entries.foldlM (reapplyEntry host restoreId now) (db, 0) with
  | error message =>
    rw [hfold] at h
    cases h
  | ok result =>
    rw [hfold] at h
    dsimp only at h
    split_ifs at h with hhead
    obtain rfl := Except.ok.inj h
    exact ⟨rfl, not_not.mp hhead⟩

theorem reapplyEntries_of {manifest : SyntheticPrivacyTail} {after : Db} {applied : ℕ}
    (hbelongs : manifest.belongsTo db.decisions = true)
    (hfold : manifest.entries.foldlM (reapplyEntry host restoreId now) (db, 0)
      = .ok (after, applied))
    (hhead : privacySafetyHead after.decisions = (manifest.throughSequence, manifest.headDigest)) :
    reapplyEntries host db manifest restoreId now = .ok (after, applied) := by
  rw [reapplyEntries, if_neg (not_not_intro hbelongs), hfold]
  exact if_neg (not_not_intro hhead)

theorem reapplyEntries_error {manifest : SyntheticPrivacyTail} {message : String}
    (h : reapplyEntries host db manifest restoreId now = .error message) (now' : ℕ → Instant) :
    reapplyEntries host db manifest restoreId now' = .error message := by
  unfold reapplyEntries at h ⊢
  by_cases hbelongs : ¬ manifest.belongsTo db.decisions = true
  · rw [if_pos hbelongs] at h ⊢
    exact h
  rw [if_neg hbelongs] at h ⊢
  obtain ⟨message', hfold, hfold'⟩ | ⟨after, after', applied, hfold, hfold', hagrees⟩ :=
    foldlM_agree host restoreId now now' (Agrees.refl db) 0 manifest.entries
  · rw [hfold] at h
    rwa [hfold']
  · rw [hfold] at h
    rw [hfold']
    dsimp only at h ⊢
    rw [hagrees.decisions]
    split_ifs at h ⊢ with hhead
    exact h

/-- **A checked tail** is signed, with its watermark, and its entries are a
chain from the snapshot to the signed head. -/
theorem checkTail_ok {input : TailInput} {manifest : SyntheticPrivacyTail}
    (h : host.checkTail input = .ok manifest) :
    input.manifest = some manifest ∧
      (∃ checkpoint, input.checkpoint = some checkpoint ∧
        host.signatureValid input manifest checkpoint = true) ∧
      (safetyChain host.sha256Hex).verify (manifest.snapshotSequence, manifest.snapshotLedgerDigest)
        manifest.entries = some (manifest.throughSequence, manifest.headDigest) := by
  unfold TailHost.checkTail at h
  split at h
  · next manifest' checkpoint hmanifest hcheckpoint =>
    split_ifs at h with hsigned hwatermark hcomplete hempty
    split at h
    · cases h
    · next head hverify =>
      split_ifs at h with hhead
      obtain rfl := Except.ok.inj h
      rw [not_not] at hhead
      rw [hhead] at hverify
      exact ⟨(Option.filter_eq_some_iff.mp hmanifest).1, ⟨checkpoint,
        (Option.filter_eq_some_iff.mp hcheckpoint).1, not_not.mp (not_or.mp hsigned).1⟩, hverify⟩
  · cases h

/-- A signed chain from the snapshot to the signed head passes the checks. -/
theorem checkTail_of {input : TailInput} {manifest : SyntheticPrivacyTail}
    {checkpoint : SyntheticPrivacyCheckpoint} (hmanifest : input.manifest = some manifest)
    (htail : host.isTail manifest = true) (hcheckpoint : input.checkpoint = some checkpoint)
    (hvalid : checkpoint.isValid = true)
    (hsigned : host.signatureValid input manifest checkpoint = true)
    (hbound : manifest.restoreId = input.restoreId ∧
      manifest.snapshotDigest = input.snapshotDigest)
    (hwatermark : checkpoint.restoreId = input.restoreId ∧
      checkpoint.snapshotDigest = input.snapshotDigest ∧
      checkpoint.throughSequence = manifest.throughSequence ∧
      checkpoint.headDigest = manifest.headDigest)
    (hempty : manifest.snapshotSequence = 0 → manifest.snapshotLedgerDigest = emptySafetyDigest)
    (hverify : (safetyChain host.sha256Hex).verify
      (manifest.snapshotSequence, manifest.snapshotLedgerDigest) manifest.entries
        = some (manifest.throughSequence, manifest.headDigest)) :
    host.checkTail input = .ok manifest := by
  have hlength := HashChain.fst_of_verify hverify
  dsimp only at hlength
  have hcomplete : ¬ (manifest.throughSequence < manifest.snapshotSequence ∨
      manifest.entries.length ≠ manifest.throughSequence - manifest.snapshotSequence) := by
    omega
  rw [TailHost.checkTail, hmanifest, hcheckpoint, Option.filter_some, Option.filter_some,
    if_pos htail, if_pos hvalid]
  dsimp only
  rw [hverify, if_neg hcomplete]
  simpa [hsigned, hbound, hwatermark] using hempty

/-- The entries of a checked tail have different numbers. -/
theorem nodup_sequence {manifest : SyntheticPrivacyTail} {head head' : ℕ × String}
    (h : (safetyChain host.sha256Hex).verify head manifest.entries = some head') :
    (manifest.entries.map fun entry => entry.sequence).Nodup := by
  have hsequence := HashChain.map_sequence h
  show (manifest.entries.map (safetyChain host.sha256Hex).sequence).Nodup
  rw [hsequence]
  exact List.nodup_range'

/-! ## The whole re-application -/

/-- **What follows the quarantine** is refused, whenever it is tried, or the
checked entries have been applied. -/
theorem reapplyQuarantined_cases (host : TailHost) (db : Db) (input : TailInput)
    (now : ℕ → Instant) :
    (∃ message, ∀ now', reapplyQuarantined host db input now' = (db, .error message)) ∨
      ∃ manifest after applied, host.checkTail input = .ok manifest ∧
        reapplyEntries host db manifest input.restoreId now = .ok (after, applied) ∧
        reapplyQuarantined host db input now
          = (after, .ok ⟨applied, manifest.throughSequence⟩) := by
  unfold reapplyQuarantined
  cases htail : host.checkTail input with
  | error message => exact Or.inl ⟨message, fun _ => rfl⟩
  | ok manifest =>
    dsimp only
    cases hentries : reapplyEntries host db manifest input.restoreId now with
    | error message =>
      refine Or.inl ⟨message, fun now' => ?_⟩
      rw [reapplyEntries_error hentries now']
    | ok result => exact Or.inr ⟨manifest, result.fst, result.snd, rfl, hentries, rfl⟩

theorem reapplyQuarantined_of {input : TailInput} {manifest : SyntheticPrivacyTail} {after : Db}
    {applied : ℕ} (htail : host.checkTail input = .ok manifest)
    (hentries : reapplyEntries host db manifest input.restoreId now = .ok (after, applied)) :
    reapplyQuarantined host db input now = (after, .ok ⟨applied, manifest.throughSequence⟩) := by
  rw [reapplyQuarantined, htail]
  dsimp only
  rw [hentries]

/-- **What was applied is there**: the signed head, a row of each entry, and
each decision that was not there in effect. -/
theorem reapplyEntries_spec {input : TailInput} {manifest : SyntheticPrivacyTail} {after : Db}
    {applied : ℕ} (htail : host.checkTail input = .ok manifest)
    (h : reapplyEntries host db manifest restoreId now = .ok (after, applied)) :
    Extends db after ∧
      privacySafetyHead after.decisions = (manifest.throughSequence, manifest.headDigest) ∧
      ∀ entry ∈ manifest.entries,
        (∃ row ∈ after.decisions, row.sequence = entry.sequence ∧ row.digest = entry.digest) ∧
        (decisionAt db.decisions entry.sequence = none ∨ InEffect db entry.effect →
          InEffect after entry.effect) := by
  obtain ⟨hfold, hhead⟩ := reapplyEntries_ok h
  obtain ⟨-, -, hverify⟩ := checkTail_ok htail
  obtain ⟨hextends, hentries⟩ := foldlM_spec (nodup_sequence hverify) hfold
  exact ⟨hextends, hhead, hentries⟩

/-- **A second time, nothing changes**: every entry is there. -/
theorem reapplyQuarantined_again {input : TailInput} {manifest : SyntheticPrivacyTail}
    {after : Db} {applied : ℕ} (htail : host.checkTail input = .ok manifest)
    (h : reapplyEntries host db manifest input.restoreId now = .ok (after, applied))
    (now' : ℕ → Instant) : (reapplyQuarantined host after input now').fst = after := by
  obtain ⟨-, -, hentries⟩ := reapplyEntries_spec htail h
  obtain ⟨message, hrefused⟩ | ⟨manifest', after', applied', htail', h', hagain⟩ :=
    reapplyQuarantined_cases host after input now'
  · rw [hrefused now']
  · obtain rfl : manifest = manifest' := Except.ok.inj (htail.symm.trans htail')
    have hsame := foldlM_of_present (fun entry hentry => ?_) (reapplyEntries_ok h').1
    · rw [hagain, (Prod.mk.inj hsame).1]
    · obtain ⟨⟨row, hrow, hsequence, -⟩, -⟩ := hentries entry hentry
      exact ⟨row, hrow, hsequence⟩

/-- A quarantined destination goes straight to the tail. -/
theorem reapply_of_quarantined {input : TailInput} {now' : ℕ → Instant}
    (hname : db'.name = db.name) (hdisposable : isDisposable db.name = true)
    (hbound : isUuidText input.restoreId = true ∧ isDigest input.snapshotDigest = true)
    (hquarantined : quarantineRestoredDatabase db' input.restoreId input.snapshotDigest (now' 0)
      = .ok db') :
    reapplySyntheticPrivacyTail host db' input now' = reapplyQuarantined host db' input now' := by
  rw [reapplySyntheticPrivacyTail, hname, if_neg (not_not_intro hdisposable),
    if_neg (by rw [hbound.1, hbound.2]; simp), hquarantined]

/-- **How a re-application goes**: it is refused at once, whenever it is tried,
or the tail meets a quarantined destination. -/
theorem reapply_cases (host : TailHost) (db : Db) (input : TailInput) (now : ℕ → Instant) :
    (∃ message, ∀ now', reapplySyntheticPrivacyTail host db input now' = (db, .error message)) ∨
      (isDisposable db.name = true ∧
        (isUuidText input.restoreId = true ∧ isDigest input.snapshotDigest = true)) ∧
      ∃ fenced,
        quarantineRestoredDatabase db input.restoreId input.snapshotDigest (now 0) = .ok fenced ∧
        reapplySyntheticPrivacyTail host db input now
          = reapplyQuarantined host fenced input now := by
  by_cases hdisposable : isDisposable db.name = true
  swap
  · exact Or.inl ⟨_, fun now' => if_pos hdisposable⟩
  by_cases hbound : isUuidText input.restoreId = true ∧ isDigest input.snapshotDigest = true
  swap
  · rw [not_and_or] at hbound
    exact Or.inl ⟨_, fun now' => (if_neg (not_not_intro hdisposable)).trans (if_pos hbound)⟩
  have hbound' : ¬ (¬ isUuidText input.restoreId = true ∨ ¬ isDigest input.snapshotDigest = true) :=
    not_or.mpr ⟨not_not_intro hbound.1, not_not_intro hbound.2⟩
  cases hquarantine :
      quarantineRestoredDatabase db input.restoreId input.snapshotDigest (now 0) with
  | error message =>
    refine Or.inl ⟨message, fun now' => ?_⟩
    rw [reapplySyntheticPrivacyTail, if_neg (not_not_intro hdisposable), if_neg hbound',
      quarantine_error hquarantine]
  | ok fenced =>
    refine Or.inr ⟨⟨hdisposable, hbound⟩, fenced, rfl, ?_⟩
    rw [reapplySyntheticPrivacyTail, if_neg (not_not_intro hdisposable), if_neg hbound',
      hquarantine]

theorem sequence_le_head {rows : List SafetyRow} {row : SafetyRow} (h : row ∈ rows) :
    row.sequence ≤ (privacySafetyHead rows).fst := by
  induction rows using List.reverseRecOn with
  | nil => cases h
  | append_singleton rows last ih =>
    rw [privacySafetyHead, List.foldl_append, ← privacySafetyHead, List.foldl_cons]
    obtain h | h := List.mem_append.mp h
    · split_ifs with hlast
      · exact (ih h).trans hlast.le
      · exact ih h
    · obtain rfl := List.mem_singleton.mp h
      split_ifs with hlast
      · exact le_rfl
      · exact not_lt.mp hlast

/-- **Entries that follow the head of the ledger** are all applied. -/
theorem foldlM_of_follows {entries : List SafetyTailEntry} {applied : ℕ} {head : ℕ × String}
    (hverify : (safetyChain host.sha256Hex).verify (privacySafetyHead db.decisions) entries
      = some head)
    (hunique : (db.decisions ++ entries.map (·.store host.toHost)).Pairwise
      (fun r row => r.id ≠ row.id ∧ r.operationId ≠ row.operationId))
    (hparties : ∀ entry ∈ entries, entry.partyId ∈ db.parties.map PartyRow.id) :
    ∃ after, entries.foldlM (reapplyEntry host restoreId now) (db, applied)
        = .ok (after, applied + entries.length) ∧
      after.decisions = db.decisions ++ entries.map (·.store host.toHost) ∧
      privacySafetyHead after.decisions = head := by
  induction entries generalizing db applied with
  | nil => exact ⟨db, rfl, (List.append_nil _).symm, Option.some.inj hverify⟩
  | cons entry entries ih =>
    obtain ⟨⟨hsequence, hprevious, -⟩, hrest⟩ := HashChain.verify_cons_eq_some.mp hverify
    change entry.sequence = _ at hsequence
    change entry.previousDigest = _ at hprevious
    have hne : ∀ row ∈ db.decisions, row.sequence ≠ entry.sequence := fun row hrow => by
      have hle := sequence_le_head hrow
      omega
    have hnone : decisionAt db.decisions entry.sequence = none :=
      List.find?_eq_none.mpr (fun row hrow => by simpa using hne row hrow)
    have hinsert : db.insertableDecision (entry.store host.toHost) = true := by
      refine Bool.and_eq_true_iff.mpr ⟨List.all_eq_true.mpr (fun row hrow => ?_), ?_⟩
      · obtain ⟨hid, hoperation⟩ :=
          (List.pairwise_append.mp hunique).2.2 row hrow _ List.mem_cons_self
        simp only [Bool.and_eq_true, decide_eq_true_eq]
        exact ⟨⟨hne row hrow, hid⟩, hoperation⟩
      · obtain ⟨party, hparty, hid⟩ := List.mem_map.mp (hparties entry List.mem_cons_self)
        exact List.any_eq_true.mpr ⟨party, hparty, decide_eq_true hid⟩
    have hfirst : reapplyEntry host restoreId now (db, applied) entry = .ok
        (db.applyDecision (entry.store host.toHost) restoreId (now entry.sequence),
          applied + 1) := by
      simp only [reapplyEntry, hnone]
      rw [if_neg (by simp [hsequence, hprevious]), if_neg (not_not_intro hinsert)]
    obtain ⟨-, hdecisions, hids, -⟩ :=
      agrees_applyDecision db (entry.store host.toHost) restoreId (now entry.sequence)
    dsimp only at hdecisions
    obtain ⟨after, hfold, hafter, hhead⟩ := @ih _ (applied + 1)
      (by
        rw [hdecisions, privacySafetyHead, List.foldl_append, ← privacySafetyHead]
        exact (congrArg (HashChain.verify _ · _)
          (if_pos (hsequence ▸ Nat.lt_succ_self _))).trans hrest)
      (by rwa [hdecisions, List.append_assoc])
      (fun e he => hids ▸ hparties e (List.mem_cons_of_mem _ he))
    refine ⟨after, ?_, ?_, hhead⟩
    · rw [List.foldlM_cons, hfirst, List.length_cons, ← Nat.add_assoc, Nat.add_right_comm]
      exact hfold
    · rw [hafter, hdecisions, List.append_assoc]
      rfl

/-- **A tail that begins where the ledger ends is applied whole**, if its rows
may stand beside those there are, and their parties are there: the destination
ends with its ledger and every entry of the tail. -/
theorem reapply_complete {input : TailInput} {manifest : SyntheticPrivacyTail}
    (htail : host.checkTail input = .ok manifest) (hbelongs : manifest.belongsTo db.decisions = true)
    (hhead : privacySafetyHead db.decisions
      = (manifest.snapshotSequence, manifest.snapshotLedgerDigest))
    (hunique : (db.decisions ++ manifest.entries.map (·.store host.toHost)).Pairwise
      (fun r row => r.id ≠ row.id ∧ r.operationId ≠ row.operationId))
    (hparties : ∀ entry ∈ manifest.entries, entry.partyId ∈ db.parties.map PartyRow.id) :
    ∃ after, reapplyQuarantined host db input now
        = (after, .ok ⟨manifest.entries.length, manifest.throughSequence⟩) ∧
      after.decisions = db.decisions ++ manifest.entries.map (·.store host.toHost) := by
  obtain ⟨-, -, hverify⟩ := checkTail_ok htail
  obtain ⟨after, hfold, hafter, hlast⟩ := @foldlM_of_follows host db input.restoreId now
    manifest.entries 0 _ (hhead ▸ hverify) hunique hparties
  rw [Nat.zero_add] at hfold
  exact ⟨after, reapplyQuarantined_of htail (reapplyEntries_of hbelongs hfold hlast), hafter⟩

/-! ## A destination with a subscription taken up again -/

/-- The withdrawal as an entry of a tail. -/
def sampleEntry : SafetyTailEntry :=
  (sampleRow "00000000-0000-4000-8000-000000000002"
    "36d3d96f904a0655fac9b7f63359bb859f5b1cc52080ba8b5ce574ea57537ecc").read

/-- The tail with that entry. -/
def sampleTail : SyntheticPrivacyTail where
  restoreId := "00000000-0000-4000-8000-000000000005"
  snapshotDigest := "5feceb66ffc86f38d952786c6d696c79c2dbc239dd4e91b46729d73a27fb57e9"
  snapshotSequence := 0
  snapshotLedgerDigest := emptySafetyDigest
  throughSequence := 1
  headDigest := "36d3d96f904a0655fac9b7f63359bb859f5b1cc52080ba8b5ce574ea57537ecc"
  entries := [sampleEntry]

/-- Its watermark. -/
def sampleCheckpoint : SyntheticPrivacyCheckpoint where
  restoreId := "00000000-0000-4000-8000-000000000005"
  snapshotDigest := "5feceb66ffc86f38d952786c6d696c79c2dbc239dd4e91b46729d73a27fb57e9"
  throughSequence := 1
  headDigest := "36d3d96f904a0655fac9b7f63359bb859f5b1cc52080ba8b5ce574ea57537ecc"

/-- What is re-applied, with or without the tail. -/
def sampleInput (manifest : Option SyntheticPrivacyTail) : TailInput where
  restoreId := "00000000-0000-4000-8000-000000000005"
  snapshotDigest := "5feceb66ffc86f38d952786c6d696c79c2dbc239dd4e91b46729d73a27fb57e9"
  manifest := manifest
  signature := "c2lnbmF0dXJl"
  trustedPublicKey := "-----BEGIN PUBLIC KEY-----"
  checkpoint := some sampleCheckpoint
  checkpointSignature := "c2lnbmF0dXJl"

/-- A host that takes the signatures as valid. -/
def sampleTailHost : TailHost where
  toHost := sampleHost
  isDatetime := fun _ => true
  isEd25519 := fun _ => true
  verify := fun _ _ _ => true

/-- **A destination** that has the withdrawal, and whose client has since taken
the subscription up again. -/
def sampleDestination : Db where
  name := "test_00000000000000000000000000000000"
  decisions := [sampleRow "00000000-0000-4000-8000-000000000002"
    "36d3d96f904a0655fac9b7f63359bb859f5b1cc52080ba8b5ce574ea57537ecc"]
  propagation := []
  restrictions := []
  parties := []
  contactMethods := []
  principals := []
  subscriptions := [⟨"00000000-0000-4000-8000-000000000003",
    "00000000-0000-4000-8000-000000000002", .serviceUpdates, .active, "v1", none, none, 3, 0⟩]
  consentEvents := []
  sessions := []
  emailSignInTokens := []
  externalActions := []
  invitations := []
  passkeys := []
  grants := []
  privacyExports := []
  webauthnChallenges := []
  recoveryControl := some .normal
  audit := []

theorem isDigest_sample : isDigest emptySafetyDigest = true ∧
    isDigest "5feceb66ffc86f38d952786c6d696c79c2dbc239dd4e91b46729d73a27fb57e9" = true ∧
    isDigest "36d3d96f904a0655fac9b7f63359bb859f5b1cc52080ba8b5ce574ea57537ecc" = true ∧
    isDigest "b242680552c4601aab608814ca1456d0c3403047d7b6fca481d2247ee72c3572" = true := by
  simp [isDigest, emptySafetyDigest]

theorem isUuidText_sample : isUuidText "00000000-0000-4000-8000-000000000001" = true ∧
    isUuidText "00000000-0000-4000-8000-000000000002" = true ∧
    isUuidText "00000000-0000-4000-8000-000000000003" = true ∧
    isUuidText "00000000-0000-4000-8000-000000000004" = true ∧
    isUuidText "00000000-0000-4000-8000-000000000005" = true := by
  decide +kernel

theorem isTail_sampleTail : sampleTailHost.isTail sampleTail = true := by
  obtain ⟨hempty, hsnapshot, hdigest, hrequest⟩ := isDigest_sample
  obtain ⟨h1, h2, h3, h4, h5⟩ := isUuidText_sample
  have heffect : sampleEntry.effect.isValid = true := by
    have hsame : sampleEntry.effect = .withdrawal ⟨"00000000-0000-4000-8000-000000000002",
        ["00000000-0000-4000-8000-000000000003"]⟩ := rfl
    rw [hsame]
    simp [PrivacySafetyEffect.isValid, h2, h3, isUuidList]
  have hentry : sampleTailHost.isEntry sampleEntry = true := by
    rw [TailHost.isEntry, heffect]
    simp [sampleEntry, SafetyEntry.read, sampleRow, sampleTailHost, h1, h2, h4, hempty, hdigest,
      hrequest, maxSafeInteger]
  simp [TailHost.isTail, sampleTail, h5, hempty, hsnapshot, hdigest, hentry, maxSafeInteger]

theorem isValid_sampleCheckpoint : sampleCheckpoint.isValid = true := by
  obtain ⟨-, hsnapshot, hdigest, -⟩ := isDigest_sample
  obtain ⟨-, -, -, -, h5⟩ := isUuidText_sample
  simp [SyntheticPrivacyCheckpoint.isValid, sampleCheckpoint, h5, hsnapshot, hdigest,
    maxSafeInteger]

theorem sampleTailHost_sha256Hex : sampleTailHost.sha256Hex = sampleSha256 := by
  rw [sampleTailHost]
  exact sampleHost_sha256Hex

theorem safetyChain_hash (sha256Hex : String → String) (entry : SafetyTailEntry) :
    (safetyChain sha256Hex).hash entry = sha256Hex (encoding entry.toSafetyFields) :=
  rfl

theorem verify_sampleTail : (safetyChain sampleTailHost.sha256Hex).verify
    (0, emptySafetyDigest) [sampleEntry]
    = some (1, "36d3d96f904a0655fac9b7f63359bb859f5b1cc52080ba8b5ce574ea57537ecc") := by
  have hhash : (safetyChain sampleSha256).hash sampleEntry
      = (safetyChain sampleSha256).digest sampleEntry := by
    rw [safetyChain_hash, sampleEntry, sampleText_digest, sampleSha256_entry]
    rfl
  rw [sampleTailHost_sha256Hex]
  exact HashChain.verify_cons_eq_some.mpr ⟨⟨rfl, rfl, hhash, rfl⟩, rfl⟩

theorem signatureValid_sample (input : TailInput) (manifest : SyntheticPrivacyTail)
    (checkpoint : SyntheticPrivacyCheckpoint) (h : input.signature = "c2lnbmF0dXJl") :
    sampleTailHost.signatureValid input manifest checkpoint = true := by
  have hform : isBase64 "c2lnbmF0dXJl" = true := by decide +kernel
  rw [TailHost.signatureValid, h, hform]
  rfl

theorem checkTail_sampleTail :
    sampleTailHost.checkTail (sampleInput (some sampleTail)) = .ok sampleTail :=
  checkTail_of rfl isTail_sampleTail rfl isValid_sampleCheckpoint (signatureValid_sample _ _ _ rfl)
    ⟨rfl, rfl⟩ ⟨rfl, rfl, rfl, rfl⟩ (fun _ => rfl) verify_sampleTail

theorem reapply_complete_sample : ∃ after, reapplyQuarantined sampleTailHost
      { sampleDestination with
        decisions := [], parties := [⟨sampleEntry.partyId, .null, [], 0, 0⟩] }
      (sampleInput (some sampleTail)) (fun _ => 0) = (after, .ok ⟨1, 1⟩) ∧
    after.decisions = [sampleEntry.store sampleHost] :=
  reapply_complete checkTail_sampleTail rfl rfl (List.pairwise_singleton _ _)
    (fun _ h => List.mem_singleton.mp h ▸ List.mem_cons_self)

/-- The destination in quarantine. -/
def sampleQuarantined : Db :=
  { sampleDestination with
    recoveryControl := some (.quarantined "00000000-0000-4000-8000-000000000005"
      "5feceb66ffc86f38d952786c6d696c79c2dbc239dd4e91b46729d73a27fb57e9" 0 ⟨0, 0, 0, 0⟩)
    audit := [⟨"00000000-0000-4000-8000-000000000005",
      "5feceb66ffc86f38d952786c6d696c79c2dbc239dd4e91b46729d73a27fb57e9", ⟨0, 0, 0, 0⟩, 0⟩] }

/-- The destination meets the tail in quarantine. -/
theorem reapply_sampleDestination (manifest : Option SyntheticPrivacyTail) :
    reapplySyntheticPrivacyTail sampleTailHost sampleDestination (sampleInput manifest)
        (fun _ => 0)
      = reapplyQuarantined sampleTailHost sampleQuarantined (sampleInput manifest)
        (fun _ => 0) := by
  have hname : isDisposable sampleDestination.name = true := by decide +kernel
  have hbound : ¬ (¬ isUuidText (sampleInput manifest).restoreId = true ∨
      ¬ isDigest (sampleInput manifest).snapshotDigest = true) :=
    not_or.mpr ⟨not_not_intro isUuidText_sample.2.2.2.2, not_not_intro isDigest_sample.2.1⟩
  exact (if_neg (not_not_intro hname)).trans (if_neg hbound)

/-- The ledger has the entry: nothing is applied. -/
theorem reapplyEntries_sampleTail :
    reapplyEntries sampleTailHost sampleQuarantined sampleTail
        "00000000-0000-4000-8000-000000000005" (fun _ => 0) = .ok (sampleQuarantined, 0) := by
  have hhead : privacySafetyHead sampleQuarantined.decisions
      = (sampleTail.throughSequence, sampleTail.headDigest) := rfl
  have hbelongs : sampleTail.belongsTo sampleQuarantined.decisions = true := by
    rw [SyntheticPrivacyTail.belongsTo, hhead]
    rfl
  have hentry : reapplyEntry sampleTailHost "00000000-0000-4000-8000-000000000005" (fun _ => 0)
      (sampleQuarantined, 0) sampleEntry = .ok (sampleQuarantined, 0) := by
    have hfound : decisionAt sampleQuarantined.decisions sampleEntry.sequence
        = some (sampleRow "00000000-0000-4000-8000-000000000002"
          "36d3d96f904a0655fac9b7f63359bb859f5b1cc52080ba8b5ce574ea57537ecc") := rfl
    rw [reapplyEntry]
    dsimp only
    rw [hfound]
    exact if_neg (not_not_intro rfl)
  refine reapplyEntries_of hbelongs ?_ hhead
  show [sampleEntry].foldlM _ _ = _
  rw [List.foldlM_cons, hentry]
  rfl

end Privacy
