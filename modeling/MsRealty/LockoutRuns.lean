import MsRealty.AccessManagers
import MsRealty.Lockouts

/-!
# Lockouts are complete

Registrations, sign-ins and step-ups, redemptions of invitations and lockouts, of any
principals and interleaved statement by statement. In every state reached, whoever was
locked out has no way in until an invitation that was issued since is accepted; and a
token and a challenge are used successfully once at most (`lockedOut_of_reachable`).

Each command is followed with what is known of what it has written so far (`Ready`): a
ceremony that it has taken up, or that it may trust the account whose row it has locked.
-/

namespace StaffAccess

open RowLocks Authz Access Sessions

section

variable {β : Type} {Q : β → (StaffData → StaffData) → Locks Row → StaffData → Prop}
  {F : StaffData → Prop} {writes : StaffData → StaffData} {locks : Locks Row} {d : StaffData}
  {p : Uuid}

/-! ## Calm parts -/

/-- A part whose writes are calm. -/
abbrev CalmWrites {α : Type} (part : Statements α) : Prop :=
  OnlyWrites (fun effect => ∀ x, Calm x (effect x)) (fun _ => True) part

theorem ReadsOnly.calm {α : Type} {part : Statements α} (h : ReadsOnly part) : CalmWrites part :=
  h.mono fun _ => False.elim

/-- **The rule of a calm part**: a fact that calm changes leave is still one. -/
theorem safe_calm {α : Type} {part : Statements α} {f : α → Statements β} (hpart : CalmWrites part)
    (hF : ∀ x y, Calm x y → F x → F y) (hready : Ready lockouts LockoutInv F writes locks d)
    (hd : LockoutInv d)
    (hf : ∀ a writes' locks' d', (∀ l ∈ locks, l ∈ locks') → LockoutInv d' →
      Ready lockouts LockoutInv F writes' locks' d' →
      Safe lockouts LockoutInv Q (f a) writes' locks' d') :
    Safe lockouts LockoutInv Q (part >>= f) writes locks d := by
  refine hpart.safe_bind (C := fun writes' => ∀ x, Calm (writes x) (writes' x))
    (fun e writes' he hw x => (hw x).trans (he _)) (fun x => .refl _) hd ?_
  intro a writes' locks' d' _ hcalm hsub hrely hd'
  refine hf a writes' locks' d' hsub hd' fun d'' hrely' hd'' => ?_
  obtain ⟨⟨hx, hguarantee⟩, hfact⟩ := hready.mono hsub hrely d'' hrely' hd''
  obtain ⟨hy, hmore⟩ := (hcalm d'').keeps hx
  exact ⟨⟨hy, guarantee_trans hguarantee hmore⟩, hF _ _ (hcalm d'') hfact⟩

/-- Revoking sessions is calm. -/
theorem calm_revoked {still : SessionRow → Bool} (now : Instant) (ids : List Uuid)
    (x : StaffData) :
    Calm x (changeRows sessionTable still (revokedSession now) (fun _ => rfl) ids x) := by
  refine calm_sessions fun q row hopen => ?_
  rw [openSessionOf, Bool.and_eq_true_iff] at hopen
  exact absurd hopen.2 Bool.false_ne_true

theorem calm_revokeAllSessions (p : Uuid) (now : Instant) :
    CalmWrites (revokeAllSessions p now) :=
  OnlyWrites.updating fun ids x => calm_revoked now ids x

theorem calm_revokeSession (tokenHash : String) (now : Instant) :
    CalmWrites (revokeSession tokenHash now) :=
  OnlyWrites.updating fun ids x => calm_revoked now ids x

theorem calm_endCurrent (currentTokenHash : Option String) (now : Instant) :
    CalmWrites (endCurrent currentTokenHash now) := by
  unfold endCurrent
  split
  · trivial
  · exact (calm_revokeSession _ now).bind fun _ _ => trivial

theorem calm_readSession (tokenHash : String) (now : Instant) :
    CalmWrites (readSession tokenHash now) := by
  refine fun _ => OnlyWrites.required fun row _ => fun _ => OnlyWrites.demand fun _ => ?_
  split_ifs
  · refine OnlyWrites.bind (P := fun _ => True) ?_ fun _ _ => trivial
    exact OnlyWrites.updating fun ids x => calm_sessions fun q row hopen => hopen
  · trivial

/-- Revoking passkeys is calm. -/
theorem calm_revokedPasskeys (p : Uuid) (now : Instant) (ids : List Uuid) (x : StaffData) :
    Calm x (changeRows passkeyTable (activePasskeyOf p) (revokedPasskey now) (fun _ => rfl) ids
      x) := by
  refine calm_passkeys (fun _ => rfl) fun q row hactive => ?_
  rw [activePasskeyOf, Bool.and_eq_true_iff] at hactive
  exact absurd hactive.2 Bool.false_ne_true

theorem calm_usedPasskey {still : PasskeyRow → Bool} (newCounter : ℕ) (ids : List Uuid)
    (x : StaffData) :
    Calm x (changeRows passkeyTable still (usedPasskey newCounter) (fun _ => rfl) ids x) :=
  calm_passkeys (fun _ => rfl) fun _ _ hactive => hactive

theorem calm_revokePasskeys (p : Uuid) (now : Instant) : CalmWrites (revokePasskeys p now) :=
  OnlyWrites.updating fun ids x => calm_revokedPasskeys p now ids x

theorem calm_grantRoles (call : AcceptCall) (invitation : InvitationRow) (roles : List Role) :
    CalmWrites (grantRoles call invitation roles) := by
  induction roles with
  | nil => trivial
  | cons role rest ih =>
    refine OnlyWrites.bind (P := fun _ => True) (fun d => ?_) fun _ _ => ih
    show OnlyWrites _ _ (if _ then _ else _)
    split_ifs
    · trivial
    · exact fun _ => OnlyWrites.demand fun _ =>
        ⟨fun _ => .of_eq rfl rfl rfl rfl rfl rfl rfl, trivial⟩

theorem calm_redeem (call : AcceptCall) (invitation : InvitationRow) :
    CalmWrites (redeem call invitation) := by
  unfold redeem
  split
  · refine OnlyWrites.bind (P := fun _ => True) (OnlyWrites.updating fun ids x =>
      .of_eq rfl rfl rfl rfl rfl rfl rfl) fun _ _ => ?_
    refine (calm_revokePasskeys _ _).bind fun _ _ _ => ⟨fun _ => ?_, calm_grantRoles _ _ _⟩
    exact .of_eq rfl rfl rfl rfl rfl rfl rfl
  · exact (readsOnly_recover invitation).calm

/-! ## What is known of accounts -/

theorem Calm.trusted {x y : StaffData} (h : Calm x y) (htrusted : (x.standing p).Trusted) :
    (y.standing p).Trusted :=
  htrusted.of_history (h.accounts p).history

/-- **Who is found with a way in is trusted**, as long as the account is locked. -/
theorem trusted_of_rely {d' : StaffData} (hd : LockoutInv d) (hopen : ¬ (d.standing p).Shut)
    (hlock : (Row.principal p, Mode.update) ∈ locks) (hrely : lockouts.Rely locks d d') :
    (d'.standing p).Trusted := by
  have hshrinks : (d.standing p).Shrinks (d'.standing p) := hrely.2 _ hlock
  exact ((hd.sound p).trusted hopen).of_history hshrinks.history

theorem trusted_of_journal {x y : StaffData} (h : y.journal = x.journal)
    (htrusted : (x.standing p).Trusted) : (y.standing p).Trusted :=
  htrusted.of_history (history_eq h p)

/-- **The rule of a new session**, of an account that is trusted and locked. -/
theorem safe_insertingSession {row : SessionRow} {f : Unit → Statements β}
    (hlock : (Row.principal row.principalId, Mode.update) ∈ locks)
    (htrusted : ∀ x, F x → (x.standing row.principalId).Trusted)
    (hF : ∀ x, F x → F (insertRow sessionTable row x))
    (hready : Ready lockouts LockoutInv F writes locks d)
    (hf : ∀ writes' locks' d', (∀ l ∈ locks, l ∈ locks') → LockoutInv d' →
      Ready lockouts LockoutInv F writes' locks' d' →
      Safe lockouts LockoutInv Q (f ()) writes' locks' d') :
    Safe lockouts LockoutInv Q (insertingSession row >>= f) writes locks d := by
  unfold insertingSession
  rw [Prog.bind_assoc]
  refine safe_claiming fun d₁ hrely₁ hd₁ _ => safe_inserting fun d₂ hrely₂ hd₂ _ => ?_
  refine hf _ _ d₂ (fun l hl => List.mem_cons_of_mem _ (List.mem_cons_of_mem _ hl)) hd₂ ?_
  refine ((hready.locked hrely₁).locked hrely₂).write fun x hx hfact => ⟨?_, hF x hfact⟩
  exact keeps_session hx (List.mem_cons_of_mem _ (List.mem_cons_of_mem _ hlock)) (htrusted x hfact)

/-! ## Ceremonies -/

/-- **A ceremony is taken up**, by this transaction, and none of its challenge has
succeeded. -/
def Taken (c : Ceremony) (x : StaffData) : Prop :=
  takenCeremony c ∈ x.ceremonies.rows ∧ c.challengeId ∉ x.finished

/-- What has the same ceremonies. -/
theorem Taken.of_eq {c : Ceremony} {x y : StaffData} (h : Taken c x)
    (hceremonies : y.ceremonies = x.ceremonies) (hfinished : y.finished = x.finished) :
    Taken c y := by
  rw [Taken, hceremonies, hfinished]
  exact h

/-- **The rule of a ceremony that is taken up.** -/
theorem safe_takeCeremony {i : Uuid} {f : Ceremony → Statements β}
    (hf : ∀ c d', LockoutInv d' → d'.ceremonies.get? i = some c →
      Ready lockouts LockoutInv (Taken c) (changeRows ceremonyTable (fun _ => true) takenCeremony
        (fun _ => rfl) [i] ∘ id) ((.ceremony i, .update) :: locks) d' →
      Safe lockouts LockoutInv Q (f c) (changeRows ceremonyTable (fun _ => true) takenCeremony
        (fun _ => rfl) [i] ∘ id) ((.ceremony i, .update) :: locks) d') :
    Safe lockouts LockoutInv Q (takeCeremony i >>= f) id locks d := by
  unfold takeCeremony
  rw [Prog.bind_assoc]
  refine Safe.locking fun d' _ hd' => ?_
  rw [Prog.bind_assoc]
  refine Safe.required fun c hc => ?_
  rw [Prog.bind_assoc]
  refine Safe.writing ?_
  obtain ⟨hfound, hfree⟩ := Option.filter_eq_some_iff.mp hc
  refine hf c d' hd' hfound fun d'' hrely hd'' => ?_
  have hkept : d''.ceremonies.get? i = d'.ceremonies.get? i := hrely.2 _ List.mem_cons_self
  have hnow : (ceremonyTable.get d'').get? i = some c := hkept.trans hfound
  obtain ⟨hmem, hid⟩ := Table.get?_eq_some.mp hnow
  refine ⟨keeps_taken hd'' List.mem_cons_self, ?_, fun hfinished => ?_⟩
  · have htaken := get?_changeRows ceremonyTable (fun _ => true) takenCeremony (fun _ => rfl) [i]
      d'' i
    rw [hnow, Option.map_some, hid, decide_eq_true List.mem_cons_self] at htaken
    exact (Table.get?_eq_some.mp htaken).1
  · obtain ⟨other, hother, hsame, htaken⟩ := hd''.ceremonies.taken _ hfinished
    obtain rfl := List.inj_on_of_nodup_map hd''.ceremonies.unique hother hmem hsame
    rw [htaken] at hfree
    cases hfree

/-- **The rule of a ceremony that succeeds.** -/
theorem safe_finishCeremony {c : Ceremony} {f : Unit → Statements β}
    (hF : ∀ x, F x → Taken c x) (hready : Ready lockouts LockoutInv F writes locks d)
    (hf : ∀ writes', Ready lockouts LockoutInv (fun _ => True) writes' locks d →
      Safe lockouts LockoutInv Q (f ()) writes' locks d) :
    Safe lockouts LockoutInv Q (writing (finishCeremony c.challengeId) >>= f) writes locks d := by
  refine Safe.writing (hf _ (hready.write fun x hx hfact => ⟨?_, trivial⟩))
  obtain ⟨hmem, hnew⟩ := hF x hfact
  exact keeps_finished (c := takenCeremony c) hx hmem rfl hnew

/-- **A ceremony may begin**: it is witnessed, and no other has its challenge. -/
structure MayBegin (c : Ceremony) (x : StaffData) : Prop where
  witnessed : Witnessed x c
  new : ∀ other ∈ x.ceremonies.rows, other.challengeId ≠ c.challengeId

/-- A challenge that is consumable is not consumed. -/
theorem unused_of_consumable {challenge : String} {purpose : ChallengePurpose}
    {principalId : Option Uuid} {now : Instant} {row : ChallengeRow}
    (h : consumable challenge purpose principalId now row = true) : row.consumedAt = none := by
  simp only [consumable, Bool.and_eq_true_iff] at h
  exact Option.isNone_iff_eq_none.mp h.1.1.2

/-- **A challenge is consumed, and a ceremony begins**, with a passkey that is its
principal's. -/
theorem safe_ceremony {challenge : String} {purpose : ChallengePurpose} {principalId : Option Uuid}
    {now : Instant} {verified : Bool} {ceremony : Uuid → Ceremony} {o : Outcome}
    (hchallenge : ∀ i, (ceremony i).challengeId = i)
    (hpasskey : ∀ i, ∀ key ∈ (ceremony i).passkey, ∃ row, d.passkeys.get? key.1 = some row
      ∧ row.principalId = (ceremony i).principalId) :
    Safe lockouts LockoutInv (fun _ => MayCommit lockouts LockoutInv)
      (consumeChallenge challenge purpose principalId now >>= fun ids =>
        beginCeremony verified ids ceremony >>= fun _ => pure o) id locks d := by
  refine safe_updatingRows fun ids locks₁ d₁ _ hrely₁ hd₁ hheld hfound hall => ?_
  have hready : Ready lockouts LockoutInv (fun _ => True) (changeRows challengeTable
      (consumable challenge purpose principalId now) (consumedChallenge now) (fun _ => rfl) ids ∘ id)
      locks₁ d₁ :=
    (Ready.start locks₁ d₁).write fun x hx _ => ⟨keeps_consumed hx hheld, trivial⟩
  unfold beginCeremony
  split
  · next i =>
    obtain ⟨d₀, hd₀, hrely₀, hopen⟩ := hfound i List.mem_cons_self
    obtain ⟨row, hrow, hconsumable⟩ := (Option.any_eq_true _ _).mp hopen
    -- The challenge stays as it was when it was locked.
    have hkept : ∀ d', lockouts.Rely locks₁ d₁ d' → d'.challenges.get? i = some row := by
      intro d' hrely
      have hbefore : d₁.challenges.get? i = d₀.challenges.get? i := hrely₀.2 _ List.mem_cons_self
      have hafter : d'.challenges.get? i = d₁.challenges.get? i :=
        hrely.2 _ (hheld i List.mem_cons_self)
      exact hafter.trans (hbefore.trans hrow)
    have hbegin : Ready lockouts LockoutInv (fun x => True ∧ MayBegin (ceremony i) x) (changeRows
        challengeTable (consumable challenge purpose principalId now) (consumedChallenge now)
        (fun _ => rfl) [i] ∘ id) locks₁ d₁ := by
      refine hready.learn fun d' hrely hd' => ⟨⟨⟨consumedChallenge now row, ?_,
        Option.some_ne_none now⟩, fun key hkey => ?_⟩, fun c hc hsame => ?_⟩
      · have hchanged := get?_changeRows challengeTable (consumable challenge purpose principalId now)
          (consumedChallenge now) (fun _ => rfl) [i] d' i
        have hnow : (challengeTable.get d').get? i = some row := hkept d' hrely
        rw [hnow, Option.map_some, (Table.get?_eq_some.mp hnow).2, decide_eq_true List.mem_cons_self,
          hconsumable] at hchanged
        rw [hchallenge]
        exact hchanged
      · obtain ⟨owned, howned, hid⟩ := hpasskey i key hkey
        obtain ⟨owned', howned', hid'⟩ := (hrely₁.1.trans hrely.1) key.1 owned howned
        exact ⟨owned', howned', hid'.trans hid⟩
      · obtain ⟨other, hother, hdone⟩ := (hd'.ceremonies.witnessed c hc).consumed
        rw [hsame, hchallenge, hkept d' hrely] at hother
        exact hdone (Option.some.inj hother ▸ unused_of_consumable hconsumable)
    split_ifs
    · refine safe_inserting fun d₂ hrely₂ hd₂ _ => ?_
      refine Ready.mayCommit (F := fun _ => True) ((hbegin.locked hrely₂).write fun x hx hfacts =>
        ⟨?_, trivial⟩)
      exact keeps_ceremony hx List.mem_cons_self hfacts.2.witnessed hfacts.2.new
    · exact hready.mayCommit
  · exact hready.mayCommit

/-! ## Locking out -/

/-- **What leaves accounts and ceremonies alone.** -/
structure Apart (x y : StaffData) : Prop where
  journal : y.journal = x.journal
  invitations : y.invitations = x.invitations
  sessions : y.sessions = x.sessions
  passkeys : y.passkeys = x.passkeys
  challenges : y.challenges = x.challenges
  ceremonies : y.ceremonies = x.ceremonies
  finished : y.finished = x.finished

theorem Apart.refl (x : StaffData) : Apart x x := ⟨rfl, rfl, rfl, rfl, rfl, rfl, rfl⟩

theorem Apart.trans {x y z : StaffData} (h : Apart x y) (h' : Apart y z) : Apart x z :=
  ⟨h'.journal.trans h.journal, h'.invitations.trans h.invitations, h'.sessions.trans h.sessions,
    h'.passkeys.trans h.passkeys, h'.challenges.trans h.challenges,
    h'.ceremonies.trans h.ceremonies, h'.finished.trans h.finished⟩

theorem Apart.calm {x y : StaffData} (h : Apart x y) : Calm x y :=
  .of_eq h.journal h.invitations h.sessions h.passkeys h.challenges h.ceremonies h.finished

theorem ready_of_apart (hwrites : ∀ x, Apart x (writes x)) :
    Ready lockouts LockoutInv (fun _ => True) writes locks d :=
  fun d' _ hd' => ⟨(hwrites d').calm.keeps hd', trivial⟩

/-- **The rule of closing rows**: none is open any more, if none opens meanwhile. -/
theorem safe_closing {ρ : Type} {key : ρ → Uuid} {table : TableOf ρ key} {row : Uuid → Row}
    {isOpen : ρ → Bool} {change : ρ → ρ} {hkey : ∀ row, key (change row) = key row}
    {f : List Uuid → Statements β} (hclosed : ∀ row, isOpen (change row) = false)
    (hshrinks : ∀ d₁ d₂, lockouts.Rely locks d₁ d₂ →
      table.ids isOpen (writes d₂) ⊆ table.ids isOpen (writes d₁))
    (hf : ∀ ids locks' d', (∀ l ∈ locks, l ∈ locks') → lockouts.Rely locks d d' → LockoutInv d' →
      (∀ i ∈ ids, (row i, Mode.update) ∈ locks') →
      (∀ d'', lockouts.Rely locks' d' d'' →
        table.ids isOpen (changeRows table isOpen change hkey ids (writes d'')) = ∅) →
      Safe lockouts LockoutInv Q (f ids) (changeRows table isOpen change hkey ids ∘ writes) locks'
        d') :
    Safe lockouts LockoutInv Q (updatingRows table row isOpen change hkey >>= f) writes locks d := by
  refine safe_updatingRows fun ids locks' d' hsub hrely hd' hheld _ hall => ?_
  refine hf ids locks' d' hsub hrely hd' hheld fun d'' hrely' => ?_
  refine Set.eq_empty_iff_forall_notMem.mpr fun i hi => ?_
  obtain ⟨hbefore, hnot⟩ := ids_closed hclosed hi
  refine hnot (hall (fun d₁ d₂ j _ hrely₂ _ _ hj => hshrinks d₁ d₂ hrely₂ hj) i ?_)
  exact hshrinks d' d'' (rely_mono hrely' hsub) hbefore

theorem ids_of_eq {ρ : Type} {key : ρ → Uuid} {table : TableOf ρ key} {isOpen : ρ → Bool}
    {x y : StaffData} (h : table.get y = table.get x) : table.ids isOpen y = table.ids isOpen x := by
  rw [TableOf.ids, TableOf.ids, h]

theorem isPending_revokedInvitation (now : Instant) (row : InvitationRow) :
    (revokedInvitation now row).isPending = false :=
  Bool.and_false _

/-- The token of no row. -/
theorem noToken_iff {tokenHash : String} {x : StaffData} :
    NoToken tokenHash x ↔ tokenHash ∉ x.invitations.rows.map InvitationRow.tokenHash := by
  refine ⟨fun h hmem => ?_, fun h row hrow hsame => h (List.mem_map.mpr ⟨row, hrow, hsame⟩)⟩
  obtain ⟨row, hrow, hsame⟩ := List.mem_map.mp hmem
  exact h row hrow hsame

/-- **The rule of a lockout** of a principal that is locked. -/
theorem safe_lockOutStaff {now : Instant} {f : Unit → Statements β}
    (hlock : (Row.principal p, Mode.update) ∈ locks) (hwrites : ∀ x, Apart x (writes x))
    (hf : ∀ writes' locks' d', (∀ l ∈ locks, l ∈ locks') → LockoutInv d' →
      (∀ x, (writes' x).invitations.rows.map InvitationRow.tokenHash
        = x.invitations.rows.map InvitationRow.tokenHash) →
      Ready lockouts LockoutInv (fun _ => True) writes' locks' d' →
      Safe lockouts LockoutInv Q (f ()) writes' locks' d') :
    Safe lockouts LockoutInv Q (lockOutStaff p now >>= f) writes locks d := by
  have hkept : ∀ {locks' : Locks Row} {d₁ d₂ : StaffData}, (∀ l ∈ locks, l ∈ locks') →
      lockouts.Rely locks' d₁ d₂ → (d₁.standing p).Shrinks (d₂.standing p) :=
    fun hsub hrely => hrely.2 _ (hsub _ hlock)
  unfold lockOutStaff
  rw [Prog.bind_assoc]
  refine safe_closing (fun row => Bool.and_false _) (fun d₁ d₂ hrely => ?_)
    fun ids₁ locks₁ d₁ hsub₁ hrely₁ hd₁ hheld₁ hnone₁ => ?_
  · refine (ids_of_eq (hwrites d₂).sessions).le.trans (Set.Subset.trans ?_
      (ids_of_eq (hwrites d₁).sessions).ge)
    exact (hkept (fun _ hl => hl) hrely).sessions
  have hsessions : Ready lockouts LockoutInv (fun x => True ∧ (x.standing p).sessions = ∅) _ locks₁
      d₁ :=
    (((ready_of_apart hwrites).mono hsub₁ hrely₁).write fun x hx _ =>
      ⟨(calm_revoked now ids₁ x).keeps hx, trivial⟩).learn fun d' hrely _ => hnone₁ d' hrely
  rw [Prog.bind_assoc]
  refine safe_closing (fun row => Bool.and_false _) (fun d₁ d₂ hrely => ?_)
    fun ids₂ locks₂ d₂ hsub₂ hrely₂ hd₂ hheld₂ hnone₂ => ?_
  · refine (ids_of_eq (hwrites d₂).passkeys).le.trans (Set.Subset.trans ?_
      (ids_of_eq (hwrites d₁).passkeys).ge)
    exact (hkept hsub₁ hrely).passkeys
  have hpasskeys : Ready lockouts LockoutInv (fun x => (True ∧ (x.standing p).sessions = ∅)
      ∧ (x.standing p).passkeys = ∅) _ locks₂ d₂ :=
    ((hsessions.mono hsub₂ hrely₂).write fun x hx hnone =>
      ⟨(calm_revokedPasskeys p now ids₂ x).keeps hx, hnone⟩).learn fun d' hrely _ => hnone₂ d' hrely
  rw [Prog.bind_assoc]
  refine safe_closing (fun row => ?_) (fun d₁ d₂ hrely => ?_)
    fun ids₃ locks₃ d₃ hsub₃ hrely₃ hd₃ hheld₃ hnone₃ => ?_
  · rw [pendingInvitationOf, isPending_revokedInvitation, Bool.and_false]
  · refine (ids_of_eq (hwrites d₂).invitations).le.trans (Set.Subset.trans ?_
      (ids_of_eq (hwrites d₁).invitations).ge)
    exact (hkept (fun l hl => hsub₂ l (hsub₁ l hl)) hrely).pending
  have hpending : Ready lockouts LockoutInv (fun x => ((True ∧ (x.standing p).sessions = ∅)
      ∧ (x.standing p).passkeys = ∅) ∧ (x.standing p).pending = ∅) _ locks₃ d₃ :=
    ((hpasskeys.mono hsub₃ hrely₃).write fun x hx hnone =>
      ⟨keeps_invitations hx (isPending_revokedInvitation now) (fun _ => rfl) (fun _ h => h) hheld₃,
        hnone⟩).learn fun d' hrely _ => hnone₃ d' hrely
  have hsub : ∀ l ∈ locks, l ∈ locks₃ := fun l hl => hsub₃ l (hsub₂ l (hsub₁ l hl))
  refine Safe.writing (hf _ locks₃ d₃ hsub hd₃ (fun x => ?_) (hpending.write fun x hx hnone =>
    ⟨keeps_lockedOut hx (hsub _ hlock) hnone.2 ⟨hnone.1.1.2, hnone.1.2⟩, trivial⟩))
  refine (map_changeRows invitationTable (revokedInvitation now) (fun _ => rfl) fun _ => rfl).trans ?_
  exact congrArg (fun table : Table Uuid InvitationRow InvitationRow.id =>
    table.rows.map InvitationRow.tokenHash) (hwrites x).invitations

/-- **The rule of a new invitation** of a principal that is locked. -/
theorem safe_insertStaffInvitation {row : InvitationRow} {f : Unit → Statements β}
    (hlock : (Row.principal row.principalId, Mode.update) ∈ locks)
    (htokens : ∀ x, (writes x).invitations.rows.map InvitationRow.tokenHash
      = x.invitations.rows.map InvitationRow.tokenHash)
    (hready : Ready lockouts LockoutInv (fun _ => True) writes locks d)
    (hf : ∀ writes' locks' d', Ready lockouts LockoutInv (fun _ => True) writes' locks' d' →
      Safe lockouts LockoutInv Q (f ()) writes' locks' d') :
    Safe lockouts LockoutInv Q (insertStaffInvitation row >>= f) writes locks d := by
  have hnoToken : ∀ x, NoToken row.tokenHash (writes x) ↔ NoToken row.tokenHash x := fun x => by
    rw [noToken_iff, noToken_iff, htokens x]
  unfold insertStaffInvitation
  rw [Prog.bind_assoc]
  refine safe_claiming fun d₁ hrely₁ hd₁ hfree => ?_
  rw [Prog.bind_assoc]
  refine Safe.writing (safe_inserting fun d₂ hrely₂ hd₂ _ => hf _ _ d₂ ?_)
  have hfree₁ : NoToken row.tokenHash d₁ := (hnoToken d₁).mp fun other hother hsame => by
    have hnot := List.any_eq_false.mp hfree other hother
    exact hnot (decide_eq_true hsame)
  have htoken : Ready lockouts LockoutInv (fun x => True ∧ NoToken row.tokenHash x) writes
      ((.entry .invitationToken row.tokenHash, .update) :: locks) d₁ := by
    refine (hready.locked hrely₁).learn fun d' hrely _ => (hnoToken d').mpr ?_
    have hkept : NoToken row.tokenHash d₁ → NoToken row.tokenHash d' :=
      hrely.2 (.entry .invitationToken row.tokenHash, .update) List.mem_cons_self
    exact hkept hfree₁
  have hissued : Ready lockouts LockoutInv (fun x => NoToken row.tokenHash x
      ∧ (x.standing row.principalId).IssuedSince row.id)
      (journalEvent row.principalId (.issued row.id) ∘ writes) _ d₁ :=
    htoken.write fun x hx hnone => ⟨keeps_issued hx (List.mem_cons_of_mem _ hlock), hnone.2,
      Account.issuedSince_self (history_journalEvent row.principalId _ x)⟩
  refine (hissued.locked hrely₂).write fun x hx hfacts => ⟨?_, trivial⟩
  exact keeps_invitation hx (List.mem_cons_of_mem _ (List.mem_cons_of_mem _ hlock))
    (List.mem_cons_of_mem _ List.mem_cons_self) List.mem_cons_self hfacts.2 hfacts.1

end

/-! ## Every command -/

/-- What a command ends with may be committed. -/
abbrev SafeCommand (command : Statements Outcome) (d : StaffData) : Prop :=
  Safe lockouts LockoutInv (fun _ => MayCommit lockouts LockoutInv) command id [] d

section

variable {d : StaffData}

theorem readsOnly_lockStaff : ReadsOnly lockStaff :=
  fun _ _ => OnlyWrites.lockingAll.bind fun _ _ => trivial

theorem readsOnly_ensureUsableManager (clock : Uuid → Instant) :
    ReadsOnly (ensureUsableManager clock) := by
  intro (d : StaffData)
  show ReadsOnly (usableAmong clock d.present)
  generalize d.present = ids
  induction ids with
  | nil => trivial
  | cons id rest ih =>
    refine (readsOnly_staffCan _ _ _).bind fun allowed _ => ?_
    split_ifs
    · intro d
      show OnlyWrites _ _ (if _ then _ else _)
      split_ifs
      · trivial
      · exact ih
    · exact ih

/-- **A recovery** locks its target out, and invites it. -/
theorem safeCommand_issueStaffRecovery (call : RecoveryCall) (hd : LockoutInv d) :
    SafeCommand (issueStaffRecovery call) d := by
  refine (readsOnly_assertMayGrant _ _).safe_reads hd fun _ locks₁ d₁ _ _ _ _ => ?_
  refine Safe.demand fun _ => Safe.demand fun _ => Safe.locking fun d₂ _ _ => ?_
  refine Safe.locking fun d₃ _ _ => Safe.required fun membership _ => ?_
  refine Safe.required fun target htarget => Safe.demand fun _ => ?_
  have hid : target.id = call.principalId :=
    (Table.get?_eq_some.mp (Option.filter_eq_some_iff.mp htarget).1).2
  have hlock : (Row.principal target.id, Mode.update) ∈
      (Row.membership call.principalId, Mode.update) ::
        (Row.principal call.principalId, Mode.update) :: locks₁ := by
    rw [hid]
    exact List.mem_cons_of_mem _ List.mem_cons_self
  refine safe_lockOutStaff hlock (fun x => .refl x) fun writes locks₄ d₄ hsub _ htokens hready => ?_
  refine safe_insertStaffInvitation (hsub _ hlock) htokens hready fun _ _ _ hend => ?_
  exact hend.mayCommit

/-- **A bootstrap** locks its principal out, and invites it. -/
theorem safeCommand_bootstrapManager (call : BootstrapCall) (hd : LockoutInv d) :
    SafeCommand (bootstrapManager call) d := by
  refine (readsOnly_demandNoManager call).safe_reads hd fun _ locks₁ d₁ _ _ _ hd₁ => ?_
  have hensure : OnlyWrites (fun effect => ∀ x, Apart x (effect x)) (fun _ => True)
      (ensurePrincipal call.email call.principal) := by
    refine OnlyWrites.reading fun data => ?_
    split
    · trivial
    · refine OnlyWrites.bind (P := fun _ => True) (fun _ => OnlyWrites.demand_last trivial)
        fun _ _ => ?_
      refine OnlyWrites.bind (P := fun _ => True) (fun _ => OnlyWrites.demand fun _ => ⟨fun _ => ?_,
        trivial⟩) fun _ _ => trivial
      exact ⟨rfl, rfl, rfl, rfl, rfl, rfl, rfl⟩
  refine hensure.safe_bind (C := fun writes => ∀ x, Apart x (writes x))
    (fun effect writes he hw x => (hw x).trans (he _)) (fun x => .refl x) hd₁ ?_
  intro p writes locks₂ d₂ _ hwrites _ _ _
  refine Safe.locking fun d₃ _ _ => Safe.reading fun d₄ _ _ => ?_
  refine safe_lockOutStaff List.mem_cons_self hwrites fun writes' locks₅ d₅ hsub _ htokens hready => ?_
  refine safe_insertStaffInvitation (hsub _ List.mem_cons_self) htokens hready fun _ _ _ hend => ?_
  exact hend.mayCommit

/-- **An offboarding** locks a member out. -/
theorem safeCommand_offboardStaff (call : OffboardCall) (hd : LockoutInv d) :
    SafeCommand (offboardStaff call) d := by
  refine (readsOnly_offboardingOperator _ _).safe_reads hd fun _ locks₁ d₁ _ _ _ hd₁ => ?_
  refine Safe.demand fun _ => readsOnly_lockStaff.safe_reads hd₁ fun _ locks₂ d₂ _ _ _ hd₂ => ?_
  refine (readsOnly_offboardingOperator _ _).safe_reads hd₂ fun _ locks₃ d₃ _ _ _ _ => ?_
  refine Safe.reading fun d₄ _ _ => Safe.required fun person _ => Safe.demand fun _ => ?_
  refine Safe.locking fun d₅ _ _ => Safe.required fun membership _ => Safe.writing ?_
  refine Safe.locking fun d₆ _ hd₆ => Safe.writing ?_
  have hgrants : OnlyWrites (fun effect => ∀ x, Apart x (effect x)) (fun _ => True)
      (updatingRows grantTable Row.grant (openGrantOf call.principalId)
        (fun grant => grant.revoked call.now) (fun _ => rfl)) :=
    OnlyWrites.updating fun _ _ => ⟨rfl, rfl, rfl, rfl, rfl, rfl, rfl⟩
  refine hgrants.safe_bind (C := fun writes => ∀ x, Apart x (writes x))
    (fun effect writes he hw x => (hw x).trans (he _))
    (fun x => ⟨rfl, rfl, rfl, rfl, rfl, rfl, rfl⟩) hd₆ ?_
  intro _ writes locks₇ d₇ _ hwrites hsub₇ _ _
  refine safe_lockOutStaff (hsub₇ _ List.mem_cons_self) hwrites
    fun writes' locks₈ d₈ _ hd₈ _ hready => ?_
  refine (readsOnly_ensureUsableManager call.checkedAt).safe_reads hd₈
    fun _ locks₉ d₉ _ hsub₉ hrely₉ _ => ?_
  exact (hready.mono hsub₉ hrely₉).mayCommit

/-- **What is stored for a ceremony.** -/
theorem safeCommand_storeChallenge {locks : Locks Row} {id : Uuid} {challenge : String}
    {purpose : ChallengePurpose} {principalId : Option Uuid} {now : Instant} {o : Outcome} :
    Safe lockouts LockoutInv (fun _ => MayCommit lockouts LockoutInv)
      (storeChallenge id challenge purpose principalId now >>= fun _ => pure o)
      (fun x => x) locks d := by
  unfold storeChallenge
  rw [Prog.bind_assoc]
  refine safe_claiming fun d₁ _ _ _ => safe_inserting fun d₂ _ _ _ => ?_
  refine Ready.mayCommit (F := fun _ => True) ((Ready.start _ d₂).write fun x hx _ => ⟨?_, trivial⟩)
  exact keeps_challenge hx List.mem_cons_self

theorem safeCommand_startPasskeyRegistration (session : Session) (id : Uuid) (challenge : String)
    (now : Instant) (hd : LockoutInv d) :
    SafeCommand (startPasskeyRegistration session id challenge now) d := by
  refine (readsOnly_assertMayRegister _ _).safe_reads hd fun _ locks₁ d₁ _ _ _ _ => ?_
  exact Safe.reading fun d₂ _ _ => Safe.demand fun _ => safeCommand_storeChallenge

theorem safeCommand_startPasskeyAuthentication (id : Uuid) (challenge : String) (now : Instant) :
    SafeCommand (startPasskeyAuthentication id challenge now) d :=
  safeCommand_storeChallenge

theorem safeCommand_verifyRegistration (call : RegistrationCall) (hd : LockoutInv d) :
    SafeCommand (verifyRegistration call) d := by
  refine (readsOnly_assertMayRegister _ _).safe_reads hd fun _ locks₁ d₁ _ _ _ _ => ?_
  refine Safe.demand fun _ => safe_ceremony (fun _ => rfl) fun i key hkey => ?_
  cases hkey

theorem safeCommand_verifyAuthentication (call : AuthenticationCall) :
    SafeCommand (verifyAuthentication call) d := by
  refine Safe.reading fun d₁ _ _ => Safe.required fun passkey hpasskey => ?_
  refine Safe.demand fun _ => Safe.demand fun _ => Safe.demand fun _ => ?_
  refine safe_ceremony (fun _ => rfl) fun i key hkey => ?_
  obtain rfl := Option.some.inj hkey
  exact ⟨passkey, Table.get?_eq_some.mpr ⟨List.mem_of_find?_eq_some hpasskey, rfl⟩, rfl⟩

theorem safeCommand_touchSession (tokenHash : String) (now : Instant) (hd : LockoutInv d) :
    SafeCommand (touchSession tokenHash now) d :=
  safe_calm (calm_readSession tokenHash now) (fun _ _ _ h => h) (Ready.start [] d) hd
    fun _ _ _ _ _ _ hready => hready.mayCommit

/-- Who has a session that is found live has a way in. -/
theorem not_shut_of_session {session : Session} {now : Instant} {row : SessionRow}
    (h : (d.sessions.get? session.id).filter
      (fun row => row.account = session.account && row.Live now) = some row) :
    ¬ (d.standing session.account.id).Shut := by
  obtain ⟨hfound, hlive⟩ := Option.filter_eq_some_iff.mp h
  rw [Bool.and_eq_true_iff] at hlive
  obtain ⟨hrevoked, -⟩ : row.Live now := of_decide_eq_true hlive.2
  have hmem : session.id ∈ (d.standing session.account.id).sessions := by
    refine (Option.any_eq_true _ _).mpr ⟨row, hfound, Bool.and_eq_true_iff.mpr ⟨?_, ?_⟩⟩
    · exact decide_eq_true (congrArg AccountRef.id (of_decide_eq_true hlive.1))
    · rw [hrevoked]
      rfl
  exact fun hshut => (hshut.1 ▸ hmem : session.id ∈ (∅ : Set Uuid))

/-- **The rule of the check before a registration**, with the account locked: whoever is
found with a live session is trusted. -/
theorem safe_assertMayRegister {β : Type}
    {Q : β → (StaffData → StaffData) → Locks Row → StaffData → Prop}
    {F : StaffData → Prop} {writes : StaffData → StaffData} {locks : Locks Row} {session : Session}
    {now : Instant} {f : Unit → Statements β}
    (hlock : (Row.principal session.account.id, Mode.update) ∈ locks)
    (hsessions : ∀ x, (writes x).sessions = x.sessions) (hjournal : ∀ x, (writes x).journal = x.journal)
    (hready : Ready lockouts LockoutInv F writes locks d)
    (hf : ∀ d', LockoutInv d' → Ready lockouts LockoutInv (fun x => F x
        ∧ (x.standing session.account.id).Trusted) writes locks d' →
      Safe lockouts LockoutInv Q (f ()) writes locks d') :
    Safe lockouts LockoutInv Q (assertMayRegister session now >>= f) writes locks d := by
  unfold assertMayRegister requireLiveSession
  rw [Prog.bind_assoc, Prog.bind_assoc]
  refine Safe.reading fun d₁ hrely₁ hd₁ => ?_
  rw [Prog.bind_assoc]
  refine Safe.required fun row hrow => ?_
  rw [hsessions] at hrow
  rw [Prog.bind_assoc]
  refine Safe.reading fun d₂ hrely₂ hd₂ => ?_
  rw [Prog.bind_assoc]
  refine Safe.demand fun _ => ?_
  have htrusted : Ready lockouts LockoutInv (fun x => F x
      ∧ (x.standing session.account.id).Trusted) writes locks d₂ := by
    refine (hready.mono (fun l hl => hl) (rely_trans hrely₁ hrely₂)).learn fun d' hrely _ => ?_
    exact trusted_of_journal (hjournal d')
      (trusted_of_rely hd₁ (not_shut_of_session hrow) hlock (rely_trans hrely₂ hrely))
  show Safe lockouts LockoutInv Q ((if _ then _ else _) >>= f) writes locks d₂
  split_ifs
  · exact hf d₂ hd₂ htrusted
  · rw [Prog.bind_assoc]
    refine Safe.demand fun _ => ?_
    rw [Prog.bind_assoc]
    refine Safe.reading fun d₃ hrely₃ hd₃ => Safe.demand fun _ => hf d₃ hd₃ ?_
    exact htrusted.mono (fun l hl => hl) hrely₃

/-- **A registration** adds a passkey to an account that has a session still. -/
theorem safeCommand_storePasskey (call : RegistrationCall) : SafeCommand (storePasskey call) d := by
  refine safe_takeCeremony fun c d₁ hd₁ hc hready => Safe.demand fun _ => ?_
  refine Safe.locking fun d₂ hrely₂ hd₂ => ?_
  refine safe_assertMayRegister List.mem_cons_self (fun _ => rfl) (fun _ => rfl)
    (hready.locked hrely₂) fun d₃ hd₃ htrusted => ?_
  refine safe_claiming fun d₄ hrely₄ hd₄ _ => safe_inserting fun d₅ hrely₅ hd₅ _ => ?_
  refine safe_finishCeremony (F := Taken c) (fun _ h => h) ?_ fun _ hend => hend.mayCommit
  refine ((htrusted.locked hrely₄).locked hrely₅).write fun x hx hfacts => ⟨?_,
    hfacts.1.of_eq rfl rfl⟩
  exact keeps_passkey hx (List.mem_cons_of_mem _ (List.mem_cons_of_mem _ List.mem_cons_self))
    hfacts.2

theorem pending_of_redeemable {tokenHash : String} {now : Instant} {row : InvitationRow}
    (h : redeemable tokenHash now row = true) : row.isPending = true := by
  rw [redeemable, Bool.and_eq_true_iff, Bool.and_eq_true_iff] at h
  exact h.1.2

theorem isPending_acceptedInvitation (now : Instant) (row : InvitationRow) :
    (acceptedInvitation now row).isPending = false := by
  rfl

/-- **An invitation may be accepted**: it is marked, it was issued since every lockout of
its principal, and it was not accepted before. -/
structure MayAccept (invitation : InvitationRow) (x : StaffData) : Prop where
  marked : ∃ row, x.invitations.get? invitation.id = some row ∧ row.acceptedAt ≠ none
  issued : (x.standing invitation.principalId).IssuedSince invitation.id
  new : invitation.id ∉ x.acceptances

/-- The row of an invitation that was just marked. -/
theorem get?_accepted {ids : List Uuid} {i : Uuid} {tokenHash : String} {now : Instant}
    {row : InvitationRow} (hi : i ∈ ids) (hrow : redeemable tokenHash now row = true)
    (hfound : d.invitations.get? i = some row) :
    (changeRows invitationTable (redeemable tokenHash now) (acceptedInvitation now) (fun _ => rfl)
      ids d).invitations.get? i = some (acceptedInvitation now row) := by
  have hchanged := get?_changeRows invitationTable (redeemable tokenHash now)
    (acceptedInvitation now) (fun _ => rfl) ids d i
  have hnow : (invitationTable.get d).get? i = some row := hfound
  rw [hnow, Option.map_some, (Table.get?_eq_some.mp hnow).2, decide_eq_true hi, hrow] at hchanged
  exact hchanged

/-- **What is known of an invitation that was just marked**: it was pending until then. -/
theorem mayAccept_of_pending {ids : List Uuid} {i : Uuid} {tokenHash : String} {now : Instant}
    {row : InvitationRow} (hi : i ∈ ids) (hrow : redeemable tokenHash now row = true)
    (hd : LockoutInv d) (hfound : d.invitations.get? i = some row) :
    MayAccept (acceptedInvitation now row) (changeRows invitationTable (redeemable tokenHash now)
      (acceptedInvitation now) (fun _ => rfl) ids d) := by
  have hpending := pending_of_redeemable hrow
  obtain rfl := (Table.get?_eq_some.mp hfound).2
  refine ⟨⟨acceptedInvitation now row, get?_accepted hi hrow hfound, Option.some_ne_none now⟩, ?_,
    fun haccepted => ?_⟩
  · have hmem : row.id ∈ (d.standing row.principalId).pending := by
      refine (Option.any_eq_true _ _).mpr ⟨row, hfound, ?_⟩
      rw [pendingInvitationOf, hpending, Bool.and_true]
      exact decide_eq_true rfl
    exact ((hd.sound row.principalId).issued row.id hmem).of_history rfl
  · obtain ⟨other, hother, hdone⟩ := hd.books.accepted row.id haccepted
    obtain rfl := Option.some.inj (hother.symm.trans hfound)
    simp only [InvitationRow.isPending, Bool.and_eq_true_iff] at hpending
    exact hdone (Option.isNone_iff_eq_none.mp hpending.1.1)

/-- **A redemption** opens a session, after its invitation is accepted. -/
theorem safeCommand_acceptStaffInvitation (call : AcceptCall) (hd : LockoutInv d) :
    SafeCommand (acceptStaffInvitation call) d := by
  refine (readsOnly_demandSameAccount call).safe_reads hd fun _ locks₁ d₁ _ _ _ hd₁ => ?_
  refine safe_updatingRows fun ids locks₂ d₂ _ hrely₂ hd₂ hheld hfound _ => ?_
  refine Safe.reading fun d₃ hrely₃ hd₃ => Safe.required fun invitation hinvitation => ?_
  obtain ⟨i, hhead, hget⟩ := Option.bind_eq_some_iff.mp hinvitation
  have hi : i ∈ ids := List.mem_of_mem_head? hhead
  obtain ⟨d₀, hd₀, hrely₀, hopen⟩ := hfound i hi
  obtain ⟨row, hrow, hredeemable⟩ := (Option.any_eq_true _ _).mp hopen
  -- The row stays as it was when it was locked.
  have hkept : ∀ d', lockouts.Rely locks₂ d₂ d' → d'.invitations.get? i = some row := by
    intro d' hrely
    have hbefore : d₂.invitations.get? i = d₀.invitations.get? i := hrely₀.2 _ List.mem_cons_self
    have hafter : d'.invitations.get? i = d₂.invitations.get? i := hrely.2 _ (hheld i hi)
    exact hafter.trans (hbefore.trans hrow)
  obtain rfl : acceptedInvitation call.now row = invitation :=
    Option.some.inj ((get?_accepted hi hredeemable (hkept d₃ hrely₃)).symm.trans hget)
  have hready : Ready lockouts LockoutInv (fun x => True
      ∧ MayAccept (acceptedInvitation call.now row) x) _ locks₂ d₃ :=
    ((Ready.start locks₂ d₃).write fun x hx _ => ⟨keeps_invitations hx
      (isPending_acceptedInvitation call.now) (fun _ => rfl) (fun _ _ => Option.some_ne_none _)
      hheld, trivial⟩).learn fun d' hrely hd' =>
        mayAccept_of_pending hi hredeemable hd' (hkept d' (rely_trans hrely₃ hrely))
  refine Safe.locking fun d₄ hrely₄ hd₄ => Safe.demand fun _ => Safe.writing ?_
  have htrusted : Ready lockouts LockoutInv (fun x =>
      (x.standing (acceptedInvitation call.now row).principalId).Trusted) _ _ d₄ :=
    (hready.locked hrely₄).write fun x hx hfacts => ⟨keeps_accepted hx List.mem_cons_self
      hfacts.2.issued hfacts.2.marked hfacts.2.new,
      Account.trusted_accepted hfacts.2.issued (history_journalEvent _ _ x)⟩
  refine (readsOnly_inviterStillAuthorized _ _).safe_reads hd₄ fun _ locks₅ d₅ _ hsub₅ hrely₅ hd₅ => ?_
  refine safe_calm (calm_redeem call _) (fun x y hcalm => hcalm.trusted)
    (htrusted.mono hsub₅ hrely₅) hd₅ fun _ writes₆ locks₆ d₆ hsub₆ hd₆ hready₆ => ?_
  refine safe_calm (calm_revokeAllSessions _ _) (fun x y hcalm => hcalm.trusted) hready₆ hd₆
    fun _ writes₇ locks₇ d₇ hsub₇ hd₇ hready₇ => ?_
  refine safe_calm (calm_endCurrent _ _) (fun x y hcalm => hcalm.trusted) hready₇ hd₇
    fun _ writes₈ locks₈ d₈ hsub₈ hd₈ hready₈ => ?_
  have hlock := hsub₈ _ (hsub₇ _ (hsub₆ _ (hsub₅ _ List.mem_cons_self)))
  refine safe_insertingSession hlock (fun x htrusted => htrusted) (fun x htrusted =>
    trusted_of_journal rfl htrusted) hready₈ fun _ _ _ _ _ hend => hend.mayCommit

/-- Who has a passkey has a way in. -/
theorem not_shut_of_passkey {p i : Uuid} {row : PasskeyRow} (hrow : d.passkeys.get? i = some row)
    (howner : row.principalId = p) (hactive : row.isActive = true) : ¬ (d.standing p).Shut := by
  have hmem : i ∈ (d.standing p).passkeys := by
    refine (Option.any_eq_true _ _).mpr ⟨row, hrow, ?_⟩
    rw [activePasskeyOf, hactive, Bool.and_true]
    exact decide_eq_true howner
  exact fun hshut => (hshut.2 ▸ hmem : i ∈ (∅ : Set Uuid))

/-- **The rule of a rotation** of a session that turns out to be of an account: the
account is trusted and locked. -/
theorem safe_rotateSession {β : Type} {Q : β → (StaffData → StaffData) → Locks Row → StaffData → Prop}
    {F : StaffData → Prop} {writes : StaffData → StaffData} {locks : Locks Row} {tokenHash : String}
    {new : NewSession} {now : Instant} {reverified : Bool} {account : AccountRef}
    {f : Unit → Statements β} (hlock : (Row.principal account.id, Mode.update) ∈ locks)
    (htrusted : ∀ x, F x → (x.standing account.id).Trusted) (hcalm : ∀ x y, Calm x y → F x → F y)
    (hinsert : ∀ row x, F x → F (insertRow sessionTable row x))
    (hready : Ready lockouts LockoutInv F writes locks d)
    (hf : ∀ writes' locks' d', LockoutInv d' → Ready lockouts LockoutInv F writes' locks' d' →
      Safe lockouts LockoutInv Q (f ()) writes' locks' d') :
    Safe lockouts LockoutInv Q (rotateSession tokenHash new now reverified >>= fun rotated =>
      Prog.demand (rotated = account) >>= f) writes locks d := by
  unfold rotateSession
  simp only [Prog.bind_assoc]
  refine Safe.reading fun d₁ hrely₁ hd₁ => Safe.required fun row _ => ?_
  refine Safe.reading fun d₂ hrely₂ hd₂ => Safe.demand fun _ => ?_
  refine safe_calm (OnlyWrites.updating fun ids x => calm_revoked now ids x) hcalm
    (hready.mono (fun l hl => hl) (rely_trans hrely₁ hrely₂)) hd₂
    fun revoked writes₃ locks₃ d₃ hsub₃ hd₃ hready₃ => Safe.demand fun _ => ?_
  by_cases haccount : row.account = account
  · subst haccount
    refine safe_insertingSession (hsub₃ _ hlock) htrusted (hinsert _) hready₃
      fun writes₄ locks₄ d₄ _ hd₄ hready₄ => ?_
    exact Safe.demand fun _ => hf writes₄ locks₄ d₄ hd₄ hready₄
  · -- The demand that follows fails.
    unfold insertingSession
    rw [Prog.bind_assoc]
    refine safe_claiming fun d₄ _ _ _ => safe_inserting fun d₅ _ _ _ => ?_
    exact Safe.demand fun heq => absurd heq haccount

/-- **The rule of the session that is issued** to an account that is trusted and locked. -/
theorem safe_issueSession {β : Type} {Q : β → (StaffData → StaffData) → Locks Row → StaffData → Prop}
    {F : StaffData → Prop} {writes : StaffData → StaffData} {locks : Locks Row}
    {call : AuthenticationCall} {account : AccountRef}
    {f : Unit → Statements β} (hlock : (Row.principal account.id, Mode.update) ∈ locks)
    (htrusted : ∀ x, F x → (x.standing account.id).Trusted) (hcalm : ∀ x y, Calm x y → F x → F y)
    (hinsert : ∀ row x, F x → F (insertRow sessionTable row x))
    (hready : Ready lockouts LockoutInv F writes locks d) (hd : LockoutInv d)
    (hf : ∀ writes' locks' d', Ready lockouts LockoutInv F writes' locks' d' →
      Safe lockouts LockoutInv Q (f ()) writes' locks' d') :
    Safe lockouts LockoutInv Q (issueSession call account >>= f) writes locks d := by
  unfold issueSession
  split
  · unfold reauthenticated
    simp only [Prog.bind_assoc]
    refine (readsOnly_requireLiveSession _ _).safe_reads hd fun _ locks₁ d₁ _ hsub₁ hrely₁ hd₁ => ?_
    refine Safe.required fun current _ => ?_
    refine safe_calm (calm_readSession current call.now) hcalm (hready.mono hsub₁ hrely₁) hd₁
      fun row writes₂ locks₂ d₂ hsub₂ hd₂ hready₂ => Safe.demand fun _ => ?_
    exact safe_rotateSession (hsub₂ _ (hsub₁ _ hlock)) htrusted hcalm hinsert hready₂
      fun writes₃ locks₃ d₃ _ hready₃ => hf writes₃ locks₃ d₃ hready₃
  · unfold signedIn
    rw [Prog.bind_assoc]
    refine safe_calm (calm_endCurrent _ _) hcalm hready hd
      fun _ writes₁ locks₁ d₁ hsub₁ hd₁ hready₁ => ?_
    exact safe_insertingSession (hsub₁ _ hlock) htrusted (hinsert _) hready₁
      fun writes₂ locks₂ d₂ _ _ hready₂ => hf writes₂ locks₂ d₂ hready₂

/-- **A sign-in or a step-up** opens a session of an account that has its passkey still. -/
theorem safeCommand_startSession (call : AuthenticationCall) : SafeCommand (startSession call) d := by
  refine safe_takeCeremony fun c d₁ hd₁ hc hready => Safe.demand fun _ => ?_
  refine Safe.required fun passkey hpasskey => Safe.locking fun d₂ hrely₂ hd₂ => Safe.demand fun _ => ?_
  refine safe_updatingRows fun ids locks₃ d₃ hsub₃ hrely₃ hd₃ hheld hfound _ =>
    Safe.demand fun hsome => ?_
  obtain ⟨i, hi⟩ := List.exists_mem_of_ne_nil ids hsome
  obtain ⟨d₀, hd₀, hrely₀, hopen⟩ := hfound i hi
  obtain ⟨row, hrow, hstill⟩ := (Option.any_eq_true _ _).mp hopen
  rw [Bool.and_eq_true_iff, Bool.and_eq_true_iff] at hstill
  -- The ceremony is there since it was taken up, so its passkey is its principal's.
  have hceremony : d₀.ceremonies.get? call.ceremonyId = some c := by
    have h₂ : d₂.ceremonies.get? call.ceremonyId = d₁.ceremonies.get? call.ceremonyId :=
      hrely₂.2 _ List.mem_cons_self
    have h₃ : d₃.ceremonies.get? call.ceremonyId = d₂.ceremonies.get? call.ceremonyId :=
      hrely₃.2 _ (List.mem_cons_of_mem _ List.mem_cons_self)
    have h₀ : d₃.ceremonies.get? call.ceremonyId = d₀.ceremonies.get? call.ceremonyId :=
      hrely₀.2 _ (List.mem_cons_of_mem _ (List.mem_cons_of_mem _ List.mem_cons_self))
    exact h₀.symm.trans (h₃.trans (h₂.trans hc))
  obtain ⟨owned, howned, howner⟩ :=
    (hd₀.ceremonies.witnessed c (Table.get?_eq_some.mp hceremony).1).passkey passkey hpasskey
  have hself : d₀.passkeys.get? passkey.1 = some row := by
    rw [← of_decide_eq_true hstill.1.1]
    exact Table.get?_eq_some.mpr ⟨(Table.get?_eq_some.mp hrow).1, rfl⟩
  obtain rfl := Option.some.inj (howned.symm.trans hself)
  refine safe_issueSession (F := fun x => Taken c x ∧ (x.standing c.principalId).Trusted)
    (hsub₃ _ List.mem_cons_self) (fun x h => h.2) (fun x y hcalm h =>
    ⟨h.1.of_eq hcalm.ceremonies hcalm.finished, hcalm.trusted h.2⟩) (fun row x h =>
    ⟨h.1.of_eq rfl rfl, trusted_of_journal rfl h.2⟩) ?_ hd₃ fun writes₄ locks₄ d₄ hready₄ => ?_
  · refine Ready.learn (((hready.locked hrely₂).mono hsub₃ hrely₃).write fun x hx htaken =>
      ⟨(calm_usedPasskey call.newCounter ids x).keeps hx, htaken.of_eq rfl rfl⟩)
      fun d' hrely _ => ?_
    have hlocked : lockouts.Rely [(Row.principal c.principalId, Mode.update)] d₀ d' := by
      refine rely_trans (rely_mono hrely₀ fun l hl => ?_) (rely_mono hrely fun l hl => ?_)
      · exact List.mem_singleton.mp hl ▸ List.mem_cons_of_mem _ List.mem_cons_self
      · exact List.mem_singleton.mp hl ▸ hsub₃ _ List.mem_cons_self
    exact trusted_of_journal (x := d') rfl (trusted_of_rely hd₀
      (not_shut_of_passkey howned howner hstill.2) List.mem_cons_self hlocked)
  · exact safe_finishCeremony (fun x h => h.1) hready₄ fun _ hend => hend.mayCommit

end

/-! ## The theorem -/

/-- **The commands of enrolment**, by anyone. -/
inductive EnrolmentCommand : Statements Outcome → Prop
  | recovery (call : RecoveryCall) : EnrolmentCommand (issueStaffRecovery call)
  | bootstrap (call : BootstrapCall) : EnrolmentCommand (bootstrapManager call)
  | offboard (call : OffboardCall) : EnrolmentCommand (offboardStaff call)
  | accept (call : AcceptCall) : EnrolmentCommand (acceptStaffInvitation call)
  | startRegistration (session : Session) (id : Uuid) (challenge : String) (now : Instant) :
    EnrolmentCommand (startPasskeyRegistration session id challenge now)
  | verifyRegistration (call : RegistrationCall) : EnrolmentCommand (verifyRegistration call)
  | storePasskey (call : RegistrationCall) : EnrolmentCommand (storePasskey call)
  | startAuthentication (id : Uuid) (challenge : String) (now : Instant) :
    EnrolmentCommand (startPasskeyAuthentication id challenge now)
  | verifyAuthentication (call : AuthenticationCall) : EnrolmentCommand (verifyAuthentication call)
  | startSession (call : AuthenticationCall) : EnrolmentCommand (startSession call)
  | touch (tokenHash : String) (now : Instant) : EnrolmentCommand (touchSession tokenHash now)

/-- Every command is safe. -/
theorem EnrolmentCommand.safe {command : Statements Outcome} (h : EnrolmentCommand command)
    {d : StaffData} (hd : LockoutInv d) : SafeCommand command d := by
  cases h with
  | recovery call => exact safeCommand_issueStaffRecovery call hd
  | bootstrap call => exact safeCommand_bootstrapManager call hd
  | offboard call => exact safeCommand_offboardStaff call hd
  | accept call => exact safeCommand_acceptStaffInvitation call hd
  | startRegistration session id challenge now =>
    exact safeCommand_startPasskeyRegistration session id challenge now hd
  | verifyRegistration call => exact safeCommand_verifyRegistration call hd
  | storePasskey call => exact safeCommand_storePasskey call
  | startAuthentication id challenge now =>
    exact safeCommand_startPasskeyAuthentication id challenge now
  | verifyAuthentication call => exact safeCommand_verifyAuthentication call
  | startSession call => exact safeCommand_startSession call
  | touch tokenHash now => exact safeCommand_touchSession tokenHash now hd

/-- **Data of which nothing is recorded yet**: any principals, sessions, passkeys,
challenges and invitations, whose tokens are unique. -/
structure Unrecorded (data : StaffData) : Prop where
  journal : data.journal = []
  ceremonies : data.ceremonies.rows = []
  finished : data.finished = []
  tokens : (data.invitations.rows.map InvitationRow.tokenHash).Nodup

theorem Unrecorded.inv {data : StaffData} (h : Unrecorded data) : LockoutInv data := by
  have hhistory : ∀ p, data.history p = [] := fun p => by
    rw [StaffData.history, h.journal]
    rfl
  have hnone : ∀ {after before : List AccountEvent}, [] ≠ after ++ .lockedOut :: before :=
    fun heq => (List.append_ne_nil_of_right_ne_nil _ (List.cons_ne_nil _ _)) heq.symm
  have hacceptances : data.acceptances = [] := by
    rw [StaffData.acceptances, h.journal]
    rfl
  refine ⟨fun p => ⟨fun i _ after before hsplit => ?_, fun after before hsplit => ?_⟩,
    ⟨h.tokens, fun i hi => ?_, ?_⟩, ⟨fun c hc => ?_, ?_, fun i hi => ?_, ?_⟩⟩
  · exact absurd ((hhistory p).symm.trans hsplit) hnone
  · exact absurd ((hhistory p).symm.trans hsplit) hnone
  · rw [hacceptances] at hi
    cases hi
  · rw [hacceptances]
    exact List.nodup_nil
  · rw [h.ceremonies] at hc
    cases hc
  · rw [h.ceremonies]
    exact List.nodup_nil
  · rw [h.finished] at hi
    cases hi
  · rw [h.finished]
    exact List.nodup_nil

/-- The invitations that were accepted with a token. -/
def StaffData.redemptions (data : StaffData) (tokenHash : String) : List Uuid :=
  data.acceptances.filter (fun i => (data.invitations.get? i).any
    (fun row => row.tokenHash = tokenHash))

/-- Who has no way in has no open session and no active passkey. -/
theorem closed_of_shut {data : StaffData} {p : Uuid} (h : (data.standing p).Shut) :
    data.sessions.rows.filter (openSessionOf p) = [] ∧ data.activePasskeys p = [] := by
  refine ⟨List.filter_eq_nil_iff.mpr fun row hrow hopen => ?_,
    List.filter_eq_nil_iff.mpr fun row hrow hactive => ?_⟩
  · have hmem : row.id ∈ (data.standing p).sessions :=
      (Option.any_eq_true _ _).mpr ⟨row, Table.get?_eq_some.mpr ⟨hrow, rfl⟩, hopen⟩
    exact (h.1 ▸ hmem : row.id ∈ (∅ : Set Uuid))
  · have hmem : row.id ∈ (data.standing p).passkeys :=
      (Option.any_eq_true _ _).mpr ⟨row, Table.get?_eq_some.mpr ⟨hrow, rfl⟩, hactive⟩
    exact (h.2 ▸ hmem : row.id ∈ (∅ : Set Uuid))

/-- A token is redeemed once. -/
theorem BooksInv.redeemed_once {data : StaffData} (h : BooksInv data) (tokenHash : String) :
    (data.redemptions tokenHash).length ≤ 1 := by
  have hnodup : (data.redemptions tokenHash).Nodup := h.once.filter _
  have hsame : ∀ i ∈ data.redemptions tokenHash, ∀ j ∈ data.redemptions tokenHash, i = j := by
    intro i hi j hj
    obtain ⟨row, hrow, htoken⟩ := (Option.any_eq_true _ _).mp (List.mem_filter.mp hi).2
    obtain ⟨other, hother, hothertoken⟩ := (Option.any_eq_true _ _).mp (List.mem_filter.mp hj).2
    obtain ⟨hmem, rfl⟩ := Table.get?_eq_some.mp hrow
    obtain ⟨hmem', rfl⟩ := Table.get?_eq_some.mp hother
    exact congrArg InvitationRow.id (List.inj_on_of_nodup_map h.tokens hmem hmem'
      ((of_decide_eq_true htoken).trans (of_decide_eq_true hothertoken).symm))
  cases hlist : data.redemptions tokenHash with
  | nil => exact Nat.zero_le 1
  | cons i rest =>
    rw [hlist] at hnodup hsame
    refine hnodup.length_le_of_subset (fun j hj => ?_ : i :: rest ⊆ [i])
    exact List.mem_singleton.mpr (hsame j hj i List.mem_cons_self)

/-- **Lockouts are complete.** In every state reached by commands that interleave in any
order: since each lockout of a principal an invitation was issued and accepted, or no
session of it is open and no passkey active; a token is redeemed once at most, and so a
stored challenge answered. -/
theorem lockedOut_of_reachable {data : StaffData} {w : World StaffData Row Outcome}
    (hdata : Unrecorded data) (h : Reachable EnrolmentCommand data w) :
    (∀ p after before, w.data.history p = after ++ .lockedOut :: before →
      (∃ i, AccountEvent.issued i ∈ after ∧ AccountEvent.accepted i ∈ after)
      ∨ (w.data.sessions.rows.filter (openSessionOf p) = [] ∧ w.data.activePasskeys p = []))
    ∧ (∀ tokenHash, (w.data.redemptions tokenHash).length ≤ 1)
    ∧ ∀ challengeId, w.data.finished.count challengeId ≤ 1 := by
  have hinv : LockoutInv w.data :=
    inv_of_reachable (fun _ hcommand _ hd => hcommand.safe hd) hdata.inv h
  refine ⟨fun p after before hsplit => ?_, hinv.books.redeemed_once,
    List.nodup_iff_count_le_one.mp hinv.ceremonies.finished⟩
  exact ((hinv.sound p).open_ after before hsplit).imp_right closed_of_shut

/-- **A run with a lockout**: one manager recovers another, whose session and passkey are
closed when it commits. -/
theorem lockedOut_sampleRecovery : ∃ w, Reachable EnrolmentCommand sampleManagers w
    ∧ w.data.history "b" = [.issued "invitation-b", .lockedOut]
    ∧ w.data.sessions.rows.filter (openSessionOf "b") = [] ∧ w.data.activePasskeys "b" = [] := by
  have hrun : Reachable EnrolmentCommand sampleManagers
      ((List.replicate 21 0).foldl World.advance singleRecovery) :=
    (Reachable.started (.init _) (.recovery _)).schedule _
  have hhistory : ((List.replicate 21 0).foldl World.advance singleRecovery).data.history "b"
      = [.issued "invitation-b", .lockedOut] := by decide +kernel
  have hdata : Unrecorded sampleManagers := ⟨rfl, rfl, rfl, List.nodup_nil⟩
  obtain ⟨hlocked, -⟩ := lockedOut_of_reachable hdata hrun
  refine ⟨_, hrun, hhistory, (hlocked "b" [.issued "invitation-b"] [] hhistory).resolve_left ?_⟩
  rintro ⟨i, -, haccepted⟩
  cases List.mem_singleton.mp haccepted

end StaffAccess
