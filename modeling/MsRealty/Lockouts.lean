import MsRealty.StaffEnrolment

/-!
# Lockouts

What a lockout of a member ends, and what may open the account again. The account of a
member is seen as its history, its pending invitations, and its ways in: sessions and
passkeys (`Account`). It is sound if after its latest lockouts only invitations that were
issued since are pending, and either one of them was accepted or no way in is left
(`Account.Sound`).

The second half is what transactions may rely on under their locks (`lockouts`), the
invariant of the data (`LockoutInv`), and what each statement does to it.
-/

namespace StaffAccess

open RowLocks Authz Access Sessions

/-! ## Accounts -/

/-- **An account**: what happened to it, the latest first, its pending invitations, and
its ways in. -/
structure Account where
  history : List AccountEvent
  pending : Set Uuid
  sessions : Set Uuid
  passkeys : Set Uuid

/-- Whether an invitation was issued and accepted. -/
def Reopened (events : List AccountEvent) : Prop :=
  ∃ i, AccountEvent.issued i ∈ events ∧ AccountEvent.accepted i ∈ events

theorem Reopened.cons {events : List AccountEvent} (h : Reopened events) (e : AccountEvent) :
    Reopened (e :: events) := by
  obtain ⟨i, hissued, haccepted⟩ := h
  exact ⟨i, List.mem_cons_of_mem _ hissued, List.mem_cons_of_mem _ haccepted⟩

namespace Account

variable {a b c : Account} {i : Uuid}

/-- No way in is left. -/
def Shut (a : Account) : Prop := a.sessions = ∅ ∧ a.passkeys = ∅

/-- **Nobody gets in as before a lockout**: since each of them an invitation was issued and
accepted. -/
def Trusted (a : Account) : Prop :=
  ∀ after before, a.history = after ++ .lockedOut :: before → Reopened after

/-- An invitation was issued since every lockout. -/
def IssuedSince (a : Account) (i : Uuid) : Prop :=
  ∀ after before, a.history = after ++ .lockedOut :: before → AccountEvent.issued i ∈ after

/-- **Lockouts are complete**: since each of them every pending invitation was issued, and
one was accepted, or no way in is left. -/
structure Sound (a : Account) : Prop where
  issued : ∀ i ∈ a.pending, a.IssuedSince i
  open_ : ∀ after before, a.history = after ++ .lockedOut :: before → Reopened after ∨ a.Shut

/-- An account of the same history, with no more invitations and ways in. -/
structure Shrinks (a b : Account) : Prop where
  history : b.history = a.history
  pending : b.pending ⊆ a.pending
  sessions : b.sessions ⊆ a.sessions
  passkeys : b.passkeys ⊆ a.passkeys

theorem Shrinks.refl (a : Account) : a.Shrinks a :=
  ⟨rfl, subset_rfl, subset_rfl, subset_rfl⟩

theorem Shrinks.trans (h : a.Shrinks b) (h' : b.Shrinks c) : a.Shrinks c :=
  ⟨h'.history.trans h.history, h'.pending.trans h.pending, h'.sessions.trans h.sessions,
    h'.passkeys.trans h.passkeys⟩

theorem IssuedSince.of_history (h : a.IssuedSince i) (hhistory : b.history = a.history) :
    b.IssuedSince i :=
  fun after before hsplit => h after before (hhistory.symm.trans hsplit)

theorem Trusted.of_history (h : a.Trusted) (hhistory : b.history = a.history) : b.Trusted :=
  fun after before hsplit => h after before (hhistory.symm.trans hsplit)

theorem Shut.mono (h : a.Shut) (hsessions : b.sessions ⊆ a.sessions)
    (hpasskeys : b.passkeys ⊆ a.passkeys) : b.Shut :=
  ⟨Set.subset_empty_iff.mp (h.1 ▸ hsessions), Set.subset_empty_iff.mp (h.2 ▸ hpasskeys)⟩

/-- What shrinks stays sound. -/
theorem Sound.shrinks (h : a.Sound) (hshrinks : a.Shrinks b) : b.Sound := by
  refine ⟨fun i hi => (h.issued i (hshrinks.pending hi)).of_history hshrinks.history,
    fun after before hsplit => ?_⟩
  refine (h.open_ after before (hshrinks.history.symm.trans hsplit)).imp_right fun hshut => ?_
  exact hshut.mono hshrinks.sessions hshrinks.passkeys

theorem Sound.trusted (h : a.Sound) (hopen : ¬ a.Shut) : a.Trusted :=
  fun after before hsplit => (h.open_ after before hsplit).resolve_right hopen

/-- **A lockout**: no invitation is pending, and no way in is left. -/
theorem sound_of_shut (hpending : a.pending = ∅) (hshut : a.Shut) : a.Sound := by
  refine ⟨fun i hi => ?_, fun _ _ _ => .inr hshut⟩
  rw [hpending] at hi
  exact absurd hi (Set.notMem_empty i)

/-- What happened before another event is what happened after a lockout, but for it. -/
theorem split_cons {e : AccountEvent} {history after before : List AccountEvent}
    (he : e ≠ .lockedOut) (h : e :: history = after ++ .lockedOut :: before) :
    ∃ rest, after = e :: rest ∧ history = rest ++ .lockedOut :: before := by
  cases after with
  | nil => exact absurd (List.cons.inj h).1 he
  | cons f rest =>
    obtain ⟨rfl, hrest⟩ := List.cons.inj h
    exact ⟨rest, rfl, hrest⟩

/-- An event that is no lockout leaves what was issued since. -/
theorem IssuedSince.cons {e : AccountEvent} (h : a.IssuedSince i) (he : e ≠ .lockedOut)
    (hhistory : b.history = e :: a.history) : b.IssuedSince i := by
  intro after before hsplit
  obtain ⟨rest, rfl, hrest⟩ := split_cons he (hhistory.symm.trans hsplit)
  exact List.mem_cons_of_mem _ (h rest before hrest)

theorem issuedSince_self (hhistory : b.history = .issued i :: a.history) : b.IssuedSince i := by
  intro after before hsplit
  obtain ⟨rest, rfl, -⟩ := split_cons (fun he => by cases he) (hhistory.symm.trans hsplit)
  exact List.mem_cons_self

/-- **An invitation is issued.** -/
theorem Sound.issued_cons (h : a.Sound) (hhistory : b.history = .issued i :: a.history)
    (hpending : b.pending = a.pending) (hsessions : b.sessions = a.sessions)
    (hpasskeys : b.passkeys = a.passkeys) : b.Sound := by
  refine ⟨fun j hj => ?_, fun after before hsplit => ?_⟩
  · rw [hpending] at hj
    exact (h.issued j hj).cons (fun he => by cases he) hhistory
  · obtain ⟨rest, rfl, hrest⟩ := split_cons (fun he => by cases he) (hhistory.symm.trans hsplit)
    refine (h.open_ rest before hrest).imp (fun hreopened => hreopened.cons _) fun hshut => ?_
    exact hshut.mono hsessions.le hpasskeys.le

/-- **An issued invitation is pending.** -/
theorem Sound.pending (h : a.Sound) (hissued : a.IssuedSince i) (hhistory : b.history = a.history)
    (hpending : b.pending ⊆ insert i a.pending) (hsessions : b.sessions = a.sessions)
    (hpasskeys : b.passkeys = a.passkeys) : b.Sound := by
  refine ⟨fun j hj => ?_, fun after before hsplit => ?_⟩
  · obtain rfl | hj := hpending hj
    · exact hissued.of_history hhistory
    · exact (h.issued j hj).of_history hhistory
  · refine (h.open_ after before (hhistory.symm.trans hsplit)).imp_right fun hshut => ?_
    exact hshut.mono hsessions.le hpasskeys.le

/-- **An invitation is accepted** that was issued since every lockout. -/
theorem trusted_accepted (hissued : a.IssuedSince i)
    (hhistory : b.history = .accepted i :: a.history) : b.Trusted := by
  intro after before hsplit
  obtain ⟨rest, rfl, hrest⟩ := split_cons (fun he => by cases he) (hhistory.symm.trans hsplit)
  exact ⟨i, List.mem_cons_of_mem _ (hissued rest before hrest), List.mem_cons_self⟩

theorem Sound.accepted (h : a.Sound) (hissued : a.IssuedSince i)
    (hhistory : b.history = .accepted i :: a.history) (hpending : b.pending = a.pending) :
    b.Sound := by
  refine ⟨fun j hj => ?_, fun after before hsplit =>
    .inl (trusted_accepted hissued hhistory after before hsplit)⟩
  rw [hpending] at hj
  exact (h.issued j hj).cons (fun he => by cases he) hhistory

/-- **A way in may be opened** of an account that is trusted. -/
theorem Sound.opened (h : a.Sound) (htrusted : a.Trusted) (hhistory : b.history = a.history)
    (hpending : b.pending = a.pending) : b.Sound := by
  refine ⟨fun j hj => ?_, fun after before hsplit =>
    .inl (htrusted.of_history hhistory after before hsplit)⟩
  rw [hpending] at hj
  exact (h.issued j hj).of_history hhistory

end Account

/-! ## What is relied on -/

/-- The ids of the rows of a table that satisfy a condition. -/
def TableOf.ids {ρ : Type} {key : ρ → Uuid} (table : TableOf ρ key) (isOpen : ρ → Bool)
    (data : StaffData) : Set Uuid :=
  { i | ((table.get data).get? i).any isOpen = true }

/-- What happened to an account, the latest first. -/
def StaffData.history (data : StaffData) (p : Uuid) : List AccountEvent :=
  (data.journal.filter (fun e => e.1 = p)).map Prod.snd

/-- **The account of a member**, as the tables have it. -/
def StaffData.standing (data : StaffData) (p : Uuid) : Account where
  history := data.history p
  pending := invitationTable.ids (pendingInvitationOf p) data
  sessions := sessionTable.ids (openSessionOf p) data
  passkeys := passkeyTable.ids (activePasskeyOf p) data

/-- No invitation has a token. -/
def NoToken (tokenHash : String) (data : StaffData) : Prop :=
  ∀ row ∈ data.invitations.rows, row.tokenHash ≠ tokenHash

/-- **What may be relied on under a lock**: under that of a principal its account only
shrinks; an invitation, a challenge and a ceremony stay as they are under theirs, and a
token stays free. -/
def KeepsAccounts : Row → Mode → StaffData → StaffData → Prop
  | .principal p, .update, data, data' => (data.standing p).Shrinks (data'.standing p)
  | .invitation i, .update, data, data' => data'.invitations.get? i = data.invitations.get? i
  | .challenge i, .update, data, data' => data'.challenges.get? i = data.challenges.get? i
  | .ceremony i, .update, data, data' => data'.ceremonies.get? i = data.ceremonies.get? i
  | .entry .invitationToken hash, .update, data, data' => NoToken hash data → NoToken hash data'
  | _, _, _, _ => True

/-- No passkey goes away, or changes its principal. -/
def KeepsPasskeys (data data' : StaffData) : Prop :=
  ∀ i key, data.passkeys.get? i = some key →
    ∃ key', data'.passkeys.get? i = some key' ∧ key'.principalId = key.principalId

theorem KeepsPasskeys.trans {x y z : StaffData} (h : KeepsPasskeys x y) (h' : KeepsPasskeys y z) :
    KeepsPasskeys x z := by
  intro i key hkey
  obtain ⟨key', hkey', hid'⟩ := h i key hkey
  obtain ⟨key'', hkey'', hid''⟩ := h' i key' hkey'
  exact ⟨key'', hkey'', hid''.trans hid'⟩

theorem KeepsPasskeys.of_eq {x y : StaffData} (h : y.passkeys = x.passkeys) :
    KeepsPasskeys x y := by
  intro i key hkey
  rw [h]
  exact ⟨key, hkey, rfl⟩

/-- **The discipline of enrolment.** -/
def lockouts : Discipline StaffData Row where
  Every := KeepsPasskeys
  Keeps := KeepsAccounts
  every_refl _ := .of_eq rfl
  every_trans h h' := h.trans h'
  keeps_refl key mode data := by
    unfold KeepsAccounts
    split
    · exact .refl _
    · rfl
    · rfl
    · rfl
    · exact fun h => h
    · trivial
  keeps_trans {key mode a b c} h h' := by
    unfold KeepsAccounts at *
    split at h
    · exact h.trans h'
    · exact h'.trans h
    · exact h'.trans h
    · exact h'.trans h
    · exact fun hfree => h' (h hfree)
    · trivial

/-- The invitation an event says was accepted. -/
def AccountEvent.acceptance? : AccountEvent → Option Uuid
  | .accepted i => some i
  | _ => none

/-- The accepted invitations, the latest first. -/
def StaffData.acceptances (data : StaffData) : List Uuid :=
  data.journal.filterMap (fun e => e.2.acceptance?)

/-- **The books of invitations**: a token is that of one invitation; an accepted invitation
is marked as such, and accepted once. -/
structure BooksInv (data : StaffData) : Prop where
  tokens : (data.invitations.rows.map InvitationRow.tokenHash).Nodup
  accepted : ∀ i ∈ data.acceptances, ∃ row, data.invitations.get? i = some row
    ∧ row.acceptedAt ≠ none
  once : data.acceptances.Nodup

/-- The challenge of a ceremony is consumed, and the passkey that answered is that of its
principal. -/
structure Witnessed (data : StaffData) (c : Ceremony) : Prop where
  consumed : ∃ row, data.challenges.get? c.challengeId = some row ∧ row.consumedAt ≠ none
  passkey : ∀ key ∈ c.passkey, ∃ row, data.passkeys.get? key.1 = some row
    ∧ row.principalId = c.principalId

/-- **The ceremonies**: no two have the same challenge, and each succeeds once. -/
structure CeremoniesInv (data : StaffData) : Prop where
  witnessed : ∀ c ∈ data.ceremonies.rows, Witnessed data c
  unique : (data.ceremonies.rows.map Ceremony.challengeId).Nodup
  taken : ∀ i ∈ data.finished, ∃ c ∈ data.ceremonies.rows, c.challengeId = i ∧ c.taken = true
  finished : data.finished.Nodup

/-- **The invariant of enrolment.** -/
structure LockoutInv (data : StaffData) : Prop where
  sound : ∀ p, (data.standing p).Sound
  books : BooksInv data
  ceremonies : CeremoniesInv data

section

variable {x y z : StaffData} {locks : Locks Row} {p : Uuid}

/-! ## What writes change -/

/-- A challenge that is consumed stays so, and passkeys are kept. -/
theorem Witnessed.mono {c c' : Ceremony} (h : Witnessed x c)
    (hchallenges : ∀ row, x.challenges.get? c.challengeId = some row → row.consumedAt ≠ none →
      ∃ row', y.challenges.get? c.challengeId = some row' ∧ row'.consumedAt ≠ none)
    (hpasskeys : KeepsPasskeys x y) (hchallenge : c'.challengeId = c.challengeId)
    (hpasskey : c'.passkey = c.passkey) (hprincipal : c'.principalId = c.principalId) :
    Witnessed y c' := by
  obtain ⟨row, hrow, hconsumed⟩ := h.consumed
  refine ⟨hchallenge ▸ hchallenges row hrow hconsumed, fun key hkey => ?_⟩
  obtain ⟨owned, howned, hid⟩ := h.passkey key (hpasskey ▸ hkey)
  obtain ⟨owned', howned', hid'⟩ := hpasskeys key.1 owned howned
  exact ⟨owned', howned', hid'.trans (hid.trans hprincipal.symm)⟩

/-- The same ceremonies, with more challenges consumed and passkeys kept. -/
theorem CeremoniesInv.mono (h : CeremoniesInv x)
    (hchallenges : ∀ i row, x.challenges.get? i = some row → row.consumedAt ≠ none →
      ∃ row', y.challenges.get? i = some row' ∧ row'.consumedAt ≠ none)
    (hceremonies : y.ceremonies = x.ceremonies) (hfinished : y.finished = x.finished)
    (hpasskeys : KeepsPasskeys x y) : CeremoniesInv y := by
  refine ⟨fun c hc => ?_, ?_, ?_, ?_⟩
  · rw [hceremonies] at hc
    exact (h.witnessed c hc).mono (hchallenges c.challengeId) hpasskeys rfl rfl rfl
  · rw [hceremonies]
    exact h.unique
  · rw [hceremonies, hfinished]
    exact h.taken
  · rw [hfinished]
    exact h.finished

/-- The same invitations, and the same acceptances. -/
theorem BooksInv.of_eq (h : BooksInv x) (hinvitations : y.invitations = x.invitations)
    (hacceptances : y.acceptances = x.acceptances) : BooksInv y := by
  refine ⟨?_, ?_, ?_⟩
  · rw [hinvitations]
    exact h.tokens
  · rw [hinvitations, hacceptances]
    exact h.accepted
  · rw [hacceptances]
    exact h.once

/-- **What a write guarantees**: what others may rely on changes only under its locks. -/
structure Guards (locks : Locks Row) (x y : StaffData) : Prop where
  passkeys : KeepsPasskeys x y
  accounts : ∀ p, (Row.principal p, Mode.update) ∈ locks ∨ (x.standing p).Shrinks (y.standing p)
  invitations : ∀ i, (Row.invitation i, Mode.update) ∈ locks
    ∨ y.invitations.get? i = x.invitations.get? i
  challenges : ∀ i, (Row.challenge i, Mode.update) ∈ locks
    ∨ y.challenges.get? i = x.challenges.get? i
  ceremonies : ∀ i, (Row.ceremony i, Mode.update) ∈ locks
    ∨ y.ceremonies.get? i = x.ceremonies.get? i
  tokens : ∀ hash, (Row.entry .invitationToken hash, Mode.update) ∈ locks
    ∨ (NoToken hash x → NoToken hash y)

theorem Guards.guarantee (h : Guards locks x y) : lockouts.Guarantee locks x y := by
  have hheld : ∀ {key : Row} {mode : Mode}, (key, Mode.update) ∈ locks →
      ¬ ∀ l ∈ locks, l.fst = key → l.snd.Compatible mode := by
    intro key mode hmem hcompat
    have hshare := (hcompat _ hmem rfl).1
    cases hshare
  refine ⟨h.passkeys, fun key mode hcompat => ?_⟩
  show KeepsAccounts key mode x y
  unfold KeepsAccounts
  split
  · exact (h.accounts _).resolve_left fun hmem => hheld hmem hcompat
  · exact (h.invitations _).resolve_left fun hmem => hheld hmem hcompat
  · exact (h.challenges _).resolve_left fun hmem => hheld hmem hcompat
  · exact (h.ceremonies _).resolve_left fun hmem => hheld hmem hcompat
  · exact (h.tokens _).resolve_left fun hmem => hheld hmem hcompat
  · trivial

/-- **A write that keeps the invariant**, and the guarantee. -/
def Keeps (locks : Locks Row) (x y : StaffData) : Prop :=
  LockoutInv y ∧ lockouts.Guarantee locks x y

/-- **A calm change**: accounts only shrink, by their sessions and passkeys, and nothing
happens to invitations and ceremonies. -/
structure Calm (x y : StaffData) : Prop where
  accounts : ∀ p, (x.standing p).Shrinks (y.standing p)
  journal : y.journal = x.journal
  invitations : y.invitations = x.invitations
  challenges : y.challenges = x.challenges
  ceremonies : y.ceremonies = x.ceremonies
  finished : y.finished = x.finished
  passkeys : KeepsPasskeys x y

theorem Calm.refl (x : StaffData) : Calm x x :=
  ⟨fun _ => .refl _, rfl, rfl, rfl, rfl, rfl, .of_eq rfl⟩

theorem Calm.trans (h : Calm x y) (h' : Calm y z) : Calm x z :=
  ⟨fun p => (h.accounts p).trans (h'.accounts p), h'.journal.trans h.journal,
    h'.invitations.trans h.invitations, h'.challenges.trans h.challenges,
    h'.ceremonies.trans h.ceremonies, h'.finished.trans h.finished, h.passkeys.trans h'.passkeys⟩

/-- **A calm change keeps the invariant**, whatever is locked. -/
theorem Calm.keeps (h : Calm x y) (hx : LockoutInv x) : Keeps locks x y := by
  have hacceptances : y.acceptances = x.acceptances :=
    congrArg (fun journal => journal.filterMap fun e => e.2.acceptance?) h.journal
  refine ⟨⟨fun p => (hx.sound p).shrinks (h.accounts p), hx.books.of_eq h.invitations hacceptances,
    hx.ceremonies.mono (fun i row hrow hconsumed => ⟨row, ?_, hconsumed⟩) h.ceremonies h.finished
      h.passkeys⟩, Guards.guarantee ⟨h.passkeys, fun p => .inr (h.accounts p),
      fun i => .inr ?_, fun i => .inr ?_, fun i => .inr ?_, fun hash => .inr ?_⟩⟩
  · rw [h.challenges]
    exact hrow
  · rw [h.invitations]
  · rw [h.challenges]
  · rw [h.ceremonies]
  · rw [NoToken, NoToken, h.invitations]
    exact fun hfree => hfree

theorem history_eq (hjournal : y.journal = x.journal) (p : Uuid) : y.history p = x.history p := by
  rw [StaffData.history, StaffData.history, hjournal]

/-- Where the tables of an account are the same, so is the account. -/
theorem standing_eq (hjournal : y.journal = x.journal) (hinvitations : y.invitations = x.invitations)
    (hsessions : y.sessions = x.sessions) (hpasskeys : y.passkeys = x.passkeys) (p : Uuid) :
    y.standing p = x.standing p := by
  simp only [StaffData.standing, TableOf.ids, invitationTable, sessionTable, passkeyTable,
    history_eq hjournal, hinvitations, hsessions, hpasskeys]

/-- What leaves accounts and ceremonies is calm. -/
theorem Calm.of_eq (hjournal : y.journal = x.journal) (hinvitations : y.invitations = x.invitations)
    (hsessions : y.sessions = x.sessions) (hpasskeys : y.passkeys = x.passkeys)
    (hchallenges : y.challenges = x.challenges) (hceremonies : y.ceremonies = x.ceremonies)
    (hfinished : y.finished = x.finished) : Calm x y := by
  refine ⟨fun p => ?_, hjournal, hinvitations, hchallenges, hceremonies, hfinished, .of_eq hpasskeys⟩
  rw [standing_eq hjournal hinvitations hsessions hpasskeys]
  exact .refl _

/-! ## Rows that are changed -/

section

variable {ρ : Type} {key : ρ → Uuid} {table : TableOf ρ key} {still isOpen : ρ → Bool}
  {change : ρ → ρ} {hkey : ∀ row, key (change row) = key row} {ids : List Uuid} {i : Uuid}

/-- A change after which no other row satisfies a condition. -/
theorem ids_changeRows (hchange : ∀ row, isOpen (change row) = true → isOpen row = true) :
    table.ids isOpen (changeRows table still change hkey ids x) ⊆ table.ids isOpen x := by
  intro i (hi : ((table.get _).get? i).any isOpen = true)
  rw [get?_changeRows, Option.any_map] at hi
  obtain ⟨row, hrow, hopen⟩ := (Option.any_eq_true _ _).mp hi
  refine (Option.any_eq_true _ _).mpr ⟨row, hrow, ?_⟩
  split at hopen
  · exact hchange row hopen
  · exact hopen

/-- **What is open after some rows were closed** was open before, and is none of them. -/
theorem ids_closed (hclosed : ∀ row, isOpen (change row) = false)
    (hi : i ∈ table.ids isOpen (changeRows table isOpen change hkey ids x)) :
    i ∈ table.ids isOpen x ∧ i ∉ ids := by
  refine ⟨ids_changeRows (fun row hrow => ?_) hi, fun hmem => ?_⟩
  · rw [hclosed row] at hrow
    cases hrow
  · have hi' : ((table.get (changeRows table isOpen change hkey ids x)).get? i).any isOpen = true :=
      hi
    rw [get?_changeRows, Option.any_map] at hi'
    obtain ⟨row, hrow, hopen⟩ := (Option.any_eq_true _ _).mp hi'
    have hid : key row ∈ ids := (Table.get?_eq_some.mp hrow).2 ▸ hmem
    rw [decide_eq_true hid, Bool.true_and] at hopen
    split at hopen
    · rw [hclosed row] at hopen
      cases hopen
    · next hnot => exact hnot hopen

variable (table) in
/-- A row after an insertion is the new one, or was there. -/
theorem mem_insertRow {row r : ρ} (hr : r ∈ (table.get (insertRow table row x)).rows) :
    r = row ∨ r ∈ (table.get x).rows := by
  obtain hsame | ⟨-, hrows⟩ := rows_insertRow table row x
  · rw [hsame] at hr
    exact .inr hr
  · rw [hrows] at hr
    exact List.mem_cons.mp hr

/-- What satisfies a condition after an insertion. -/
theorem ids_insertRow {row : ρ} (hi : i ∈ table.ids isOpen (insertRow table row x)) :
    i ∈ table.ids isOpen x ∨ i = key row ∧ isOpen row = true := by
  obtain ⟨found, hfound, hopen⟩ := (Option.any_eq_true _ _).mp hi
  obtain ⟨hmem, hid⟩ := Table.get?_eq_some.mp hfound
  obtain rfl | hold := mem_insertRow table hmem
  · exact .inr ⟨hid.symm, hopen⟩
  · exact .inl ((Option.any_eq_true _ _).mpr ⟨found, Table.get?_eq_some.mpr ⟨hold, hid⟩, hopen⟩)

variable (table change) in
/-- A row that is not among them is found as before. -/
theorem get?_changeRows_of_notMem (hkey : ∀ row, key (change row) = key row) (hi : i ∉ ids) :
    (table.get (changeRows table still change hkey ids x)).get? i = (table.get x).get? i := by
  rw [get?_changeRows]
  cases hrow : (table.get x).get? i with
  | none => rfl
  | some row =>
    rw [Option.map_some, (Table.get?_eq_some.mp hrow).2, decide_eq_false hi]
    rfl

variable (table) in
/-- An insertion leaves what is found elsewhere. -/
theorem get?_insertRow_of_ne {row : ρ} (hi : key row ≠ i) :
    (table.get (insertRow table row x)).get? i = (table.get x).get? i := by
  cases hrow : (table.get x).get? i with
  | some found => exact get?_insertRow_of_some table row hrow
  | none =>
    refine Table.get?_eq_none.mpr fun found hfound => ?_
    obtain rfl | hold := mem_insertRow table hfound
    · exact hi
    · exact Table.get?_eq_none.mp hrow found hold

variable (table change) in
/-- A column that a change leaves is the same for all rows. -/
theorem map_changeRows {β : Type} {column : ρ → β} (hkey : ∀ row, key (change row) = key row)
    (hcolumn : ∀ row, column (change row) = column row) :
    (table.get (changeRows table still change hkey ids x)).rows.map column
      = (table.get x).rows.map column := by
  rw [changeRows, table.get_set]
  show ((table.get x).rows.map _).map _ = _
  rw [List.map_map]
  refine List.map_congr_left fun row _ => ?_
  rw [Function.comp_apply]
  split
  · exact hcolumn row
  · rfl

end

/-- A change of passkeys that leaves their principals keeps them. -/
theorem keepsPasskeys_changeRows {still : PasskeyRow → Bool} {change : PasskeyRow → PasskeyRow}
    {hkey : ∀ row, (change row).id = row.id} {ids : List Uuid}
    (hchange : ∀ row, (change row).principalId = row.principalId) :
    KeepsPasskeys x (changeRows passkeyTable still change hkey ids x) := by
  intro i key hrow
  have hfound := get?_changeRows passkeyTable still change hkey ids x i
  have hrow' : (passkeyTable.get x).get? i = some key := hrow
  rw [hrow', Option.map_some] at hfound
  refine ⟨_, hfound, ?_⟩
  split
  · exact hchange key
  · rfl

/-- **A change of sessions that opens none.** -/
theorem calm_sessions {still : SessionRow → Bool} {change : SessionRow → SessionRow}
    {hkey : ∀ row, (change row).id = row.id} {ids : List Uuid}
    (hchange : ∀ p row, openSessionOf p (change row) = true → openSessionOf p row = true) :
    Calm x (changeRows sessionTable still change hkey ids x) :=
  ⟨fun p => ⟨rfl, subset_rfl, ids_changeRows (hchange p), subset_rfl⟩, rfl, rfl, rfl, rfl, rfl,
    .of_eq rfl⟩

/-- **A change of passkeys** that gives none back. -/
theorem calm_passkeys {still : PasskeyRow → Bool} {change : PasskeyRow → PasskeyRow}
    {hkey : ∀ row, (change row).id = row.id} {ids : List Uuid}
    (hprincipal : ∀ row, (change row).principalId = row.principalId)
    (hchange : ∀ p row, activePasskeyOf p (change row) = true → activePasskeyOf p row = true) :
    Calm x (changeRows passkeyTable still change hkey ids x) :=
  ⟨fun p => ⟨rfl, subset_rfl, subset_rfl, ids_changeRows (hchange p)⟩, rfl, rfl, rfl, rfl, rfl,
    keepsPasskeys_changeRows hprincipal⟩

/-- **A change of invitations that leaves none pending**, of rows that are locked. -/
theorem keeps_invitations {still : InvitationRow → Bool} {change : InvitationRow → InvitationRow}
    {hkey : ∀ row, (change row).id = row.id} {ids : List Uuid} (hx : LockoutInv x)
    (hpending : ∀ row, (change row).isPending = false)
    (htoken : ∀ row, (change row).tokenHash = row.tokenHash)
    (haccepted : ∀ row, row.acceptedAt ≠ none → (change row).acceptedAt ≠ none)
    (hlocks : ∀ i ∈ ids, (Row.invitation i, Mode.update) ∈ locks) :
    Keeps locks x (changeRows invitationTable still change hkey ids x) := by
  have hstanding : ∀ p, (x.standing p).Shrinks
      ((changeRows invitationTable still change hkey ids x).standing p) := by
    refine fun p => ⟨rfl, ids_changeRows fun row hrow => ?_, subset_rfl, subset_rfl⟩
    rw [pendingInvitationOf, hpending row, Bool.and_false] at hrow
    cases hrow
  have htokens : (changeRows invitationTable still change hkey ids x).invitations.rows.map
      InvitationRow.tokenHash = x.invitations.rows.map InvitationRow.tokenHash :=
    map_changeRows invitationTable change hkey htoken
  refine ⟨⟨fun p => (hx.sound p).shrinks (hstanding p), ⟨?_, fun i hi => ?_, hx.books.once⟩,
    hx.ceremonies.mono (fun i row hrow hconsumed => ⟨row, hrow, hconsumed⟩) rfl rfl (.of_eq rfl)⟩,
    Guards.guarantee ⟨.of_eq rfl, fun p => .inr (hstanding p), fun i => ?_, fun _ => .inr rfl,
      fun _ => .inr rfl, fun hash => .inr fun hfree row hrow => ?_⟩⟩
  · rw [htokens]
    exact hx.books.tokens
  · obtain ⟨row, hrow, hdone⟩ := hx.books.accepted i hi
    have hfound := get?_changeRows invitationTable still change hkey ids x i
    have hrow' : (invitationTable.get x).get? i = some row := hrow
    rw [hrow', Option.map_some] at hfound
    refine ⟨_, hfound, ?_⟩
    split
    · exact haccepted row hdone
    · exact hdone
  · by_cases hi : i ∈ ids
    · exact .inl (hlocks i hi)
    · exact .inr (get?_changeRows_of_notMem invitationTable change hkey hi)
  · have hmem := List.mem_map_of_mem (f := InvitationRow.tokenHash) hrow
    rw [htokens] at hmem
    obtain ⟨before, hbefore, heq⟩ := List.mem_map.mp hmem
    rw [← heq]
    exact hfree before hbefore

/-! ## The journal -/

/-- What happens to an account is added to its history. -/
theorem history_journalEvent (p : Uuid) (e : AccountEvent) (x : StaffData) :
    ((journalEvent p e x).standing p).history = e :: (x.standing p).history := by
  show (List.filter (fun e => decide (e.1 = p)) ((p, e) :: x.journal)).map Prod.snd = _
  rw [List.filter_cons, if_pos (decide_eq_true rfl), List.map_cons]
  rfl

/-- Other accounts stay as they are. -/
theorem standing_journalEvent_of_ne {q : Uuid} (hq : q ≠ p) (e : AccountEvent) (x : StaffData) :
    (journalEvent p e x).standing q = x.standing q := by
  have hhistory : ((journalEvent p e x).standing q).history = (x.standing q).history := by
    show (List.filter (fun e => decide (e.1 = q)) ((p, e) :: x.journal)).map Prod.snd = _
    rw [List.filter_cons, if_neg (fun h => hq (of_decide_eq_true h).symm)]
    rfl
  exact congrArg (fun history => { x.standing q with history := history }) hhistory

/-- **An event that leaves its account sound**, and the books as they should be. -/
theorem keeps_journalEvent {e : AccountEvent} (hx : LockoutInv x)
    (hlock : (Row.principal p, Mode.update) ∈ locks)
    (hsound : ((journalEvent p e x).standing p).Sound) (hbooks : BooksInv (journalEvent p e x)) :
    Keeps locks x (journalEvent p e x) := by
  have hstanding : ∀ q, q = p ∨ (journalEvent p e x).standing q = x.standing q := fun q =>
    (em (q = p)).imp_right fun hq => standing_journalEvent_of_ne hq e x
  refine ⟨⟨fun q => ?_, hbooks, hx.ceremonies.mono (fun i row hrow hconsumed =>
    ⟨row, hrow, hconsumed⟩) rfl rfl (.of_eq rfl)⟩, Guards.guarantee ⟨.of_eq rfl, fun q => ?_,
      fun _ => .inr rfl, fun _ => .inr rfl, fun _ => .inr rfl, fun _ => .inr fun h => h⟩⟩
  · obtain rfl | hsame := hstanding q
    · exact hsound
    · rw [hsame]
      exact hx.sound q
  · obtain rfl | hsame := hstanding q
    · exact .inl hlock
    · rw [hsame]
      exact .inr (.refl _)

/-- **A lockout is recorded** when it is complete. -/
theorem keeps_lockedOut (hx : LockoutInv x) (hlock : (Row.principal p, Mode.update) ∈ locks)
    (hpending : (x.standing p).pending = ∅) (hshut : (x.standing p).Shut) :
    Keeps locks x (journalEvent p .lockedOut x) :=
  keeps_journalEvent hx hlock (Account.sound_of_shut hpending hshut) (hx.books.of_eq rfl rfl)

/-- **An invitation is issued.** -/
theorem keeps_issued {i : Uuid} (hx : LockoutInv x) (hlock : (Row.principal p, Mode.update) ∈ locks) :
    Keeps locks x (journalEvent p (.issued i) x) :=
  keeps_journalEvent hx hlock
    ((hx.sound p).issued_cons (history_journalEvent p _ x) rfl rfl rfl) (hx.books.of_eq rfl rfl)

/-- **An invitation is accepted** that is marked as such, and was not before. -/
theorem keeps_accepted {i : Uuid} (hx : LockoutInv x)
    (hlock : (Row.principal p, Mode.update) ∈ locks) (hissued : (x.standing p).IssuedSince i)
    (hmarked : ∃ row, x.invitations.get? i = some row ∧ row.acceptedAt ≠ none)
    (hnew : i ∉ x.acceptances) : Keeps locks x (journalEvent p (.accepted i) x) := by
  refine keeps_journalEvent hx hlock
    ((hx.sound p).accepted hissued (history_journalEvent p _ x) rfl)
    ⟨hx.books.tokens, fun j hj => ?_, List.nodup_cons.mpr ⟨hnew, hx.books.once⟩⟩
  obtain rfl | hj := List.mem_cons.mp hj
  · exact hmarked
  · exact hx.books.accepted j hj

/-! ## Rows that are inserted -/

/-- **An invitation that was issued** becomes pending; its token is new. -/
theorem keeps_invitation {row : InvitationRow} (hx : LockoutInv x)
    (hprincipal : (Row.principal row.principalId, Mode.update) ∈ locks)
    (htoken : (Row.entry .invitationToken row.tokenHash, Mode.update) ∈ locks)
    (hrow : (Row.invitation row.id, Mode.update) ∈ locks)
    (hissued : (x.standing row.principalId).IssuedSince row.id)
    (hfree : NoToken row.tokenHash x) : Keeps locks x (insertRow invitationTable row x) := by
  have hother : ∀ p, p = row.principalId
      ∨ (x.standing p).Shrinks ((insertRow invitationTable row x).standing p) := by
    refine fun p => (em (p = row.principalId)).imp_right fun hp =>
      ⟨rfl, fun i hi => ?_, subset_rfl, subset_rfl⟩
    refine (ids_insertRow hi).resolve_right fun ⟨_, howner⟩ => hp ?_
    exact (of_decide_eq_true (Bool.and_eq_true_iff.mp howner).1).symm
  have htokens : ∀ r ∈ (insertRow invitationTable row x).invitations.rows,
      r = row ∨ r ∈ x.invitations.rows := fun r hr => mem_insertRow invitationTable hr
  refine ⟨⟨fun p => ?_, ⟨?_, fun i hi => ?_, hx.books.once⟩,
    hx.ceremonies.mono (fun i row hrow hconsumed => ⟨row, hrow, hconsumed⟩) rfl rfl (.of_eq rfl)⟩,
    Guards.guarantee ⟨.of_eq rfl, fun p => ?_, fun i => ?_, fun _ => .inr rfl,
      fun _ => .inr rfl, fun hash => ?_⟩⟩
  · obtain rfl | hshrinks := hother p
    · refine (hx.sound _).pending hissued rfl (fun i hi => ?_) rfl rfl
      exact (ids_insertRow hi).elim .inr fun ⟨hid, _⟩ => .inl hid
    · exact (hx.sound p).shrinks hshrinks
  · obtain hsame | ⟨-, hrows⟩ := rows_insertRow invitationTable row x
    · exact (congrArg (List.map InvitationRow.tokenHash) hsame) ▸ hx.books.tokens
    · refine (congrArg (List.map InvitationRow.tokenHash) hrows) ▸
        List.nodup_cons.mpr ⟨fun hmem => ?_, hx.books.tokens⟩
      obtain ⟨other, hother, heq⟩ := List.mem_map.mp hmem
      exact hfree other hother heq
  · obtain ⟨accepted, haccepted, hdone⟩ := hx.books.accepted i hi
    exact ⟨accepted, get?_insertRow_of_some invitationTable row haccepted, hdone⟩
  · obtain rfl | hshrinks := hother p
    · exact .inl hprincipal
    · exact .inr hshrinks
  · obtain rfl | hi := em (row.id = i)
    · exact .inl hrow
    · exact .inr (get?_insertRow_of_ne invitationTable hi)
  · obtain rfl | hhash := em (row.tokenHash = hash)
    · exact .inl htoken
    · refine .inr fun hno r hr => ?_
      obtain rfl | hr := htokens r hr
      · exact hhash
      · exact hno r hr

/-- **A way in is opened** of an account that is trusted, and nothing else happens. -/
theorem keeps_opened (hx : LockoutInv x) (hlock : (Row.principal p, Mode.update) ∈ locks)
    (htrusted : (x.standing p).Trusted) (hjournal : y.journal = x.journal)
    (hinvitations : y.invitations = x.invitations) (hchallenges : y.challenges = x.challenges)
    (hceremonies : y.ceremonies = x.ceremonies) (hfinished : y.finished = x.finished)
    (hpasskeys : KeepsPasskeys x y)
    (hother : ∀ q, q ≠ p → (x.standing q).Shrinks (y.standing q)) : Keeps locks x y := by
  have hhistory : (y.standing p).history = (x.standing p).history := history_eq hjournal p
  have hpending : (y.standing p).pending = (x.standing p).pending :=
    congrArg (fun rows : Table Uuid InvitationRow InvitationRow.id =>
      { i | (rows.get? i).any (pendingInvitationOf p) = true }) hinvitations
  refine ⟨⟨fun q => ?_, hx.books.of_eq hinvitations ?_, hx.ceremonies.mono
    (fun i row hrow hconsumed => ⟨row, hchallenges ▸ hrow, hconsumed⟩) hceremonies hfinished
      hpasskeys⟩, Guards.guarantee ⟨hpasskeys, fun q => ?_, fun i => .inr ?_, fun i => .inr ?_,
        fun i => .inr ?_, fun hash => .inr ?_⟩⟩
  · obtain rfl | hq := em (q = p)
    · exact (hx.sound q).opened htrusted hhistory hpending
    · exact (hx.sound q).shrinks (hother q hq)
  · rw [StaffData.acceptances, hjournal, StaffData.acceptances]
  · obtain rfl | hq := em (q = p)
    · exact .inl hlock
    · exact .inr (hother q hq)
  · rw [hinvitations]
  · rw [hchallenges]
  · rw [hceremonies]
  · rw [NoToken, NoToken, hinvitations]
    exact fun hfree => hfree

/-- **A session** of an account that is trusted. -/
theorem keeps_session {row : SessionRow} (hx : LockoutInv x)
    (hlock : (Row.principal row.principalId, Mode.update) ∈ locks)
    (htrusted : (x.standing row.principalId).Trusted) :
    Keeps locks x (insertRow sessionTable row x) := by
  refine keeps_opened hx hlock htrusted rfl rfl rfl rfl rfl (.of_eq rfl) fun q hq =>
    ⟨rfl, subset_rfl, fun i hi => ?_, subset_rfl⟩
  refine (ids_insertRow hi).resolve_right fun ⟨_, howner⟩ => hq ?_
  exact (of_decide_eq_true (Bool.and_eq_true_iff.mp howner).1).symm

/-- **A passkey** of an account that is trusted. -/
theorem keeps_passkey {row : PasskeyRow} (hx : LockoutInv x)
    (hlock : (Row.principal row.principalId, Mode.update) ∈ locks)
    (htrusted : (x.standing row.principalId).Trusted) :
    Keeps locks x (insertRow passkeyTable row x) := by
  refine keeps_opened hx hlock htrusted rfl rfl rfl rfl rfl (fun i key hkey =>
    ⟨key, get?_insertRow_of_some passkeyTable row hkey, rfl⟩) fun q hq =>
    ⟨rfl, subset_rfl, subset_rfl, fun i hi => ?_⟩
  refine (ids_insertRow hi).resolve_right fun ⟨_, howner⟩ => hq ?_
  exact (of_decide_eq_true (Bool.and_eq_true_iff.mp howner).1).symm

/-! ## Ceremonies -/

/-- **What only changes challenges and ceremonies**, of rows that are locked. -/
theorem keeps_ceremonies (hx : LockoutInv x) (hjournal : y.journal = x.journal)
    (hinvitations : y.invitations = x.invitations) (hsessions : y.sessions = x.sessions)
    (hpasskeys : y.passkeys = x.passkeys) (hnext : CeremoniesInv y)
    (hchallenges : ∀ i, (Row.challenge i, Mode.update) ∈ locks
      ∨ y.challenges.get? i = x.challenges.get? i)
    (hceremonies : ∀ i, (Row.ceremony i, Mode.update) ∈ locks
      ∨ y.ceremonies.get? i = x.ceremonies.get? i) : Keeps locks x y := by
  have hsame : ∀ p, y.standing p = x.standing p :=
    standing_eq hjournal hinvitations hsessions hpasskeys
  refine ⟨⟨fun p => ?_, hx.books.of_eq hinvitations ?_, hnext⟩, Guards.guarantee
    ⟨.of_eq hpasskeys, fun p => .inr ?_, fun i => .inr ?_, hchallenges, hceremonies,
      fun hash => .inr ?_⟩⟩
  · rw [hsame p]
    exact hx.sound p
  · rw [StaffData.acceptances, hjournal, StaffData.acceptances]
  · rw [hsame p]
    exact .refl _
  · rw [hinvitations]
  · rw [NoToken, NoToken, hinvitations]
    exact fun hfree => hfree

/-- **A challenge is stored.** -/
theorem keeps_challenge {row : ChallengeRow} (hx : LockoutInv x)
    (hlock : (Row.challenge row.id, Mode.update) ∈ locks) :
    Keeps locks x (insertRow challengeTable row x) := by
  refine keeps_ceremonies hx rfl rfl rfl rfl (hx.ceremonies.mono (fun i found hfound hconsumed =>
    ⟨found, get?_insertRow_of_some challengeTable row hfound, hconsumed⟩) rfl rfl (.of_eq rfl))
    (fun i => ?_) fun _ => .inr rfl
  obtain rfl | hi := em (row.id = i)
  · exact .inl hlock
  · exact .inr (get?_insertRow_of_ne challengeTable hi)

/-- **Challenges are consumed.** -/
theorem keeps_consumed {still : ChallengeRow → Bool} {now : Instant} {ids : List Uuid}
    (hx : LockoutInv x) (hlocks : ∀ i ∈ ids, (Row.challenge i, Mode.update) ∈ locks) :
    Keeps locks x (changeRows challengeTable still (consumedChallenge now) (fun _ => rfl) ids x) := by
  refine keeps_ceremonies hx rfl rfl rfl rfl (hx.ceremonies.mono (fun i row hrow hconsumed => ?_)
    rfl rfl (.of_eq rfl)) (fun i => ?_) fun _ => .inr rfl
  · have hfound := get?_changeRows challengeTable still (consumedChallenge now) (fun _ => rfl) ids x i
    have hrow' : (challengeTable.get x).get? i = some row := hrow
    rw [hrow', Option.map_some] at hfound
    refine ⟨_, hfound, ?_⟩
    split
    · exact Option.some_ne_none now
    · exact hconsumed
  · by_cases hi : i ∈ ids
    · exact .inl (hlocks i hi)
    · exact .inr (get?_changeRows_of_notMem challengeTable (consumedChallenge now)
        (fun _ => rfl) hi)

/-- **A ceremony begins** on a challenge that no other has. -/
theorem keeps_ceremony {row : Ceremony} (hx : LockoutInv x)
    (hlock : (Row.ceremony row.id, Mode.update) ∈ locks) (hwitnessed : Witnessed x row)
    (hnew : ∀ c ∈ x.ceremonies.rows, c.challengeId ≠ row.challengeId) :
    Keeps locks x (insertRow ceremonyTable row x) := by
  refine keeps_ceremonies hx rfl rfl rfl rfl ⟨fun c hc => ?_, ?_, fun i hi => ?_,
    hx.ceremonies.finished⟩ (fun _ => .inr rfl) fun i => ?_
  · obtain rfl | hc := mem_insertRow ceremonyTable hc
    · exact ⟨hwitnessed.consumed, hwitnessed.passkey⟩
    · exact ⟨(hx.ceremonies.witnessed c hc).consumed, (hx.ceremonies.witnessed c hc).passkey⟩
  · obtain hsame | ⟨-, hrows⟩ := rows_insertRow ceremonyTable row x
    · exact (congrArg (List.map Ceremony.challengeId) hsame) ▸ hx.ceremonies.unique
    · refine (congrArg (List.map Ceremony.challengeId) hrows) ▸
        List.nodup_cons.mpr ⟨fun hmem => ?_, hx.ceremonies.unique⟩
      obtain ⟨other, hother, heq⟩ := List.mem_map.mp hmem
      exact hnew other hother heq
  · obtain ⟨c, hc, hid, htaken⟩ := hx.ceremonies.taken i hi
    refine ⟨c, ?_, hid, htaken⟩
    exact (Table.get?_eq_some.mp (get?_insertRow_of_some ceremonyTable row
      (Table.get?_eq_some.mpr ⟨hc, rfl⟩))).1
  · obtain rfl | hi := em (row.id = i)
    · exact .inl hlock
    · exact .inr (get?_insertRow_of_ne ceremonyTable hi)

/-- The ceremonies after one is taken up. -/
theorem mem_taken {i : Uuid} {c : Ceremony} (hc : c ∈ (changeRows ceremonyTable (fun _ => true)
      takenCeremony (fun _ => rfl) [i] x).ceremonies.rows) :
    ∃ before ∈ x.ceremonies.rows, c = before ∨ c = takenCeremony before := by
  obtain ⟨before, hbefore, rfl⟩ := (Table.mem_updateWhere (f := takenCeremony) fun _ => rfl).mp hc
  refine ⟨before, hbefore, ?_⟩
  split
  · exact .inr rfl
  · exact .inl rfl

/-- **A ceremony is taken up.** -/
theorem keeps_taken {i : Uuid} (hx : LockoutInv x) (hlock : (Row.ceremony i, Mode.update) ∈ locks) :
    Keeps locks x (changeRows ceremonyTable (fun _ => true) takenCeremony (fun _ => rfl) [i] x) := by
  refine keeps_ceremonies hx rfl rfl rfl rfl ⟨fun c hc => ?_, ?_, fun j hj => ?_,
    hx.ceremonies.finished⟩ (fun _ => .inr rfl) fun j => ?_
  · obtain ⟨before, hbefore, rfl | rfl⟩ := mem_taken hc
    · exact (hx.ceremonies.witnessed c hbefore).mono (fun row h hc => ⟨row, h, hc⟩) (.of_eq rfl) rfl
        rfl rfl
    · exact (hx.ceremonies.witnessed before hbefore).mono (fun row h hc => ⟨row, h, hc⟩) (.of_eq rfl)
        rfl rfl rfl
  · have hchallenges : (changeRows ceremonyTable (fun _ => true) takenCeremony (fun _ => rfl) [i]
        x).ceremonies.rows.map Ceremony.challengeId = x.ceremonies.rows.map Ceremony.challengeId :=
      map_changeRows ceremonyTable takenCeremony (fun _ => rfl) fun _ => rfl
    rw [hchallenges]
    exact hx.ceremonies.unique
  · obtain ⟨c, hc, hid, htaken⟩ := hx.ceremonies.taken j hj
    refine ⟨_, (Table.mem_updateWhere (f := takenCeremony) fun _ => rfl).mpr ⟨c, hc, rfl⟩, ?_⟩
    split
    · exact ⟨hid, rfl⟩
    · exact ⟨hid, htaken⟩
  · by_cases hj : j ∈ [i]
    · exact .inl (List.mem_singleton.mp hj ▸ hlock)
    · exact .inr (get?_changeRows_of_notMem ceremonyTable takenCeremony
        (fun _ => rfl) hj)

/-- **A ceremony succeeds** that was taken up, and of a challenge of which none did. -/
theorem keeps_finished {c : Ceremony} (hx : LockoutInv x) (hc : c ∈ x.ceremonies.rows)
    (htaken : c.taken = true) (hnew : c.challengeId ∉ x.finished) :
    Keeps locks x (finishCeremony c.challengeId x) := by
  refine keeps_ceremonies hx rfl rfl rfl rfl ⟨fun d hd => ?_, hx.ceremonies.unique, fun j hj => ?_,
    List.nodup_cons.mpr ⟨hnew, hx.ceremonies.finished⟩⟩ (fun _ => .inr rfl) fun _ => .inr rfl
  · exact (hx.ceremonies.witnessed d hd).mono (fun row h hc => ⟨row, h, hc⟩) (.of_eq rfl) rfl rfl rfl
  · obtain rfl | hj := List.mem_cons.mp hj
    · exact ⟨c, hc, rfl, htaken⟩
    · exact hx.ceremonies.taken j hj

end

end StaffAccess
