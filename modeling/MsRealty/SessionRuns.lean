import MsRealty.Sessions

/-!
# Chains of sessions

A chain is a session and those it was rotated into. In every run, whatever is
under way at the same time, the sessions of a chain end no later than its
first, at most one of them is live, a chain that was revoked stays revoked, and
the verification a session shows was really made in its chain.

What an event can do to the sessions is said once (`step_cases`): it issues a
session, rotates one, or only touches and revokes. A rotation finds its old row
not revoked, and that row is the latest of its chain (`Inv.latest`).
-/

namespace Sessions

open Runs

variable (sha256Hex : String → String) {s s' : State}

/-! ## What an event can do -/

/-- **A row only evolves**: its identity, its end and its verification stay,
and once revoked it stays revoked. -/
structure Evolves (row row' : SessionRow) : Prop where
  id : row'.id = row.id
  expiresAt : row'.expiresAt = row.expiresAt
  reverifiedAt : row'.reverifiedAt = row.reverifiedAt
  revoked : row'.revokedAt = none → row.revokedAt = none

theorem Evolves.refl (row : SessionRow) : Evolves row row := ⟨rfl, rfl, rfl, fun h => h⟩

theorem evolves_revokeRow (ids : List Uuid) (now : Instant) (row : SessionRow) :
    Evolves row (revokeRow ids now row) := by
  unfold revokeRow
  split_ifs with h
  · exact ⟨rfl, rfl, rfl, fun _ => h.2⟩
  · exact Evolves.refl row

theorem evolves_touchRow (id : Uuid) (now : Instant) (row : SessionRow) :
    Evolves row (touchRow id now row) := by
  unfold touchRow
  split_ifs
  · exact ⟨rfl, rfl, rfl, fun h => h⟩
  · exact Evolves.refl row

/-- The rows after an insert: the new one, whose id was free, and all there were. -/
theorem insertSession_spec {t t' : SessionTable} {row : SessionRow}
    (h : insertSession t row = some t') :
    (∀ r ∈ t.rows, r.id ≠ row.id) ∧ ∀ r, r ∈ t'.rows ↔ r = row ∨ r ∈ t.rows := by
  unfold insertSession at h
  split_ifs at h
  exact ⟨Table.get?_eq_none.mp (Table.get?_of_insert? h), Table.mem_insert? h⟩

/-- **The sessions are only touched and revoked**: nothing is issued. -/
structure Settles (s s' : State) : Prop where
  issued : s'.issued = s.issued
  rows : ∃ f : SessionRow → SessionRow, (∀ r, Evolves r (f r)) ∧
    s'.sessions.rows = s.sessions.rows.map f

/-- **A session was created**, and nothing else changed. -/
structure Creates (s s' : State) (row : SessionRow) (now : Instant) : Prop where
  issued : s'.issued = ⟨row.id, row.id, now, true⟩ :: s.issued
  fresh : ∀ r ∈ s.sessions.rows, r.id ≠ row.id
  rows : ∀ r, r ∈ s'.sessions.rows ↔ r = row ∨ r ∈ s.sessions.rows
  reverifiedAt : row.reverifiedAt = some now

/-- **A session was rotated**: the old one, which was not revoked, is, and the
new one takes over its end and, without a new verification, its last one. -/
structure Rotates (s s' : State) (old row : SessionRow) (now : Instant) (reverified : Bool) :
    Prop where
  issued : s'.issued = ⟨row.id, rootOf s.issued old.id, now, reverified⟩ :: s.issued
  fresh : ∀ r ∈ s.sessions.rows, r.id ≠ row.id
  old_mem : old ∈ s.sessions.rows
  old_live : old.revokedAt = none
  rows : ∀ r, r ∈ s'.sessions.rows ↔
    r = row ∨ ∃ r₀ ∈ s.sessions.rows, revokeRow [old.id] now r₀ = r
  expiresAt : row.expiresAt = old.expiresAt
  reverifiedAt : row.reverifiedAt = if reverified then some now else old.reverifiedAt

/-- A task knows what cannot change of the row it read. -/
def KnowsRows (s : State) : Prop :=
  ∀ task row now reverified, s.tasks task = some (.rotate row now reverified) →
    ∃ r ∈ s.sessions.rows, r.id = row.id ∧ r.expiresAt = row.expiresAt ∧
      r.reverifiedAt = row.reverifiedAt

theorem Settles.of_eq (hsessions : s'.sessions = s.sessions) (hissued : s'.issued = s.issued) :
    Settles s s' :=
  ⟨hissued, fun r => r, Evolves.refl, by rw [hsessions, List.map_id']⟩

theorem settles_revokeRows {ids : List Uuid} {now : Instant}
    (hsessions : s'.sessions = revokeRows s.sessions ids now) (hissued : s'.issued = s.issued) :
    Settles s s' :=
  ⟨hissued, revokeRow ids now, evolves_revokeRow ids now, by rw [hsessions]; rfl⟩

theorem createSession_cases (s : State) (account : AccountRef) (token : String) (id : Uuid)
    (now : Instant) :
    (createSession sha256Hex s account token id now).fst = s ∨
      ∃ row, Creates s (createSession sha256Hex s account token id now).fst row now := by
  unfold createSession
  dsimp only
  split
  · exact Or.inl rfl
  · next t hinsert =>
    obtain ⟨hfresh, hrows⟩ := insertSession_spec hinsert
    exact Or.inr ⟨_, rfl, hfresh, hrows, rfl⟩

theorem rotateSession_cases {old : SessionRow} (now : Instant) (reverified : Bool)
    (hknows : ∃ r ∈ s.sessions.rows, r.id = old.id ∧ r.expiresAt = old.expiresAt ∧
      r.reverifiedAt = old.reverifiedAt) (token : String) (id : Uuid) :
    (rotateSession sha256Hex s old now reverified token id).fst = s ∨
      ∃ r row, Rotates s (rotateSession sha256Hex s old now reverified token id).fst r row now
        reverified := by
  unfold rotateSession
  dsimp only
  by_cases hone : (s.sessions.rows.filter (fun r =>
      r.id = old.id ∧ r.revokedAt = none)).length = 1
  · rw [if_neg (not_not_intro hone)]
    split
    · exact Or.inl rfl
    · next t hinsert =>
      obtain ⟨r, hrows⟩ := List.length_eq_one_iff.mp hone
      have hr : r ∈ s.sessions.rows.filter (fun r => r.id = old.id ∧ r.revokedAt = none) := by
        rw [hrows]
        exact List.mem_singleton_self r
      obtain ⟨hmem, hlive⟩ := List.mem_filter.mp hr
      rw [decide_eq_true_eq] at hlive
      obtain ⟨r', hr', hid, hexpires, hreverified⟩ := hknows
      obtain rfl : r' = r := Table.eq_of_key hr' hmem (hid.trans hlive.1.symm)
      obtain ⟨hfresh, hinserted⟩ := insertSession_spec hinsert
      refine Or.inr ⟨r', newRow sha256Hex id token old.account now old.expiresAt
        (if reverified then some now else old.reverifiedAt), ?_, ?_, hmem, hlive.2, ?_,
        hexpires.symm, ?_⟩
      · rw [hid]
        rfl
      · intro q hq
        have hevolved := hfresh (revokeRow [old.id] now q) (List.mem_map_of_mem hq)
        rwa [revokeRow_id] at hevolved
      · intro q
        rw [hid]
        exact (hinserted q).trans (or_congr_right List.mem_map)
      · rw [hreverified]
        rfl
  · exact Or.inl (by rw [if_pos hone])

/-- **What an event can do to the sessions.** -/
theorem step_cases (hknows : KnowsRows s) (e : Event) :
    Settles s (step sha256Hex s e).fst ∨
      (∃ row now, Creates s (step sha256Hex s e).fst row now) ∨
      ∃ old row now reverified, Rotates s (step sha256Hex s e).fst old row now reverified := by
  cases e with
  | create account token id now =>
    obtain hsame | ⟨row, hcreates⟩ := createSession_cases sha256Hex s account token
      id now
    · exact Or.inl (Settles.of_eq (congrArg State.sessions hsame) (congrArg State.issued hsame))
    · exact Or.inr (Or.inl ⟨row, now, hcreates⟩)
  | beginRotate task token now reverified accounts =>
    refine Or.inl ?_
    simp only [step]
    split
    · split_ifs <;> exact Settles.of_eq rfl rfl
    · exact Settles.of_eq rfl rfl
  | finishRotate task token id =>
    simp only [step]
    split
    · next row now reverified htask =>
      have hrow := hknows task row now reverified htask
      obtain hsame | ⟨r, row', hrotates⟩ := rotateSession_cases sha256Hex (s := s.stop task) now
        reverified hrow token id
      · exact Or.inl (Settles.of_eq (by rw [hsame]; rfl) (by rw [hsame]; rfl))
      · refine Or.inr (Or.inr ⟨r, row', now, reverified, ?_⟩)
        exact ⟨hrotates.issued, hrotates.fresh, hrotates.old_mem, hrotates.old_live,
          hrotates.rows, hrotates.expiresAt, hrotates.reverifiedAt⟩
    · exact Or.inl (Settles.of_eq rfl rfl)
  | beginTouch task token now accounts =>
    refine Or.inl ?_
    simp only [step]
    split
    · split_ifs <;> exact Settles.of_eq rfl rfl
    · exact Settles.of_eq rfl rfl
  | finishTouch task =>
    refine Or.inl ?_
    simp only [step]
    split
    · next id now _ => exact ⟨rfl, touchRow id now, evolves_touchRow id now, rfl⟩
    · exact Settles.of_eq rfl rfl
  | revoke token now => exact Or.inl (settles_revokeRows rfl rfl)
  | beginRevokeAll task selection now => exact Or.inl (Settles.of_eq rfl rfl)
  | finishRevokeAll task =>
    refine Or.inl ?_
    simp only [step]
    split
    · exact settles_revokeRows rfl rfl
    · exact Settles.of_eq rfl rfl
  | abort task => exact Or.inl (Settles.of_eq rfl rfl)

theorem start_tasks (s : State) (k : ℕ) (t : Task) (task : ℕ) :
    (s.start k t).tasks task = if task = k then some t else s.tasks task :=
  Function.update_apply _ _ _ _

theorem stop_tasks (s : State) (k task : ℕ) :
    (s.stop k).tasks task = if task = k then none else s.tasks task :=
  Function.update_apply _ _ _ _

/-- A rotation under way is an old one, or has just read its row. -/
theorem step_tasks {e : Event} {task : ℕ} {row : SessionRow} {now : Instant} {reverified : Bool}
    (h : (step sha256Hex s e).fst.tasks task = some (.rotate row now reverified)) :
    s.tasks task = some (.rotate row now reverified) ∨ row ∈ s.sessions.rows := by
  have hstart : ∀ {k : ℕ} {t : Task}, (s.start k t).tasks task = some (.rotate row now reverified) →
      s.tasks task = some (.rotate row now reverified) ∨ t = .rotate row now reverified := by
    intro k t hk
    rw [start_tasks] at hk
    split_ifs at hk
    · exact Or.inr (Option.some.inj hk)
    · exact Or.inl hk
  have hstop : ∀ {k : ℕ}, (s.stop k).tasks task = some (.rotate row now reverified) →
      s.tasks task = some (.rotate row now reverified) := by
    intro k hk
    rw [stop_tasks] at hk
    split_ifs at hk
    exact hk
  have hlive : ∀ {token : String} {at' : Instant} {r : SessionRow},
      findLiveRow sha256Hex s.sessions token at' = some r → r ∈ s.sessions.rows := by
    intro token at' r hr
    exact List.mem_of_find?_eq_some (Option.filter_eq_some_iff.mp hr).1
  cases e with
  | create account token id at' =>
    simp only [step, createSession] at h
    split at h <;> exact Or.inl h
  | beginRotate k token at' rev accounts =>
    simp only [step] at h
    split at h
    · next r hr =>
      split_ifs at h
      · obtain hold | hnew := hstart h
        · exact Or.inl hold
        · obtain ⟨rfl, -, -⟩ := Task.rotate.inj hnew
          exact Or.inr (hlive hr)
      · exact Or.inl h
    · exact Or.inl h
  | finishRotate k token id =>
    simp only [step, rotateSession] at h
    split at h
    · split_ifs at h
      · exact Or.inl (hstop h)
      all_goals
        split at h
        · exact Or.inl (hstop h)
        · exact Or.inl (hstop h)
    · exact Or.inl h
  | beginTouch k token at' accounts =>
    simp only [step] at h
    split at h
    · split_ifs at h
      · obtain hold | hnew := hstart h
        · exact Or.inl hold
        · cases hnew
      · exact Or.inl h
    · exact Or.inl h
  | finishTouch k =>
    simp only [step] at h
    split at h
    · exact Or.inl (hstop h)
    · exact Or.inl h
  | revoke token at' => exact Or.inl h
  | beginRevokeAll k selection at' =>
    obtain hold | hnew := hstart h
    · exact Or.inl hold
    · cases hnew
  | finishRevokeAll k =>
    simp only [step] at h
    split at h
    · exact Or.inl (hstop h)
    · exact Or.inl h
  | abort k => exact Or.inl (hstop h)

/-! ## The invariant -/

/-- The verifications of a chain, the latest first. -/
def verifications (issued : List Issue) (root : Uuid) : List Issue :=
  issued.filter (fun i => i.root = root ∧ i.verified)

/-- **What holds of every reachable state.** -/
structure Inv (s : State) : Prop where
  knows : KnowsRows s
  /-- The first session of a chain is there, and its end is that of the chain. -/
  root : ∀ row ∈ s.sessions.rows, ∃ first ∈ s.sessions.rows,
    first.id = rootOf s.issued row.id ∧ rootOf s.issued first.id = first.id ∧
      row.expiresAt = first.expiresAt
  /-- A session that is not revoked is the latest of its chain. -/
  latest : ∀ row ∈ s.sessions.rows, row.revokedAt = none →
    (s.issued.find? (fun i => i.root = rootOf s.issued row.id)).map Issue.session = some row.id
  /-- A session shows a verification of its chain. -/
  verified : ∀ row ∈ s.sessions.rows, ∃ v ∈ verifications s.issued (rootOf s.issued row.id),
    row.reverifiedAt = some v.issuedAt
  /-- A session that is not revoked shows the last one. -/
  current : ∀ row ∈ s.sessions.rows, row.revokedAt = none →
    row.reverifiedAt = (verifications s.issued (rootOf s.issued row.id)).head?.map Issue.issuedAt

theorem inv_init : Inv State.init where
  knows _ _ _ _ h := nomatch h
  root _ h := nomatch h
  latest _ h := nomatch h
  verified _ h := nomatch h
  current _ h := nomatch h

theorem rootOf_cons (i : Issue) (issued : List Issue) (id : Uuid) :
    rootOf (i :: issued) id = if i.session = id then i.root else rootOf issued id := by
  unfold rootOf
  rw [List.find?_cons]
  by_cases h : i.session = id
  · rw [decide_eq_true h, if_pos h]
    rfl
  · rw [decide_eq_false h, if_neg h]

/-- **Rows persist**: each is still there, evolved. -/
def Persists (s s' : State) : Prop :=
  ∀ r ∈ s.sessions.rows, ∃ r' ∈ s'.sessions.rows, Evolves r r'

theorem Settles.persists (h : Settles s s') : Persists s s' := by
  obtain ⟨-, f, hf, hrows⟩ := h
  intro r hr
  refine ⟨f r, ?_, hf r⟩
  rw [hrows]
  exact List.mem_map_of_mem hr

theorem Creates.persists {row : SessionRow} {now : Instant} (h : Creates s s' row now) :
    Persists s s' :=
  fun r hr => ⟨r, (h.rows r).mpr (Or.inr hr), Evolves.refl r⟩

theorem Rotates.persists {old row : SessionRow} {now : Instant} {reverified : Bool}
    (h : Rotates s s' old row now reverified) : Persists s s' :=
  fun r hr => ⟨revokeRow [old.id] now r, (h.rows _).mpr (Or.inr ⟨r, hr, rfl⟩),
    evolves_revokeRow _ now r⟩

/-- **Every event keeps the rows.** -/
theorem persists_step (hknows : KnowsRows s) (e : Event) :
    Persists s (step sha256Hex s e).fst := by
  obtain h | ⟨row, now, h⟩ | ⟨old, row, now, reverified, h⟩ :=
    step_cases sha256Hex hknows e
  · exact h.persists
  · exact h.persists
  · exact h.persists

theorem knowsRows_step (hknows : KnowsRows s) (e : Event) :
    KnowsRows (step sha256Hex s e).fst := by
  intro task row now reverified htask
  have hbefore : ∃ r ∈ s.sessions.rows, r.id = row.id ∧ r.expiresAt = row.expiresAt ∧
      r.reverifiedAt = row.reverifiedAt := by
    obtain hold | hmem := step_tasks sha256Hex htask
    · exact hknows task row now reverified hold
    · exact ⟨row, hmem, rfl, rfl, rfl⟩
  obtain ⟨r, hr, hid, hexpires, hreverified⟩ := hbefore
  obtain ⟨r', hr', hevolves⟩ := persists_step sha256Hex hknows e r hr
  exact ⟨r', hr', hevolves.id.trans hid, hevolves.expiresAt.trans hexpires,
    hevolves.reverifiedAt.trans hreverified⟩

/-! ### One lemma for each kind of step -/

theorem Inv.settles (h : Inv s) (hsettles : Settles s s') (hknows : KnowsRows s') : Inv s' := by
  obtain ⟨hissued, f, hf, hrows⟩ := hsettles
  have hfrom : ∀ row ∈ s'.sessions.rows, ∃ r ∈ s.sessions.rows, f r = row := by
    intro row hrow
    rw [hrows] at hrow
    exact List.mem_map.mp hrow
  refine ⟨hknows, ?_, ?_, ?_, ?_⟩
  · intro row hrow
    obtain ⟨r, hr, rfl⟩ := hfrom row hrow
    obtain ⟨first, hfirst, hid, hroot, hexpires⟩ := h.root r hr
    refine ⟨f first, ?_, ?_, ?_, ?_⟩
    · rw [hrows]
      exact List.mem_map_of_mem hfirst
    · rw [(hf first).id, (hf r).id, hissued, hid]
    · rw [(hf first).id, hissued, hroot]
    · rw [(hf first).expiresAt, (hf r).expiresAt, hexpires]
  · intro row hrow hlive
    obtain ⟨r, hr, rfl⟩ := hfrom row hrow
    rw [hissued, (hf r).id]
    exact h.latest r hr ((hf r).revoked hlive)
  · intro row hrow
    obtain ⟨r, hr, rfl⟩ := hfrom row hrow
    rw [hissued, (hf r).id, (hf r).reverifiedAt]
    exact h.verified r hr
  · intro row hrow hlive
    obtain ⟨r, hr, rfl⟩ := hfrom row hrow
    rw [hissued, (hf r).id, (hf r).reverifiedAt]
    exact h.current r hr ((hf r).revoked hlive)

theorem Inv.creates {row : SessionRow} {now : Instant} (h : Inv s)
    (hcreates : Creates s s' row now) (hknows : KnowsRows s') : Inv s' := by
  obtain ⟨hissued, hfresh, hrows, hreverified⟩ := hcreates
  have hnew : rootOf s'.issued row.id = row.id := by
    rw [hissued, rootOf_cons, if_pos rfl]
  have hold : ∀ r ∈ s.sessions.rows, rootOf s'.issued r.id = rootOf s.issued r.id := by
    intro r hr
    rw [hissued, rootOf_cons, if_neg (hfresh r hr).symm]
  -- the chain of an old session does not start with the new one
  have hother : ∀ r ∈ s.sessions.rows, row.id ≠ rootOf s.issued r.id := by
    intro r hr
    obtain ⟨first, hfirst, hid, -, -⟩ := h.root r hr
    rw [← hid]
    exact (hfresh first hfirst).symm
  have hverifications : ∀ r ∈ s.sessions.rows, verifications s'.issued (rootOf s.issued r.id)
      = verifications s.issued (rootOf s.issued r.id) := by
    intro r hr
    rw [hissued, verifications, List.filter_cons_of_neg (by simp [hother r hr])]
    rfl
  have hhead : verifications s'.issued row.id
      = ⟨row.id, row.id, now, true⟩ :: verifications s.issued row.id := by
    rw [hissued, verifications, List.filter_cons_of_pos (by simp)]
    rfl
  refine ⟨hknows, ?_, ?_, ?_, ?_⟩
  · intro r hr
    obtain rfl | hr := (hrows r).mp hr
    · exact ⟨r, (hrows r).mpr (Or.inl rfl), hnew.symm, hnew, rfl⟩
    · obtain ⟨first, hfirst, hid, hroot, hexpires⟩ := h.root r hr
      exact ⟨first, (hrows first).mpr (Or.inr hfirst), hid.trans (hold r hr).symm,
        (hold first hfirst).trans hroot, hexpires⟩
  · intro r hr hlive
    obtain rfl | hr := (hrows r).mp hr
    · rw [hnew, hissued, List.find?_cons_of_pos (by simp)]
      rfl
    · rw [hold r hr, hissued, List.find?_cons_of_neg (by simp [hother r hr])]
      exact h.latest r hr hlive
  · intro r hr
    obtain rfl | hr := (hrows r).mp hr
    · rw [hnew, hhead]
      exact ⟨_, List.mem_cons_self, hreverified⟩
    · rw [hold r hr, hverifications r hr]
      exact h.verified r hr
  · intro r hr hlive
    obtain rfl | hr := (hrows r).mp hr
    · rw [hnew, hhead]
      exact hreverified
    · rw [hold r hr, hverifications r hr]
      exact h.current r hr hlive

theorem Inv.rotates {old row : SessionRow} {now : Instant} {reverified : Bool} (h : Inv s)
    (hrotates : Rotates s s' old row now reverified) (hknows : KnowsRows s') : Inv s' := by
  obtain ⟨hissued, hfresh, hmem, hlive, hrows, hexpires, hreverified⟩ := hrotates
  have hnew : rootOf s'.issued row.id = rootOf s.issued old.id := by
    rw [hissued, rootOf_cons, if_pos rfl]
  have hold : ∀ r ∈ s.sessions.rows, rootOf s'.issued r.id = rootOf s.issued r.id := by
    intro r hr
    rw [hissued, rootOf_cons, if_neg (hfresh r hr).symm]
  have hevolves := fun r => evolves_revokeRow [old.id] now r
  -- the old session was the only one of its chain that was not revoked, and now it is
  have hother : ∀ r ∈ s.sessions.rows, (revokeRow [old.id] now r).revokedAt = none →
      rootOf s.issued old.id ≠ rootOf s.issued r.id := by
    intro r hr hrevoked hsame
    have hlatest := h.latest r hr ((hevolves r).revoked hrevoked)
    rw [← hsame, h.latest old hmem hlive] at hlatest
    have hid := Option.some.inj hlatest
    rw [revokeRow, if_pos ⟨List.mem_singleton.mpr hid.symm, (hevolves r).revoked hrevoked⟩]
      at hrevoked
    cases hrevoked
  have hverifications : ∀ root, verifications s'.issued root
      = (if rootOf s.issued old.id = root ∧ reverified = true
          then [⟨row.id, rootOf s.issued old.id, now, reverified⟩] else [])
        ++ verifications s.issued root := by
    intro root
    rw [hissued, verifications, List.filter_cons]
    by_cases hpos : rootOf s.issued old.id = root ∧ reverified = true
    · rw [if_pos (by simpa using hpos), if_pos hpos]
      rfl
    · rw [if_neg (by simpa using hpos), if_neg hpos]
      rfl
  have hsub : ∀ root, ∀ v ∈ verifications s.issued root, v ∈ verifications s'.issued root := by
    intro root v hv
    rw [hverifications]
    exact List.mem_append_right _ hv
  have hcurrent : row.reverifiedAt
      = (verifications s'.issued (rootOf s.issued old.id)).head?.map Issue.issuedAt := by
    rw [hverifications, hreverified]
    cases reverified with
    | true => simp
    | false => simpa using h.current old hmem hlive
  refine ⟨hknows, ?_, ?_, ?_, ?_⟩
  · intro r hr
    obtain rfl | ⟨r₀, hr₀, rfl⟩ := (hrows r).mp hr
    · obtain ⟨first, hfirst, hid, hroot, hend⟩ := h.root old hmem
      refine ⟨revokeRow [old.id] now first, (hrows _).mpr (Or.inr ⟨first, hfirst, rfl⟩), ?_, ?_, ?_⟩
      · rw [(hevolves first).id, hnew, hid]
      · rw [(hevolves first).id, hold first hfirst, hroot]
      · rw [(hevolves first).expiresAt, hexpires, hend]
    · obtain ⟨first, hfirst, hid, hroot, hend⟩ := h.root r₀ hr₀
      refine ⟨revokeRow [old.id] now first, (hrows _).mpr (Or.inr ⟨first, hfirst, rfl⟩), ?_, ?_, ?_⟩
      · rw [(hevolves first).id, (hevolves r₀).id, hold r₀ hr₀, hid]
      · rw [(hevolves first).id, hold first hfirst, hroot]
      · rw [(hevolves first).expiresAt, (hevolves r₀).expiresAt, hend]
  · intro r hr hrevoked
    obtain rfl | ⟨r₀, hr₀, rfl⟩ := (hrows r).mp hr
    · rw [hnew, hissued, List.find?_cons_of_pos (by simp)]
      rfl
    · rw [(hevolves r₀).id, hold r₀ hr₀, hissued,
        List.find?_cons_of_neg (by simp [hother r₀ hr₀ hrevoked])]
      exact h.latest r₀ hr₀ ((hevolves r₀).revoked hrevoked)
  · intro r hr
    obtain rfl | ⟨r₀, hr₀, rfl⟩ := (hrows r).mp hr
    · rw [hnew, hverifications, hreverified]
      cases reverified with
      | true => exact ⟨⟨r.id, rootOf s.issued old.id, now, true⟩, by simp, rfl⟩
      | false => simpa using h.verified old hmem
    · obtain ⟨v, hv, hshown⟩ := h.verified r₀ hr₀
      rw [(hevolves r₀).id, hold r₀ hr₀, (hevolves r₀).reverifiedAt]
      exact ⟨v, hsub _ v hv, hshown⟩
  · intro r hr hrevoked
    obtain rfl | ⟨r₀, hr₀, rfl⟩ := (hrows r).mp hr
    · rw [hnew]
      exact hcurrent
    · rw [(hevolves r₀).id, hold r₀ hr₀, (hevolves r₀).reverifiedAt, hverifications,
        if_neg (fun hpos => hother r₀ hr₀ hrevoked hpos.1), List.nil_append]
      exact h.current r₀ hr₀ ((hevolves r₀).revoked hrevoked)

/-- **Every event keeps the invariant.** -/
theorem inv_step (h : Inv s) (e : Event) : Inv (step sha256Hex s e).fst := by
  have hknows := knowsRows_step sha256Hex h.knows e
  obtain hsettles | ⟨row, now, hcreates⟩ | ⟨old, row, now, reverified, hrotates⟩ :=
    step_cases sha256Hex h.knows e
  · exact h.settles hsettles hknows
  · exact h.creates hcreates hknows
  · exact h.rotates hrotates hknows

/-! ## Revoked chains -/

/-- **A chain is revoked**: it is there, and each of its sessions is revoked. -/
def Revoked (s : State) (root : Uuid) : Prop :=
  (∃ row ∈ s.sessions.rows, rootOf s.issued row.id = root) ∧
    ∀ row ∈ s.sessions.rows, rootOf s.issued row.id = root → row.revokedAt ≠ none

/-- **No event brings a revoked chain back.** -/
theorem Inv.revoked_step (h : Inv s) {root : Uuid} (hrevoked : Revoked s root) (e : Event) :
    Revoked (step sha256Hex s e).fst root := by
  obtain ⟨⟨member, hmember, hroot⟩, hall⟩ := hrevoked
  obtain ⟨hissued, f, hf, hrows⟩ | ⟨row, now, hcreates⟩ | ⟨old, row, now, reverified, hrotates⟩ :=
    step_cases sha256Hex h.knows e
  · refine ⟨⟨f member, ?_, ?_⟩, ?_⟩
    · rw [hrows]
      exact List.mem_map_of_mem hmember
    · rw [(hf member).id, hissued, hroot]
    · intro r hr hsame hlive
      rw [hrows] at hr
      obtain ⟨r₀, hr₀, rfl⟩ := List.mem_map.mp hr
      rw [(hf r₀).id, hissued] at hsame
      exact hall r₀ hr₀ hsame ((hf r₀).revoked hlive)
  · obtain ⟨first, hfirst, hid, -, -⟩ := h.root member hmember
    have hold : ∀ r ∈ s.sessions.rows,
        rootOf (step sha256Hex s e).fst.issued r.id = rootOf s.issued r.id := by
      intro r hr
      rw [hcreates.issued, rootOf_cons, if_neg (hcreates.fresh r hr).symm]
    refine ⟨⟨member, (hcreates.rows member).mpr (Or.inr hmember), ?_⟩, ?_⟩
    · rw [hold member hmember, hroot]
    · intro r hr hsame
      obtain rfl | hr := (hcreates.rows r).mp hr
      · rw [hcreates.issued, rootOf_cons, if_pos rfl] at hsame
        exact absurd (hid.trans (hroot.trans hsame.symm)) (hcreates.fresh first hfirst)
      · exact hall r hr ((hold r hr).symm.trans hsame)
  · have hold : ∀ r ∈ s.sessions.rows,
        rootOf (step sha256Hex s e).fst.issued r.id = rootOf s.issued r.id := by
      intro r hr
      rw [hrotates.issued, rootOf_cons, if_neg (hrotates.fresh r hr).symm]
    have hevolves := fun r => evolves_revokeRow [old.id] now r
    refine ⟨⟨revokeRow [old.id] now member,
      (hrotates.rows _).mpr (Or.inr ⟨member, hmember, rfl⟩), ?_⟩, ?_⟩
    · rw [(hevolves member).id, hold member hmember, hroot]
    · intro r hr hsame
      obtain rfl | ⟨r₀, hr₀, rfl⟩ := (hrotates.rows r).mp hr
      · rw [hrotates.issued, rootOf_cons, if_pos rfl] at hsame
        exact absurd hrotates.old_live (hall old hrotates.old_mem hsame)
      · rw [(hevolves r₀).id, hold r₀ hr₀] at hsame
        exact fun hlive => hall r₀ hr₀ hsame ((hevolves r₀).revoked hlive)

/-- **Revoking the session of a chain that is not revoked revokes the chain.** -/
theorem Inv.revoked_revokeRows (h : Inv s) {row : SessionRow} (hrow : row ∈ s.sessions.rows)
    (hlive : row.revokedAt = none) {ids : List Uuid} (hids : row.id ∈ ids) (now : Instant) :
    Revoked { s with sessions := revokeRows s.sessions ids now } (rootOf s.issued row.id) := by
  have hevolves := fun r => evolves_revokeRow ids now r
  refine ⟨⟨revokeRow ids now row, List.mem_map_of_mem hrow, ?_⟩, ?_⟩
  · show rootOf s.issued (revokeRow ids now row).id = _
    rw [(hevolves row).id]
  · intro r hr hsame hrevoked
    obtain ⟨r₀, hr₀, rfl⟩ := List.mem_map.mp hr
    have hsame' : rootOf s.issued r₀.id = rootOf s.issued row.id := by
      rw [← (hevolves r₀).id]
      exact hsame
    have hlatest := h.latest r₀ hr₀ ((hevolves r₀).revoked hrevoked)
    rw [hsame', h.latest row hrow hlive] at hlatest
    have hid := Option.some.inj hlatest
    rw [revokeRow, if_pos ⟨hid ▸ hids, (hevolves r₀).revoked hrevoked⟩] at hrevoked
    cases hrevoked

/-! ## Every run -/

/-- **What a chain promises** in a state. -/
structure ChainLaws (s : State) : Prop where
  /-- No session ends after the first of its chain. -/
  expiry : ∀ row ∈ s.sessions.rows, ∃ first ∈ s.sessions.rows,
    first.id = rootOf s.issued row.id ∧ rootOf s.issued first.id = first.id ∧
      row.expiresAt ≤ first.expiresAt
  /-- At most one session of a chain is live, whatever the clocks say. -/
  oneLive : ∀ row ∈ s.sessions.rows, ∀ row' ∈ s.sessions.rows,
    rootOf s.issued row.id = rootOf s.issued row'.id →
    ∀ now now', row.Live now → row'.Live now' → row = row'
  /-- The verification a session shows was made in its chain. -/
  verified : ∀ row ∈ s.sessions.rows, ∃ v ∈ s.issued, v.root = rootOf s.issued row.id ∧
    v.verified = true ∧ row.reverifiedAt = some v.issuedAt

theorem Inv.chainLaws (h : Inv s) : ChainLaws s where
  expiry row hrow := by
    obtain ⟨first, hfirst, hid, hroot, hexpires⟩ := h.root row hrow
    exact ⟨first, hfirst, hid, hroot, Int.le_of_eq hexpires⟩
  oneLive row hrow row' hrow' hsame now now' hlive hlive' := by
    have hlatest := h.latest row hrow hlive.1
    rw [hsame, h.latest row' hrow' hlive'.1] at hlatest
    exact Table.eq_of_key hrow hrow' (Option.some.inj hlatest).symm
  verified row hrow := by
    obtain ⟨v, hv, hshown⟩ := h.verified row hrow
    obtain ⟨hmem, hverified⟩ := List.mem_filter.mp hv
    rw [decide_eq_true_eq] at hverified
    exact ⟨v, hmem, hverified.1, hverified.2, hshown⟩

theorem keeps_inv : Keeps (step sha256Hex) (fun _ => True) Inv :=
  fun _ e _ h => inv_step sha256Hex h e

/-- **The chains of sessions, in every run.** After any sequence of events –
creations, rotations, touches and revocations, with any overlap and at any
instants – every chain keeps its laws; and once a chain is revoked, no later
event makes a session of it live again. -/
theorem chains_of_run (es : List Event) :
    ChainLaws (final (step sha256Hex) State.init es) ∧
      ∀ root, Revoked (final (step sha256Hex) State.init es) root →
        ∀ (es' : List Event),
          ∀ row ∈ (final (step sha256Hex) (final (step sha256Hex) State.init es)
              es').sessions.rows,
            rootOf (final (step sha256Hex) (final (step sha256Hex) State.init es) es').issued
                row.id = root →
            ∀ now, ¬ row.Live now := by
  have hinv : Inv (final (step sha256Hex) State.init es) :=
    final_invariant (keeps_inv sha256Hex) (fun _ _ => trivial) inv_init
  refine ⟨hinv.chainLaws, fun root hrevoked es' row hrow hroot now hlive => ?_⟩
  have hkeeps : Keeps (step sha256Hex) (fun _ => True) (fun s => Inv s ∧ Revoked s root) :=
    fun _ e _ h => ⟨inv_step sha256Hex h.1 e, h.1.revoked_step sha256Hex h.2 e⟩
  have hlater := final_invariant hkeeps (fun _ (_ : _ ∈ es') => trivial) ⟨hinv, hrevoked⟩
  exact hlater.2.2 row hrow hroot hlive.1

/-- **Signing out is final.** Once the session of a chain that is not revoked is
signed out, whatever was under way and whatever comes later, no session of the
chain is live. -/
theorem signOut_final (es es' : List Event) {row : SessionRow} {token : String}
    (hrow : row ∈ (final (step sha256Hex) State.init es).sessions.rows)
    (hlive : row.revokedAt = none) (htoken : row.tokenHash = sha256Hex token) (now : Instant)
    {row' : SessionRow}
    (hrow' : row' ∈ (final (step sha256Hex) State.init
      (es ++ .revoke token now :: es')).sessions.rows)
    (hroot : rootOf (final (step sha256Hex) State.init (es ++ .revoke token now :: es')).issued
      row'.id = rootOf (final (step sha256Hex) State.init es).issued row.id) (now' : Instant) :
    ¬ row'.Live now' := by
  have hinv : Inv (final (step sha256Hex) State.init es) :=
    final_invariant (keeps_inv sha256Hex) (fun _ _ => trivial) inv_init
  have hids : row.id ∈ ((final (step sha256Hex) State.init es).sessions.rows.filter
      (fun r => r.tokenHash = sha256Hex token)).map SessionRow.id :=
    List.mem_map_of_mem (List.mem_filter.mpr ⟨hrow, decide_eq_true htoken⟩)
  have hkeeps : Keeps (step sha256Hex) (fun _ => True) (fun s => Inv s ∧
      Revoked s (rootOf (final (step sha256Hex) State.init es).issued row.id)) :=
    fun _ e _ h => ⟨inv_step sha256Hex h.1 e, h.1.revoked_step sha256Hex h.2 e⟩
  rw [final_append, final_cons] at hrow' hroot
  have hlater := final_invariant hkeeps (fun _ (_ : _ ∈ es') => trivial)
    ⟨inv_step sha256Hex hinv (.revoke token now), hinv.revoked_revokeRows hrow hlive hids now⟩
  exact fun h => hlater.2.2 row' hrow' hroot h.1

/-- A client whose account is active. -/
def sampleAccounts : Accounts := ⟨⟨[⟨"p", .client, "party", .active⟩], [], [], [], []⟩, []⟩

/-- **A sign-out between the two halves of a rotation wins.** -/
theorem signOut_final_rotation :
    ¬ SessionRow.Live ⟨"a", "t", .client, "p", 0, 7 * day, 0, some 0, some 2000⟩ 3000 :=
  @signOut_final (fun token => token)
    [.create ⟨.client, "p"⟩ "t" "a" 0, .beginRotate 0 "t" 1000 true sampleAccounts]
    [.finishRotate 0 "u" "b"] ⟨"a", "t", .client, "p", 0, 7 * day, 0, some 0, none⟩ "t"
    (by decide +kernel) rfl rfl 2000 _ (by decide +kernel) (by decide +kernel) 3000

end Sessions
