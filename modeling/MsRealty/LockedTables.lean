import Mathlib.Data.List.Chain
import MsRealty.RowLocks
import MsRealty.Table

/-!
# Tables with row locks, and commits as moves

The data of transactions is often several tables, each row of which is locked by its
key. The module has the statements such transactions are made of – lock a row and read
it, change it, insert one – and their rules. What a transaction learns under its locks
it knows to the end, of whatever is committed by then (`Known`).

A commit then needs no look at the statements before it: it is a *move* of an abstract
machine, from the data committed so far to the data it leaves (`MayMove`). If every
transaction ends in moves, every commit of every interleaving is one
(`move_of_commit`), and what the moves keep holds of whatever is reached
(`holds_of_moves`).
-/

namespace RowLocks

variable {D K α β κ ρ : Type} {key : ρ → κ}

/-! ## Tables -/

section

variable {t : Table κ ρ key} {p q : ρ → Bool} {f : ρ → ρ}

/-- An update of no row. -/
theorem updateWhere_eq_self {hf : ∀ row, key (f row) = key row} (h : ∀ row, p row = false) :
    t.updateWhere p f hf = t := by
  obtain ⟨rows, unique⟩ := t
  simp only [Table.updateWhere, Table.update, Table.mk.injEq]
  rw [List.map_congr_left fun row _ => if_neg (Bool.eq_false_iff.mp (h row)), List.map_id']

/-- **One update after another**, of the same kind. -/
theorem updateWhere_updateWhere {hf : ∀ row, key (f row) = key row}
    (hp : ∀ row, p (f row) = p row) (hidem : ∀ row, f (f row) = f row) :
    (t.updateWhere q f hf).updateWhere p f hf = t.updateWhere (fun row => q row || p row) f hf := by
  obtain ⟨rows, unique⟩ := t
  simp only [Table.updateWhere, Table.update, Table.mk.injEq, List.map_map]
  refine List.map_congr_left fun row _ => ?_
  rw [Function.comp_apply]
  by_cases hq : q row = true
  · simp only [hq, hp, hidem, ite_self, Bool.true_or, if_true]
  · simp only [hq, Bool.false_or, Bool.false_eq_true, if_false]

end

/-- **A change of a row**, which leaves its key alone. -/
structure Change (key : ρ → κ) where
  apply : ρ → ρ
  key_apply : ∀ row, key (apply row) = key row

/-- **A table of the data**: how it is read and replaced, and what locks its rows. -/
structure TableIn (D K : Type) (key : ρ → κ) where
  get : D → Table κ ρ key
  set : Table κ ρ key → D → D
  get_set : ∀ rows d, get (set rows d) = rows
  lock : κ → K

namespace TableIn

variable (table : TableIn D K key)

/-- The rows. -/
def rows (d : D) : List ρ := (table.get d).rows

/-- Changes the rows that satisfy a condition. -/
def changeWhere (p : ρ → Bool) (change : Change key) (d : D) : D :=
  table.set ((table.get d).updateWhere p change.apply change.key_apply) d

variable [DecidableEq κ]

/-- The row of a key. -/
def find (d : D) (k : κ) : Option ρ := (table.get d).get? k

/-- Changes the row of a key. -/
def change (k : κ) (change : Change key) : D → D :=
  table.changeWhere (fun row => decide (key row = k)) change

/-- Inserts a row, whose key is free. -/
def insert (row : ρ) (d : D) : D := table.set ((table.get d).put row) d

variable {table} {d : D} {k k' : κ} {row : ρ}

theorem find_eq_some : table.find d k = some row ↔ row ∈ table.rows d ∧ key row = k :=
  Table.get?_eq_some

theorem find_of_mem (h : row ∈ table.rows d) : table.find d (key row) = some row :=
  find_eq_some.mpr ⟨h, rfl⟩

theorem find_changeWhere (p : ρ → Bool) (change : Change key) (d : D) (k : κ) :
    table.find (table.changeWhere p change d) k
      = (table.find d k).map (fun row => if p row = true then change.apply row else row) := by
  rw [find, changeWhere, table.get_set]
  exact Table.get?_updateWhere _ change.key_apply k

/-- What is found after a change. -/
theorem find_change (change : Change key) (d : D) (k k' : κ) :
    table.find (table.change k change d) k'
      = (table.find d k').map (fun row => if key row = k then change.apply row else row) := by
  rw [TableIn.change, find_changeWhere]
  simp only [decide_eq_true_eq]

@[simp] theorem find_change_self (change : Change key) (h : table.find d k = some row) :
    table.find (table.change k change d) k = some (change.apply row) := by
  rw [find_change, h, Option.map_some, if_pos (find_eq_some.mp h).2]

/-- A change leaves the other rows. -/
theorem find_change_of_ne (change : Change key) (d : D) (h : k' ≠ k) :
    table.find (table.change k change d) k' = table.find d k' := by
  rw [find_change]
  cases hfind : table.find d k' with
  | none => rfl
  | some row =>
    rw [Option.map_some, if_neg fun heq => h ((find_eq_some.mp hfind).2.symm.trans heq)]

/-- **What is found after an insertion.** -/
theorem find_insert (row : ρ) (d : D) (k : κ) :
    table.find (table.insert row d) k = if key row = k then some row else table.find d k := by
  rw [find, insert, table.get_set]
  exact Table.get?_put _ row k

@[simp] theorem find_insert_self (row : ρ) (d : D) :
    table.find (table.insert row d) (key row) = some row := by
  rw [find_insert, if_pos rfl]

/-- An insertion leaves what is found, if its key is free. -/
theorem find_insert_of_some {new : ρ} (hfree : table.find d (key new) = none)
    (h : table.find d k = some row) : table.find (table.insert new d) k = some row := by
  rw [find_insert, if_neg, h]
  rintro rfl
  exact absurd (hfree.symm.trans h) (by simp)

/-! ### What is kept -/

variable (table) in
/-- **What a change of the data keeps of a table**: every row is there still, and a part
of it is as before. -/
def Kept {γ : Type} (part : ρ → γ) (d d' : D) : Prop :=
  ∀ k row, table.find d k = some row → ∃ row', table.find d' k = some row' ∧ part row' = part row

section

variable {γ : Type} {part : ρ → γ} {d₁ d₂ d₃ : D}

theorem Kept.refl (d : D) : table.Kept part d d := fun _ row h => ⟨row, h, rfl⟩

theorem Kept.trans (h : table.Kept part d₁ d₂) (h' : table.Kept part d₂ d₃) :
    table.Kept part d₁ d₃ := by
  intro k row hrow
  obtain ⟨row', hrow', hpart⟩ := h k row hrow
  obtain ⟨row'', hrow'', hpart'⟩ := h' k row' hrow'
  exact ⟨row'', hrow'', hpart'.trans hpart⟩

/-- A change of another table. -/
theorem Kept.of_find (h : ∀ k, table.find d₂ k = table.find d₁ k) : table.Kept part d₁ d₂ :=
  fun k row hrow => ⟨row, (h k).trans hrow, rfl⟩

theorem kept_changeWhere (p : ρ → Bool) {change : Change key}
    (hpart : ∀ row, part (change.apply row) = part row) (d : D) :
    table.Kept part d (table.changeWhere p change d) := by
  intro k row hrow
  refine ⟨_, by rw [find_changeWhere, hrow, Option.map_some], ?_⟩
  split_ifs
  · exact hpart row
  · rfl

theorem kept_change (k : κ) {change : Change key}
    (hpart : ∀ row, part (change.apply row) = part row) (d : D) :
    table.Kept part d (table.change k change d) :=
  kept_changeWhere _ hpart d

theorem kept_insert {new : ρ} (hfree : table.find d (key new) = none) :
    table.Kept part d (table.insert new d) :=
  fun _ row hrow => ⟨row, find_insert_of_some hfree hrow, rfl⟩

end

end TableIn

/-! ## Statements -/

section

variable [DecidableEq κ] (table : TableIn D K key)

/-- `select … for update`, of the row of a key. -/
def lockRow (k : κ) : Transaction D K ρ := do
  let d ← locking (table.lock k) .update
  Prog.required (table.find d k)

/-- Reads the row of a key. -/
def readRow (k : κ) : Transaction D K ρ := do
  let d ← reading
  Prog.required (table.find d k)

/-- `update`, of the row of a key. -/
def updateRow (k : κ) (change : Change key) : Transaction D K Unit := do
  let _ ← locking (table.lock k) .update
  writing (table.change k change)

/-- `update … where`: the rows that satisfy a condition are locked, and those that
still satisfy it are changed. -/
def updateRows (still : ρ → Bool) (change : Change key) : Transaction D K (List κ) :=
  updating (fun d => ((table.rows d).filter still).map key) table.lock
    (fun d k => (table.find d k).any still)
    (fun ks => table.changeWhere (fun row => decide (key row ∈ ks)) change)

/-- `insert`: no other row has the key. -/
def insertRow (row : ρ) : Transaction D K Unit := do
  let d ← locking (table.lock (key row)) .update
  Prog.demand ((table.find d (key row)).isNone = true)
  writing (table.insert row)

end

/-! ## What is known -/

variable {R : Discipline D K} {Inv : D → Prop} {locks locks' : Locks K} {d d' : D}
  {writes : D → D} {F G : D → Prop}

variable (R Inv) in
/-- **What a transaction knows**: it holds of whatever is committed while it holds its
locks. -/
def Known (F : D → Prop) (locks : Locks K) (d : D) : Prop :=
  ∀ d', R.Rely locks d d' → Inv d' → F d'

/-- At first nothing is known. -/
theorem Known.start (locks : Locks K) (d : D) : Known R Inv (fun _ => True) locks d :=
  fun _ _ _ => trivial

/-- It is known still when more is locked, and others have committed. -/
theorem Known.mono (h : Known R Inv F locks d) (hlocks : ∀ l ∈ locks, l ∈ locks')
    (hrely : R.Rely locks d d') : Known R Inv F locks' d' :=
  fun d'' hrely' hinv => h d'' (rely_trans hrely (rely_mono hrely' hlocks)) hinv

/-- It is known still when others have committed. -/
theorem Known.rely (h : Known R Inv F locks d) (hrely : R.Rely locks d d') :
    Known R Inv F locks d' :=
  h.mono (fun _ hl => hl) hrely

/-- **A fact that is learnt**: what others commit keeps it. -/
theorem Known.learn (h : Known R Inv F locks d) (hG : G d)
    (hkeeps : ∀ d', R.Rely locks d d' → Inv d' → F d' → G d → G d') :
    Known R Inv (fun x => F x ∧ G x) locks d :=
  fun d' hrely hinv => ⟨h d' hrely hinv, hkeeps d' hrely hinv (h d' hrely hinv) hG⟩

section

variable [DecidableEq κ] {table : TableIn D K key} {k : κ} {row : ρ}
  {P : β → (D → D) → Locks K → D → Prop}

variable (R) in
/-- **A lock keeps its row.** -/
def LocksRows (table : TableIn D K key) : Prop :=
  ∀ k mode a b, R.Keeps (table.lock k) mode a b → table.find b k = table.find a k

/-- A row that is locked stays. -/
theorem LocksRows.find (h : LocksRows R table) {mode : Mode} (hlock : (table.lock k, mode) ∈ locks)
    (hrely : R.Rely locks d d') : table.find d' k = table.find d k :=
  h k mode d d' (hrely.2 _ hlock)

/-- **The rule of a row that is locked and read.** -/
theorem Safe.lockRow {f : ρ → Transaction D K β} (htable : LocksRows R table)
    (hknown : Known R Inv F locks d) (hsame : ∀ x, table.find (writes x) k = table.find x k)
    (h : ∀ row d', R.Rely locks d d' → Inv d' → table.find d' k = some row →
      Known R Inv (fun x => F x ∧ table.find x k = some row) ((table.lock k, .update) :: locks)
        d' → Safe R Inv P (f row) writes ((table.lock k, .update) :: locks) d') :
    Safe R Inv P (RowLocks.lockRow table k >>= f) writes locks d := by
  unfold RowLocks.lockRow
  rw [Prog.bind_assoc]
  refine Safe.locking fun d' hrely hinv => Safe.required fun row hrow => ?_
  rw [hsame] at hrow
  refine h row d' hrely hinv hrow ?_
  refine (hknown.mono (fun l hl => List.mem_cons_of_mem _ hl) hrely).learn hrow ?_
  exact fun d'' hrely' _ _ hfound => (htable.find List.mem_cons_self hrely').trans hfound

/-- The rule of a row that is read. -/
theorem Safe.readRow {f : ρ → Transaction D K β} (hknown : Known R Inv F locks d)
    (h : ∀ row d', R.Rely locks d d' → Inv d' → table.find (writes d') k = some row →
      Known R Inv F locks d' → Safe R Inv P (f row) writes locks d') :
    Safe R Inv P (RowLocks.readRow table k >>= f) writes locks d := by
  unfold RowLocks.readRow
  rw [Prog.bind_assoc]
  refine Safe.reading fun d' hrely hinv => Safe.required fun row hrow => ?_
  exact h row d' hrely hinv hrow (hknown.rely hrely)

/-- The rule of a row that is changed. -/
theorem Safe.updateRow {change : Change key} {f : Unit → Transaction D K β}
    (hknown : Known R Inv F locks d)
    (h : ∀ d', R.Rely locks d d' → Inv d' → Known R Inv F ((table.lock k, .update) :: locks) d' →
      Safe R Inv P (f ()) (table.change k change ∘ writes) ((table.lock k, .update) :: locks) d') :
    Safe R Inv P (RowLocks.updateRow table k change >>= f) writes locks d := by
  unfold RowLocks.updateRow
  rw [Prog.bind_assoc]
  refine Safe.locking fun d' hrely hinv => Safe.writing (h d' hrely hinv ?_)
  exact hknown.mono (fun l hl => List.mem_cons_of_mem _ hl) hrely

/-- **The rule of an insertion**: the key stays free. -/
theorem Safe.insertRow {f : Unit → Transaction D K β} (htable : LocksRows R table)
    (hknown : Known R Inv F locks d)
    (hsame : ∀ x, table.find (writes x) (key row) = table.find x (key row))
    (h : ∀ d', R.Rely locks d d' → Inv d' →
      Known R Inv (fun x => F x ∧ table.find x (key row) = none)
        ((table.lock (key row), .update) :: locks) d' →
      Safe R Inv P (f ()) (table.insert row ∘ writes) ((table.lock (key row), .update) :: locks)
        d') :
    Safe R Inv P (RowLocks.insertRow table row >>= f) writes locks d := by
  unfold RowLocks.insertRow
  rw [Prog.bind_assoc]
  refine Safe.locking fun d' hrely hinv => ?_
  rw [Prog.bind_assoc]
  refine Safe.demand fun hfree => Safe.writing (h d' hrely hinv ?_)
  rw [hsame] at hfree
  refine (hknown.mono (fun l hl => List.mem_cons_of_mem _ hl) hrely).learn
    (Option.isNone_iff_eq_none.mp hfree) ?_
  exact fun d'' hrely' _ _ hfound => (htable.find List.mem_cons_self hrely').trans hfound

/-- **The rule of an update of the rows that satisfy a condition**: they are locked; each
of them satisfied it when it was, and so does every other row, if the condition stays so. -/
theorem Safe.updateRows {still : ρ → Bool} {change : Change key} {f : List κ → Transaction D K β}
    (hknown : Known R Inv F locks d)
    (h : ∀ ks locks' d', (∀ l ∈ locks, l ∈ locks') → R.Rely locks d d' → Inv d' →
      (∀ k ∈ ks, (table.lock k, Mode.update) ∈ locks') →
      (∀ k ∈ ks, ∃ d₁ row, Inv d₁ ∧ R.Every d₁ d' ∧ table.find (writes d₁) k = some row
        ∧ still row = true) →
      (StillBefore R Inv (fun x k => (table.find x k).any still) writes locks d →
        ∀ k row, table.find (writes d') k = some row → still row = true → k ∈ ks) →
      Known R Inv F locks' d' →
      Safe R Inv P (f ks) (table.changeWhere (fun row => decide (key row ∈ ks)) change ∘ writes)
        locks' d') :
    Safe R Inv P (RowLocks.updateRows table still change >>= f) writes locks d := by
  unfold RowLocks.updateRows
  refine Safe.updating (fun x k hany => ?_) fun ks locks' d' hsub hrely hinv hheld hfound hall => ?_
  · obtain ⟨row, hrow, hp⟩ := (Option.any_eq_true _ _).mp hany
    obtain ⟨hmem, rfl⟩ := TableIn.find_eq_some.mp hrow
    exact List.mem_map_of_mem (List.mem_filter.mpr ⟨hmem, hp⟩)
  · refine h ks locks' d' hsub hrely hinv hheld (fun k hk => ?_) (fun hstill k row hrow hp => ?_)
      (hknown.mono hsub hrely)
    · obtain ⟨d₁, hinv₁, hrely₁, hany⟩ := hfound k hk
      obtain ⟨row, hrow, hp⟩ := (Option.any_eq_true _ _).mp hany
      exact ⟨d₁, row, hinv₁, hrely₁.1, hrow, hp⟩
    · refine hall hstill k ?_
      rw [hrow]
      exact hp

end

/-! ## Moves -/

variable {M : α → D → D → Prop} {C : α → D → Prop} {a : α} {starts : Transaction D K α → Prop}
  {w w' : World D K α}

variable (R Inv M) in
/-- **A transaction may be committed as a move**: whatever is committed before. -/
def MayMove (a : α) (writes : D → D) (locks : Locks K) (d : D) : Prop :=
  ∀ d', R.Rely locks d d' → Inv d' →
    (Inv (writes d') ∧ R.Guarantee locks d' (writes d')) ∧ M a d' (writes d')

/-- **A commit of a world**, and what it ends with. -/
inductive Commit (w : World D K α) (a : α) : World D K α → Prop
  | mk {i : ℕ} {s : Session D K α} (hs : w.sessions[i]? = some s)
    (hprogram : s.program = .done a) :
    Commit w a { w.put i Session.ended with data := s.writes w.data }

/-- A step leaves what is committed, or is a commit. -/
theorem data_or_commit (h : Step starts w w') : w'.data = w.data ∨ ∃ a, Commit w a w' := by
  cases h with
  | commit hs hprogram => exact .inr ⟨_, .mk hs hprogram⟩
  | _ => exact .inl rfl

theorem Commit.step (starts : Transaction D K α → Prop) (h : Commit w a w') :
    Step starts w w' := by
  obtain ⟨hs, hprogram⟩ := h
  exact .commit hs hprogram

/-- What a session is about to commit with. -/
def World.answer (w : World D K α) (i : ℕ) : Option α :=
  match w.sessions[i]? with
  | none => none
  | some s =>
    match s.program with
    | .done a => some a
    | _ => none

/-- **A session that is about to commit** commits when it goes on. -/
theorem commit_of_answer [DecidableEq K] {i : ℕ} (h : w.answer i = some a) :
    Commit w a (w.advance i) := by
  unfold World.answer at h
  unfold World.advance
  cases hs : w.sessions[i]? with
  | none =>
    rw [hs] at h
    cases h
  | some s =>
    rw [hs] at h
    cases hprogram : s.program with
    | done b =>
      simp only [hprogram, Option.some.injEq] at h
      subst h
      simp only [hprogram]
      exact .mk hs hprogram
    | _ =>
      simp only [hprogram] at h
      cases h

/-- A run under a condition is one without. -/
theorem ReachableIf.reachable (h : ReachableIf starts C d w) : Reachable starts d w := by
  induction h with
  | refl => exact .refl
  | tail _ hstep ih =>
    cases hstep with
    | quiet hstep _ => exact ih.tail hstep
    | commit hs hprogram _ => exact ih.tail (.commit hs hprogram)

/-- A run without a condition is one under the condition that always holds. -/
theorem Reachable.reachableIf (h : Reachable starts d w) :
    ReachableIf starts (fun _ _ => True) d w := by
  induction h with
  | refl => exact .refl
  | tail _ hstep ih => exact ih.tail (.of_step hstep)

section

variable (hstarts : ∀ p, starts p → ∀ d, Inv d → Safe R Inv (MayMove R Inv M) p id [] d)

include hstarts

/-- **Every reachable world is good**: its sessions end in moves. -/
theorem goodAs_of_reachable (hinv : Inv d) (h : Reachable starts d w) :
    GoodAs R Inv (MayMove R Inv M) w := by
  induction h with
  | refl => exact .init hinv
  | @tail w w' _ hstep ih =>
    refine ih.step (fun a writes locks d d' hmay hrely d'' hrely' hinv' =>
      hmay d'' (rely_trans hrely hrely') hinv') hstarts hstep fun i s a hs hprogram _ => ?_
    have hsafe := ih.session hs
    rw [hprogram] at hsafe
    exact (hsafe w.data (rely_refl _ _) ih.inv).1

/-- **Every commit is a move**, in every interleaving. -/
theorem move_of_commit (hinv : Inv d) (h : Reachable starts d w) (hcommit : Commit w a w') :
    Inv w.data ∧ M a w.data w'.data := by
  have hgood := goodAs_of_reachable hstarts hinv h
  obtain ⟨hs, hprogram⟩ := hcommit
  have hsafe := hgood.session hs
  rw [hprogram] at hsafe
  exact ⟨hgood.inv, (hsafe w.data (rely_refl _ _) hgood.inv).2⟩

/-- **What the moves keep**, under a condition on each, holds of what is reached. -/
theorem holds_of_moves {P : D → Prop} (hmove : ∀ a d d', Inv d → M a d d' → C a d → P d → P d')
    (hinv : Inv d) (hP : P d) (h : ReachableIf starts C d w) : P w.data := by
  induction h with
  | refl => exact hP
  | @tail w w' hrun hstep ih =>
    cases hstep with
    | quiet _ hdata =>
      rw [hdata]
      exact ih
    | commit hs hprogram hmeets =>
      obtain ⟨hinv', hM⟩ :=
        move_of_commit hstarts hinv (ReachableIf.reachable hrun) (.mk hs hprogram)
      exact hmove _ _ _ hinv' hM hmeets ih

/-- What the moves keep holds of what is reached. -/
theorem holds_of_reachable {P : D → Prop} (hmove : ∀ a d d', Inv d → M a d d' → P d → P d')
    (hinv : Inv d) (hP : P d) (h : Reachable starts d w) : P w.data :=
  holds_of_moves hstarts (fun a d d' hd hM _ => hmove a d d' hd hM) hinv hP h.reachableIf

end

/-! ## Runs -/

/-- **A run**: worlds, each one step from the one before. -/
def Run (starts : Transaction D K α → Prop) (d : D) (ws : List (World D K α)) : Prop :=
  List.IsChain (Step starts) (⟨d, []⟩ :: ws)

/-- **What holds between two worlds one after another** of a run, all the way. -/
def Along (P : World D K α → World D K α → Prop) (d : D) (ws : List (World D K α)) : Prop :=
  List.IsChain P (⟨d, []⟩ :: ws)

theorem isChain_imp_of_reachable {P Q : World D K α → World D K α → Prop} {ws : List (World D K α)}
    (himp : ∀ w w', Reachable starts d w → Step starts w w' → P w w' → Q w w')
    (hw : Reachable starts d w) (hrun : List.IsChain (Step starts) (w :: ws))
    (hP : List.IsChain P (w :: ws)) : List.IsChain Q (w :: ws) := by
  induction ws generalizing w with
  | nil => exact .singleton _
  | cons w' ws ih =>
    obtain ⟨hstep, hrest⟩ := List.isChain_cons_cons.mp hrun
    obtain ⟨hfirst, hP⟩ := List.isChain_cons_cons.mp hP
    exact List.isChain_cons_cons.mpr ⟨himp w w' hw hstep hfirst, ih (hw.tail hstep) hrest hP⟩

/-- **A law of every step** holds along every run. -/
theorem along_of_steps {P : World D K α → World D K α → Prop} {ws : List (World D K α)}
    (h : ∀ w w', Reachable starts d w → Step starts w w' → P w w') (hrun : Run starts d ws) :
    Along P d ws :=
  isChain_imp_of_reachable (fun w w' hw hstep _ => h w w' hw hstep) .refl hrun hrun

/-- **Two laws that agree on every step agree on every run.** -/
theorem along_iff {P Q : World D K α → World D K α → Prop} {ws : List (World D K α)}
    (hiff : ∀ w w', Reachable starts d w → Step starts w w' → (P w w' ↔ Q w w'))
    (hrun : Run starts d ws) : Along P d ws ↔ Along Q d ws :=
  ⟨isChain_imp_of_reachable (fun w w' hw hstep => (hiff w w' hw hstep).mp) .refl hrun,
    isChain_imp_of_reachable (fun w w' hw hstep => (hiff w w' hw hstep).mpr) .refl hrun⟩

/-- Every world of a run is reachable. -/
theorem Run.reachable {ws : List (World D K α)} (hrun : Run starts d ws) (hmem : w ∈ ws) :
    Reachable starts d w := by
  suffices hgoal : ∀ first : World D K α, Reachable starts d first →
      List.IsChain (Step starts) (first :: ws) → Reachable starts d w from hgoal _ .refl hrun
  clear hrun
  intro first hfirst hchain
  induction ws generalizing first with
  | nil => exact absurd hmem List.not_mem_nil
  | cons w' ws ih =>
    obtain ⟨hstep, hrest⟩ := List.isChain_cons_cons.mp hchain
    obtain rfl | hmem := List.mem_cons.mp hmem
    · exact hfirst.tail hstep
    · exact ih hmem w' (hfirst.tail hstep) hrest

/-- **A step after a run** is the last of a run. -/
theorem exists_run (hw : Reachable starts d w) (hstep : Step starts w w') :
    ∃ ws, Run starts d ws ∧ w' ∈ ws ∧ ∀ P, Along P d ws → P w w' := by
  obtain ⟨ws, hchain, hlast⟩ := List.exists_isChain_cons_of_relationReflTransGen hw
  have hlast? : ((⟨d, []⟩ : World D K α) :: ws).getLast? = some w := by
    rw [List.getLast?_eq_some_getLast (List.cons_ne_nil _ _), hlast]
  refine ⟨ws ++ [w'], ?_, List.mem_append_right _ List.mem_cons_self, fun P hP => ?_⟩
  · show List.IsChain (Step starts) ((⟨d, []⟩ :: ws) ++ [w'])
    refine hchain.append (.singleton w') fun x hx y hy => ?_
    obtain rfl := Option.some.inj (hlast?.symm.trans hx)
    obtain rfl := Option.some.inj hy
    exact hstep
  · have hP' : List.IsChain P ((⟨d, []⟩ :: ws) ++ [w']) := hP
    exact (List.isChain_append.mp hP').2.2 w hlast? w' rfl

section

variable (hstarts : ∀ p, starts p → ∀ d, Inv d → Safe R Inv (MayMove R Inv M) p id [] d)

include hstarts

/-- **A law of one step** is the condition of its commit, if it is of the commit's move. -/
theorem law_iff_commits {L : Prop} (hinv : Inv d) (hw : Reachable starts d w)
    (hstep : Step starts w w') (hsame : w'.data = w.data → L)
    (hmove : ∀ a, Inv w.data → M a w.data w'.data → (L ↔ C a w.data)) :
    L ↔ ∀ a, Commit w a w' → C a w.data := by
  refine ⟨fun hlaw a hcommit => ?_, fun hmeets => ?_⟩
  · obtain ⟨hw', hM⟩ := move_of_commit hstarts hinv hw hcommit
    exact (hmove a hw' hM).mp hlaw
  · obtain hdata | ⟨a, hcommit⟩ := data_or_commit hstep
    · exact hsame hdata
    · obtain ⟨hw', hM⟩ := move_of_commit hstarts hinv hw hcommit
      exact (hmove a hw' hM).mpr (hmeets a hcommit)

/-- **A law of the moves**: a run keeps it at every step if and only if every commit meets
the condition under which its move does. -/
theorem along_moves_iff {Law : D → D → Prop} {ws : List (World D K α)} (hrefl : ∀ d, Law d d)
    (hmove : ∀ a d d', Inv d → M a d d' → (Law d d' ↔ C a d)) (hinv : Inv d)
    (hrun : Run starts d ws) : Along (fun w w' => Law w.data w'.data) d ws
      ↔ Along (fun w w' => ∀ a, Commit w a w' → C a w.data) d ws := by
  refine along_iff (fun w w' hw hstep => ?_) hrun
  exact law_iff_commits hstarts hinv hw hstep (fun hsame => hsame ▸ hrefl _) fun a => hmove a _ _

/-- **An invariant of the moves**: it holds in every state of a run if and only if every
commit meets the condition under which its move keeps it. -/
theorem holds_iff_along {P : D → Prop} {ws : List (World D K α)}
    (hmove : ∀ a d d', Inv d → M a d d' → P d → (P d' ↔ C a d)) (hinv : Inv d) (hP : P d)
    (hrun : Run starts d ws) : (∀ w ∈ ws, P w.data)
      ↔ Along (fun w w' => ∀ a, Commit w a w' → C a w.data) d ws := by
  suffices hgoal : ∀ first : World D K α, Reachable starts d first → P first.data →
      List.IsChain (Step starts) (first :: ws) → ((∀ w ∈ ws, P w.data)
        ↔ List.IsChain (fun w w' => ∀ a, Commit w a w' → C a w.data) (first :: ws)) from
    hgoal _ .refl hP hrun
  clear hrun
  intro first hfirst hPfirst hchain
  induction ws generalizing first with
  | nil => exact ⟨fun _ => .singleton _, fun _ w hmem => absurd hmem List.not_mem_nil⟩
  | cons w' ws ih =>
    obtain ⟨hstep, hrest⟩ := List.isChain_cons_cons.mp hchain
    have hnext := law_iff_commits hstarts (C := C) hinv hfirst hstep (L := P w'.data)
      (fun hsame => hsame ▸ hPfirst) fun a hinv' hM => hmove a _ _ hinv' hM hPfirst
    rw [List.forall_mem_cons, List.isChain_cons_cons, hnext]
    refine and_congr_right fun hmeets => ?_
    exact ih w' (hfirst.tail hstep) (hnext.mpr hmeets) hrest

end

end RowLocks
