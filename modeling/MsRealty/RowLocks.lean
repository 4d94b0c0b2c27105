import MsRealty.EffectProgram
import Mathlib.Data.Nat.Notation

/-!
# Transactions with row locks

Transactions that interleave statement by statement: each sees what is committed,
and what it wrote itself; it locks rows, shared or for an update, and holds the
locks to its end; and it commits all it wrote at once, or nothing (`Step`).

What may be relied on under a lock is a `Discipline`: how the data may change in
every commit, and how it may change while a lock is held, unless by its holder. A
transaction is `Safe` if whatever the others commit meanwhile, it keeps the
invariant and changes only what its own locks permit. Then so does any number of
transactions, in any order of their statements (`inv_of_reachable`).
-/

namespace RowLocks

/-- The mode of a lock. -/
inductive Mode where
  | share
  | update
  deriving DecidableEq

/-- Two transactions may hold locks of one row only to share it. -/
def Mode.Compatible (a b : Mode) : Prop := a = .share ∧ b = .share

instance (a b : Mode) : Decidable (a.Compatible b) := inferInstanceAs (Decidable (_ ∧ _))

theorem Mode.Compatible.symm {a b : Mode} (h : a.Compatible b) : b.Compatible a := ⟨h.2, h.1⟩

/-- **A statement**: it reads, locks a row and reads it, or writes. -/
inductive Statement (D K : Type) : Type where
  | read
  | lock (key : K) (mode : Mode)
  | write (effect : D → D)

/-- What a statement answers. -/
def Statement.Answer {D K : Type} : Statement D K → Type
  | .read => D
  | .lock _ _ => D
  | .write _ => Unit

/-- **A transaction.** -/
abbrev Transaction (D K α : Type) : Type := Prog (Statement D K) Statement.Answer α

variable {D K α β : Type}

/-- Reads the data. -/
def reading : Transaction D K D := Prog.op Statement.read

/-- Locks a row, and reads the data when it has the lock. -/
def locking (key : K) (mode : Mode) : Transaction D K D := Prog.op (Statement.lock key mode)

/-- Writes. -/
def writing (effect : D → D) : Transaction D K Unit := Prog.op (Statement.write effect)

/-- Locks rows, one after the other, and answers with those that satisfy a
condition when they are locked. -/
def lockingAll {ι : Type} (row : ι → K) (still : D → ι → Bool) :
    List ι → Transaction D K (List ι)
  | [] => pure []
  | i :: rest => do
    let d ← locking (row i) .update
    let others ← lockingAll row still rest
    pure (if still d i then i :: others else others)

/-- **An update of the rows that satisfy a condition**: the rows the statement
finds are locked, and those that satisfy it then are written. It answers with them. -/
def updating {ι : Type} (found : D → List ι) (row : ι → K) (still : D → ι → Bool)
    (effect : List ι → D → D) : Transaction D K (List ι) := do
  let d ← reading
  let rows ← lockingAll row still (found d)
  writing (effect rows)
  pure rows

/-- **A transaction alone**: no other is under way. It answers, and leaves the
data as it commits it. -/
def alone : Transaction D K α → (D → D) → D → Option (α × D)
  | .done a, writes, d => some (a, writes d)
  | .fail, _, _ => none
  | .perform .read next, writes, d => alone (next (writes d)) writes d
  | .perform (.lock _ _) next, writes, d => alone (next (writes d)) writes d
  | .perform (.write effect) next, writes, d => alone (next ()) (effect ∘ writes) d

/-! ## A transaction alone -/

section

variable {a : α} {b : β} {d d' : D}

/-- What is written before is as good as committed. -/
theorem alone_eq (p : Transaction D K α) (writes : D → D) (d : D) :
    alone p writes d = alone p id (writes d) := by
  induction p generalizing writes d with
  | done a => rfl
  | fail => rfl
  | perform statement next ih =>
    cases statement with
    | read => exact ih _ writes d
    | lock key mode => exact ih _ writes d
    | write effect =>
      show alone (next ()) (effect ∘ writes) d = alone (next ()) (effect ∘ id) (writes d)
      exact (ih () (effect ∘ writes) d).trans (ih () (effect ∘ id) (writes d)).symm

/-- **One part alone after another.** -/
theorem alone_bind {p : Transaction D K α} {f : α → Transaction D K β} :
    alone (p >>= f) id d = some (b, d')
      ↔ ∃ a d₁, alone p id d = some (a, d₁) ∧ alone (f a) id d₁ = some (b, d') := by
  have hgeneral : ∀ (p : Transaction D K α) (writes : D → D),
      alone (p >>= f) writes d = (alone p writes d).bind (fun r => alone (f r.1) id r.2) := by
    intro p
    rw [Prog.bind_eq]
    induction p with
    | done a => exact fun writes => alone_eq (f a) writes d
    | fail => exact fun _ => rfl
    | perform statement next ih =>
      intro writes
      cases statement with
      | read => exact ih _ writes
      | lock key mode => exact ih _ writes
      | write effect => exact ih () (effect ∘ writes)
  rw [hgeneral, Option.bind_eq_some_iff]
  constructor
  · rintro ⟨⟨a, d₁⟩, hp, hf⟩
    exact ⟨a, d₁, hp, hf⟩
  · rintro ⟨a, d₁, hp, hf⟩
    exact ⟨(a, d₁), hp, hf⟩

@[simp] theorem alone_reading {f : D → Transaction D K β} :
    alone (reading >>= f) id d = alone (f d) id d :=
  rfl

@[simp] theorem alone_locking {key : K} {mode : Mode} {f : D → Transaction D K β} :
    alone (locking key mode >>= f) id d = alone (f d) id d :=
  rfl

@[simp] theorem alone_writing {effect : D → D} {f : Unit → Transaction D K β} :
    alone (writing effect >>= f) id d = alone (f ()) id (effect d) :=
  alone_eq (f ()) (effect ∘ id) d

@[simp] theorem alone_demand {p : Prop} [Decidable p] {f : Unit → Transaction D K β} :
    alone (Prog.demand p >>= f) id d = some (b, d') ↔ p ∧ alone (f ()) id d = some (b, d') := by
  unfold Prog.demand
  split_ifs with hp
  · exact ⟨fun h => ⟨hp, h⟩, And.right⟩
  · exact ⟨fun h => (nomatch h), fun h => absurd h.1 hp⟩

@[simp] theorem alone_demand_last {p : Prop} [Decidable p] {u : Unit} :
    alone (Prog.demand p : Transaction D K Unit) id d = some (u, d') ↔ p ∧ d' = d := by
  unfold Prog.demand
  split_ifs with hp
  · exact ⟨fun h => ⟨hp, (Prod.mk.inj (Option.some.inj h)).2.symm⟩, fun h => by rw [h.2]; rfl⟩
  · exact ⟨fun h => (nomatch h), fun h => absurd h.1 hp⟩

@[simp] theorem alone_required {value : Option α} {f : α → Transaction D K β} :
    alone (Prog.required value >>= f) id d = some (b, d')
      ↔ ∃ a, value = some a ∧ alone (f a) id d = some (b, d') := by
  cases value with
  | none => exact ⟨fun h => (nomatch h), fun h => (nomatch h.choose_spec.1)⟩
  | some a =>
    exact ⟨fun h => ⟨a, rfl, h⟩, fun ⟨_, heq, h⟩ => (Option.some.inj heq) ▸ h⟩

/-- Alone, the rows that are locked are those that satisfy the condition. -/
theorem alone_lockingAll {ι : Type} {row : ι → K} {still : D → ι → Bool} (rows : List ι) (d : D) :
    alone (lockingAll row still rows) id d = some (rows.filter (still d), d) := by
  induction rows with
  | nil => rfl
  | cons i rest ih =>
    refine alone_bind.mpr ⟨d, d, rfl, alone_bind.mpr ⟨rest.filter (still d), d, ih, ?_⟩⟩
    rw [List.filter_cons]
    rfl

/-- **Alone, an update writes to every row** that satisfies the condition. -/
theorem alone_updating {ι : Type} {found : D → List ι} {row : ι → K} {still : D → ι → Bool}
    {effect : List ι → D → D} (d : D) :
    alone (updating found row still effect) id d
      = some ((found d).filter (still d), effect ((found d).filter (still d)) d) := by
  refine alone_bind.mpr ⟨d, d, rfl, alone_bind.mpr ⟨_, d, alone_lockingAll _ d, ?_⟩⟩
  rfl

end

/-! ## Discipline -/

/-- **What transactions may rely on**: how every commit changes the data, and what
no other transaction commits while a lock is held. -/
structure Discipline (D K : Type) where
  Every : D → D → Prop
  Keeps : K → Mode → D → D → Prop
  every_refl : ∀ d, Every d d
  every_trans : ∀ {a b c}, Every a b → Every b c → Every a c
  keeps_refl : ∀ key mode d, Keeps key mode d d
  keeps_trans : ∀ {key mode a b c}, Keeps key mode a b → Keeps key mode b c → Keeps key mode a c

/-- The locks a transaction holds. -/
abbrev Locks (K : Type) := List (K × Mode)

/-- Whether two transactions may hold their locks at a time. -/
def Locks.Compatible (locks locks' : Locks K) : Prop :=
  ∀ l ∈ locks, ∀ l' ∈ locks', l.fst = l'.fst → l.snd.Compatible l'.snd

variable (R : Discipline D K)

/-- **What a transaction relies on**, while it holds some locks. -/
def Discipline.Rely (locks : Locks K) (d d' : D) : Prop :=
  R.Every d d' ∧ ∀ l ∈ locks, R.Keeps l.fst l.snd d d'

/-- **What a transaction guarantees**: it breaks only what no other may rely on,
as long as it holds its locks. -/
def Discipline.Guarantee (locks : Locks K) (d d' : D) : Prop :=
  R.Every d d' ∧ ∀ key mode, (∀ l ∈ locks, l.fst = key → l.snd.Compatible mode) →
    R.Keeps key mode d d'

variable {R} {locks locks' : Locks K} {d d' d'' : D} {Inv : D → Prop}

theorem rely_refl (locks : Locks K) (d : D) : R.Rely locks d d :=
  ⟨R.every_refl d, fun l _ => R.keeps_refl l.fst l.snd d⟩

theorem rely_trans (h : R.Rely locks d d') (h' : R.Rely locks d' d'') : R.Rely locks d d'' :=
  ⟨R.every_trans h.1 h'.1, fun l hl => R.keeps_trans (h.2 l hl) (h'.2 l hl)⟩

/-- Who holds more locks relies on more. -/
theorem rely_mono (h : R.Rely locks' d d') (hlocks : ∀ l ∈ locks, l ∈ locks') :
    R.Rely locks d d' :=
  ⟨h.1, fun l hl => h.2 l (hlocks l hl)⟩

/-- **What one transaction guarantees, another relies on.** -/
theorem rely_of_guarantee (hcompat : locks.Compatible locks') (h : R.Guarantee locks' d d') :
    R.Rely locks d d' :=
  ⟨h.1, fun l hl => h.2 l.fst l.snd (fun l' hl' heq => (hcompat l hl l' hl' heq.symm).symm)⟩

/-! ## Safety -/

variable (R Inv) in
/-- **A transaction may be committed**: whatever is committed before, it keeps the
invariant, and its guarantee. -/
def MayCommit (writes : D → D) (locks : Locks K) (d : D) : Prop :=
  ∀ d', R.Rely locks d d' → Inv d' → Inv (writes d') ∧ R.Guarantee locks d' (writes d')

variable (R Inv) in
/-- **A transaction is safe** from a state of the data on: whatever others commit
between its statements, it ends as `Q` says, or rolls back. -/
def Safe (Q : α → (D → D) → Locks K → D → Prop) :
    Transaction D K α → (D → D) → Locks K → D → Prop
  | .done a, writes, locks, d => Q a writes locks d
  | .fail, _, _, _ => True
  | .perform .read next, writes, locks, d =>
    ∀ d', R.Rely locks d d' → Inv d' → Safe Q (next (writes d')) writes locks d'
  | .perform (.lock key mode) next, writes, locks, d =>
    ∀ d', R.Rely locks d d' → Inv d' →
      Safe Q (next (writes d')) writes ((key, mode) :: locks) d'
  | .perform (.write effect) next, writes, locks, d =>
    Safe Q (next ()) (effect ∘ writes) locks d

variable {Q Q' : α → (D → D) → Locks K → D → Prop} {P : β → (D → D) → Locks K → D → Prop}
  {writes : D → D}

theorem guarantee_refl (locks : Locks K) (d : D) : R.Guarantee locks d d :=
  ⟨R.every_refl d, fun key mode _ => R.keeps_refl key mode d⟩

theorem guarantee_trans (h : R.Guarantee locks d d') (h' : R.Guarantee locks d' d'') :
    R.Guarantee locks d d'' :=
  ⟨R.every_trans h.1 h'.1, fun key mode hcompat =>
    R.keeps_trans (h.2 key mode hcompat) (h'.2 key mode hcompat)⟩

/-- Who holds more locks guarantees less. -/
theorem guarantee_mono (h : R.Guarantee locks d d') (hlocks : ∀ l ∈ locks, l ∈ locks') :
    R.Guarantee locks' d d' :=
  ⟨h.1, fun key mode hcompat => h.2 key mode fun l hl => hcompat l (hlocks l hl)⟩

variable (R Inv) in
/-- **What was written so far may be committed, and `F` holds of it**, whatever the
others commit before. -/
def Ready (F : D → Prop) (writes : D → D) (locks : Locks K) (d : D) : Prop :=
  ∀ d', R.Rely locks d d' → Inv d' →
    (Inv (writes d') ∧ R.Guarantee locks d' (writes d')) ∧ F (writes d')

variable {F G : D → Prop}

/-- What is ready may be committed. -/
theorem Ready.mayCommit (h : Ready R Inv F writes locks d) : MayCommit R Inv writes locks d :=
  fun d' hrely hinv => (h d' hrely hinv).1

/-- It is ready still when more is locked, and others have committed. -/
theorem Ready.mono (h : Ready R Inv F writes locks d) (hlocks : ∀ l ∈ locks, l ∈ locks')
    (hrely : R.Rely locks d d') : Ready R Inv F writes locks' d' := by
  intro d'' hrely' hinv
  obtain ⟨⟨hkept, hguarantee⟩, hfact⟩ := h d'' (rely_trans hrely (rely_mono hrely' hlocks)) hinv
  exact ⟨⟨hkept, guarantee_mono hguarantee hlocks⟩, hfact⟩

/-- A transaction that locks one more row. -/
theorem Ready.locked {l : K × Mode} (h : Ready R Inv F writes locks d)
    (hrely : R.Rely locks d d') : Ready R Inv F writes (l :: locks) d' :=
  h.mono (fun _ hl => List.mem_cons_of_mem _ hl) hrely

/-- **A fact that is learnt**: the locks keep it. -/
theorem Ready.learn (h : Ready R Inv F writes locks d)
    (hlearn : ∀ d', R.Rely locks d d' → Inv d' → G (writes d')) :
    Ready R Inv (fun x => F x ∧ G x) writes locks d :=
  fun d' hrely hinv => ⟨(h d' hrely hinv).1, (h d' hrely hinv).2, hlearn d' hrely hinv⟩

/-- **One more write**, if it keeps the invariant of what was written so far, and the
guarantee. -/
theorem Ready.write {effect : D → D} (h : Ready R Inv F writes locks d)
    (heffect : ∀ x, Inv x → F x →
      (Inv (effect x) ∧ R.Guarantee locks x (effect x)) ∧ G (effect x)) :
    Ready R Inv G (effect ∘ writes) locks d := by
  intro d' hrely hinv
  obtain ⟨⟨hkept, hguarantee⟩, hfact⟩ := h d' hrely hinv
  obtain ⟨⟨hnext, hmore⟩, hnow⟩ := heffect (writes d') hkept hfact
  exact ⟨⟨hnext, guarantee_trans hguarantee hmore⟩, hnow⟩

/-- A transaction that has written nothing is ready. -/
theorem Ready.start (locks : Locks K) (d : D) : Ready R Inv (fun _ => True) id locks d :=
  fun d' _ hinv => ⟨⟨hinv, guarantee_refl locks d'⟩, trivial⟩

/-- **Safety is not lost** by what others commit. -/
theorem Safe.of_rely {p : Transaction D K α}
    (hQ : ∀ a writes locks d d', Q a writes locks d → R.Rely locks d d' → Q a writes locks d')
    (h : Safe R Inv Q p writes locks d) (hrely : R.Rely locks d d') :
    Safe R Inv Q p writes locks d' := by
  induction p generalizing writes locks d d' with
  | done a => exact hQ a writes locks d d' h hrely
  | fail => trivial
  | perform statement next ih =>
    cases statement with
    | read => exact fun d'' hrely' hinv => h d'' (rely_trans hrely hrely') hinv
    | lock key mode => exact fun d'' hrely' hinv => h d'' (rely_trans hrely hrely') hinv
    | write effect => exact ih () h hrely

theorem Safe.mono {p : Transaction D K α} (h : Safe R Inv Q p writes locks d)
    (hQ : ∀ a writes locks d, Q a writes locks d → Q' a writes locks d) :
    Safe R Inv Q' p writes locks d := by
  induction p generalizing writes locks d with
  | done a => exact hQ a writes locks d h
  | fail => trivial
  | perform statement next ih =>
    cases statement with
    | read => exact fun d' hrely hinv => ih _ (h d' hrely hinv)
    | lock key mode => exact fun d' hrely hinv => ih _ (h d' hrely hinv)
    | write effect => exact ih () h

/-- **The rule of composition.** -/
theorem Safe.bind {p : Transaction D K α} {f : α → Transaction D K β}
    (h : Safe R Inv Q p writes locks d)
    (hf : ∀ a writes locks d, Q a writes locks d → Safe R Inv P (f a) writes locks d) :
    Safe R Inv P (p >>= f) writes locks d := by
  rw [Prog.bind_eq]
  induction p generalizing writes locks d with
  | done a => exact hf a writes locks d h
  | fail => trivial
  | perform statement next ih =>
    cases statement with
    | read => exact fun d' hrely hinv => ih _ (h d' hrely hinv)
    | lock key mode => exact fun d' hrely hinv => ih _ (h d' hrely hinv)
    | write effect => exact ih () h

/-- The rule of a reading statement. -/
theorem Safe.reading {f : D → Transaction D K β}
    (h : ∀ d', R.Rely locks d d' → Inv d' → Safe R Inv P (f (writes d')) writes locks d') :
    Safe R Inv P (RowLocks.reading >>= f) writes locks d :=
  h

/-- The rule of a lock: it is held from then on. -/
theorem Safe.locking {key : K} {mode : Mode} {f : D → Transaction D K β}
    (h : ∀ d', R.Rely locks d d' → Inv d' →
      Safe R Inv P (f (writes d')) writes ((key, mode) :: locks) d') :
    Safe R Inv P (RowLocks.locking key mode >>= f) writes locks d :=
  h

/-- The rule of a write. -/
theorem Safe.writing {effect : D → D} {f : Unit → Transaction D K β}
    (h : Safe R Inv P (f ()) (effect ∘ writes) locks d) :
    Safe R Inv P (RowLocks.writing effect >>= f) writes locks d :=
  h

/-- A last write. -/
theorem Safe.writing_last {effect : D → D} {Q : Unit → (D → D) → Locks K → D → Prop}
    (h : Q () (effect ∘ writes) locks d) :
    Safe R Inv Q (RowLocks.writing effect) writes locks d :=
  h

/-- The rule of a condition: a transaction that does not meet it rolls back. -/
theorem Safe.demand {p : Prop} [Decidable p] {f : Unit → Transaction D K β}
    (h : p → Safe R Inv P (f ()) writes locks d) :
    Safe R Inv P (Prog.demand p >>= f) writes locks d := by
  unfold Prog.demand
  split_ifs with hp
  · exact h hp
  · exact trivial

/-- A condition that is demanded last. -/
theorem Safe.demand_last {p : Prop} [Decidable p] {Q : Unit → (D → D) → Locks K → D → Prop}
    (h : p → Q () writes locks d) :
    Safe R Inv Q (Prog.demand p : Transaction D K Unit) writes locks d := by
  unfold Prog.demand
  split_ifs with hp
  · exact h hp
  · exact trivial

/-- The rule of a value that is required. -/
theorem Safe.required {value : Option α} {f : α → Transaction D K β}
    (h : ∀ a, value = some a → Safe R Inv P (f a) writes locks d) :
    Safe R Inv P (Prog.required value >>= f) writes locks d := by
  cases value with
  | none => exact trivial
  | some a => exact h a rfl

/-- A value that is required last. -/
theorem Safe.required_last {value : Option α}
    (h : ∀ a, value = some a → Q a writes locks d) :
    Safe R Inv Q (Prog.required value) writes locks d := by
  cases value with
  | none => exact trivial
  | some a => exact h a rfl

/-- **A row that satisfies a condition stays so backwards**, while locks are held: one
that does not satisfy it any more does not satisfy it again. -/
def StillBefore {ι : Type} (R : Discipline D K) (Inv : D → Prop) (still : D → ι → Bool)
    (writes : D → D) (locks : Locks K) (d : D) : Prop :=
  ∀ d₁ d₂ i, R.Rely locks d d₁ → R.Rely locks d₁ d₂ → Inv d₁ → Inv d₂ →
    still (writes d₂) i = true → still (writes d₁) i = true

/-- **What is known of rows that were locked** one after the other: the locks are held,
each row of the answer satisfied the condition when it was locked, and so did every row
that satisfies it now, if the condition stays so. -/
structure Locked {ι : Type} (R : Discipline D K) (Inv : D → Prop) (row : ι → K)
    (still : D → ι → Bool) (writes : D → D) (locks : Locks K) (d : D) (rows answer : List ι)
    (locks' : Locks K) (d' : D) : Prop where
  held : ∀ i ∈ rows, (row i, Mode.update) ∈ locks'
  sub : ∀ i ∈ answer, i ∈ rows
  found : ∀ i ∈ answer, ∃ d₁, Inv d₁ ∧ R.Rely ((row i, .update) :: locks) d₁ d'
    ∧ still (writes d₁) i = true
  all : StillBefore R Inv still writes locks d → ∀ i ∈ rows, still (writes d') i = true → i ∈ answer

/-- **The rule of several locks**: they are held from then on. -/
theorem Safe.lockingAll {ι : Type} {row : ι → K} {still : D → ι → Bool} {rows : List ι}
    {f : List ι → Transaction D K β} (hinv : Inv d)
    (h : ∀ answer locks' d', (∀ l ∈ locks, l ∈ locks') → R.Rely locks d d' → Inv d' →
      Locked R Inv row still writes locks d rows answer locks' d' →
      Safe R Inv P (f answer) writes locks' d') :
    Safe R Inv P (RowLocks.lockingAll row still rows >>= f) writes locks d := by
  induction rows generalizing locks d f with
  | nil =>
    exact h [] locks d (fun l hl => hl) (rely_refl _ _) hinv
      ⟨fun i hi => absurd hi List.not_mem_nil, fun i hi => absurd hi List.not_mem_nil,
        fun i hi => absurd hi List.not_mem_nil, fun _ i hi => absurd hi List.not_mem_nil⟩
  | cons i rest ih =>
    show Safe R Inv P ((RowLocks.locking (row i) .update >>= fun d =>
      RowLocks.lockingAll row still rest >>= fun others =>
        pure (if still d i then i :: others else others)) >>= f) writes locks d
    rw [Prog.bind_assoc]
    refine Safe.locking fun d₁ hrely hinv₁ => ?_
    rw [Prog.bind_assoc]
    refine ih hinv₁ ?_
    intro answer locks' d₂ hlocks hrely₂ hinv₂ hlocked
    have hless : ∀ {d₁ d₂}, R.Rely ((row i, .update) :: locks) d₁ d₂ → R.Rely locks d₁ d₂ :=
      fun hmore => rely_mono hmore fun l hl => List.mem_cons_of_mem _ hl
    have hself : still (writes d₁) i = true → ∃ d₁, Inv d₁
        ∧ R.Rely ((row i, .update) :: locks) d₁ d₂ ∧ still (writes d₁) i = true :=
      fun hnow => ⟨d₁, hinv₁, hrely₂, hnow⟩
    have hothers : ∀ j ∈ answer, ∃ d₁, Inv d₁ ∧ R.Rely ((row j, .update) :: locks) d₁ d₂
        ∧ still (writes d₁) j = true := by
      intro j hj
      obtain ⟨d₃, hinv₃, hrely₃, hnow⟩ := hlocked.found j hj
      refine ⟨d₃, hinv₃, rely_mono hrely₃ fun l hl => ?_, hnow⟩
      obtain rfl | hl := List.mem_cons.mp hl
      · exact List.mem_cons_self
      · exact List.mem_cons_of_mem _ (List.mem_cons_of_mem _ hl)
    refine h _ locks' d₂ (fun l hl => hlocks l (List.mem_cons_of_mem _ hl))
      (rely_trans hrely (hless hrely₂)) hinv₂ ⟨fun j hj => ?_, fun j hj => ?_, fun j hj => ?_,
        fun hstill j hj hnow => ?_⟩
    · obtain rfl | hj := List.mem_cons.mp hj
      · exact hlocks _ List.mem_cons_self
      · exact hlocked.held j hj
    · split_ifs at hj
      · obtain rfl | hj := List.mem_cons.mp hj
        · exact List.mem_cons_self
        · exact List.mem_cons_of_mem _ (hlocked.sub j hj)
      · exact List.mem_cons_of_mem _ (hlocked.sub j hj)
    · split_ifs at hj with hnow
      · obtain rfl | hj := List.mem_cons.mp hj
        · exact hself hnow
        · exact hothers j hj
      · exact hothers j hj
    · obtain rfl | hj := List.mem_cons.mp hj
      · rw [if_pos (hstill d₁ d₂ j hrely (hless hrely₂) hinv₁ hinv₂ hnow)]
        exact List.mem_cons_self
      · have hmem := hlocked.all (fun d₃ d₄ k h₃ h₄ => hstill d₃ d₄ k
          (rely_trans hrely (hless h₃)) (hless h₄)) j hj hnow
        split_ifs
        · exact List.mem_cons_of_mem _ hmem
        · exact hmem

/-- **The rule of an update**: it holds the locks of the rows it writes to, and writes
to every row that satisfies the condition when it is done. -/
theorem Safe.updating {ι : Type} {found : D → List ι} {row : ι → K} {still : D → ι → Bool}
    {effect : List ι → D → D} {f : List ι → Transaction D K β}
    (hfound : ∀ d i, still d i = true → i ∈ found d)
    (h : ∀ answer locks' d', (∀ l ∈ locks, l ∈ locks') → R.Rely locks d d' → Inv d' →
      (∀ i ∈ answer, (row i, Mode.update) ∈ locks') →
      (∀ i ∈ answer, ∃ d₁, Inv d₁ ∧ R.Rely ((row i, .update) :: locks) d₁ d'
        ∧ still (writes d₁) i = true) →
      (StillBefore R Inv still writes locks d → ∀ i, still (writes d') i = true → i ∈ answer) →
      Safe R Inv P (f answer) (effect answer ∘ writes) locks' d') :
    Safe R Inv P (RowLocks.updating found row still effect >>= f) writes locks d := by
  unfold RowLocks.updating
  rw [Prog.bind_assoc]
  refine Safe.reading fun d₁ hrely hinv₁ => ?_
  rw [Prog.bind_assoc]
  refine Safe.lockingAll hinv₁ ?_
  intro answer locks' d₂ hlocks hrely₂ hinv₂ hlocked
  refine h answer locks' d₂ hlocks (rely_trans hrely hrely₂) hinv₂
    (fun i hi => hlocked.held i (hlocked.sub i hi)) hlocked.found fun hstill i hi => ?_
  refine hlocked.all (fun d₃ d₄ j h₃ => hstill d₃ d₄ j (rely_trans hrely h₃)) i ?_ hi
  exact hfound _ i (hstill d₁ d₂ i hrely hrely₂ hinv₁ hinv₂ hi)

/-! ## Transactions of which only the writes matter -/

/-- **Every write of a transaction satisfies `E`**, and what it ends with `P`,
whatever it reads. -/
def OnlyWrites (E : (D → D) → Prop) (P : α → Prop) : Transaction D K α → Prop
  | .done a => P a
  | .fail => True
  | .perform .read next => ∀ d, OnlyWrites E P (next d)
  | .perform (.lock _ _) next => ∀ d, OnlyWrites E P (next d)
  | .perform (.write effect) next => E effect ∧ OnlyWrites E P (next ())

section

variable {E C : (D → D) → Prop} {P : α → Prop} {P' : β → Prop}

theorem OnlyWrites.mono {E' : (D → D) → Prop} {p : Transaction D K α} (h : OnlyWrites E P p)
    (hE : ∀ effect, E effect → E' effect) : OnlyWrites E' P p := by
  induction p with
  | done a => exact h
  | fail => trivial
  | perform statement next ih =>
    cases statement with
    | read => exact fun d => ih d (h d)
    | lock key mode => exact fun d => ih d (h d)
    | write effect => exact ⟨hE effect h.1, ih () h.2⟩

theorem OnlyWrites.bind {p : Transaction D K α} {f : α → Transaction D K β}
    (h : OnlyWrites E P p) (hf : ∀ a, P a → OnlyWrites E P' (f a)) :
    OnlyWrites E P' (p >>= f) := by
  rw [Prog.bind_eq]
  induction p with
  | done a => exact hf a h
  | fail => trivial
  | perform statement next ih =>
    cases statement with
    | read => exact fun d => ih d (h d)
    | lock key mode => exact fun d => ih d (h d)
    | write effect => exact ⟨h.1, ih () h.2⟩

theorem OnlyWrites.reading {f : D → Transaction D K β} (h : ∀ d, OnlyWrites E P' (f d)) :
    OnlyWrites E P' (RowLocks.reading >>= f) :=
  h

theorem OnlyWrites.demand {p : Prop} [Decidable p] {f : Unit → Transaction D K β}
    (h : p → OnlyWrites E P' (f ())) : OnlyWrites E P' (Prog.demand p >>= f) := by
  unfold Prog.demand
  split_ifs with hp
  · exact h hp
  · exact trivial

theorem OnlyWrites.demand_last {p : Prop} [Decidable p] {P : Unit → Prop} (h : P ()) :
    OnlyWrites E P (Prog.demand p : Transaction D K Unit) := by
  unfold Prog.demand
  split_ifs
  · exact h
  · exact trivial

theorem OnlyWrites.required {value : Option α} {f : α → Transaction D K β}
    (h : ∀ a, value = some a → OnlyWrites E P' (f a)) :
    OnlyWrites E P' (Prog.required value >>= f) := by
  cases value with
  | none => exact trivial
  | some a => exact h a rfl

theorem OnlyWrites.required_last {value : Option α} (h : ∀ a, value = some a → P a) :
    OnlyWrites E P (Prog.required value : Transaction D K α) := by
  cases value with
  | none => exact trivial
  | some a => exact h a rfl

theorem OnlyWrites.lockingAll {ι : Type} {row : ι → K} {still : D → ι → Bool} {rows : List ι} :
    OnlyWrites E (fun _ => True) (RowLocks.lockingAll row still rows) := by
  induction rows with
  | nil => trivial
  | cons i rest ih => exact fun d => ih.bind fun _ _ => trivial

theorem OnlyWrites.updating {ι : Type} {found : D → List ι} {row : ι → K} {still : D → ι → Bool}
    {effect : List ι → D → D} (h : ∀ rows, E (effect rows)) :
    OnlyWrites E (fun _ => True) (RowLocks.updating found row still effect) :=
  fun _ => OnlyWrites.lockingAll.bind fun rows _ => ⟨h rows, trivial⟩

/-- **What a transaction alone leaves** is what its writes compose to. -/
theorem OnlyWrites.alone {p : Transaction D K α} (h : OnlyWrites E P p)
    (hcomp : ∀ effect writes, E effect → C writes → C (effect ∘ writes)) (hid : C id)
    {d d' : D} {a : α} (halone : RowLocks.alone p id d = some (a, d')) :
    P a ∧ ∃ writes, C writes ∧ d' = writes d := by
  suffices hgoal : ∀ (writes : D → D), C writes → RowLocks.alone p writes d = some (a, d') →
      P a ∧ ∃ writes, C writes ∧ d' = writes d from hgoal id hid halone
  clear halone
  intro writes hwrites halone
  induction p generalizing writes with
  | done b =>
    obtain ⟨rfl, rfl⟩ := Prod.mk.inj (Option.some.inj halone)
    exact ⟨h, writes, hwrites, rfl⟩
  | fail => cases halone
  | perform statement next ih =>
    cases statement with
    | read => exact ih _ (h _) writes hwrites halone
    | lock key mode => exact ih _ (h _) writes hwrites halone
    | write effect => exact ih () h.2 _ (hcomp effect writes h.1 hwrites) halone

/-- **A transaction whose writes compose**, with what it relied on meanwhile: the
locks it had it still has. -/
theorem OnlyWrites.safe_held {p : Transaction D K α} (h : OnlyWrites E P p)
    (hcomp : ∀ effect writes, E effect → C writes → C (effect ∘ writes)) (hwrites : C writes) :
    Safe R Inv (fun a writes' locks' d' => P a ∧ C writes' ∧ (∀ l ∈ locks, l ∈ locks')
      ∧ R.Rely locks d d' ∧ (Inv d → Inv d')) p writes locks d := by
  suffices hgoal : ∀ writes locks' d₁, C writes → (∀ l ∈ locks, l ∈ locks') → R.Rely locks d d₁ →
      (Inv d → Inv d₁) → Safe R Inv (fun a writes' locks' d' => P a ∧ C writes'
        ∧ (∀ l ∈ locks, l ∈ locks') ∧ R.Rely locks d d' ∧ (Inv d → Inv d')) p writes locks' d₁ from
    hgoal writes locks d hwrites (fun l hl => hl) (rely_refl _ _) id
  induction p with
  | done a => exact fun writes locks' d₁ hC hlocks hrely hinv => ⟨h, hC, hlocks, hrely, hinv⟩
  | fail => exact fun _ _ _ _ _ _ _ => trivial
  | perform statement next ih =>
    intro writes locks' d₁ hC hlocks hrely hinv
    cases statement with
    | read =>
      exact fun d₂ hrely₂ hinv₂ => ih _ (h _) writes locks' d₂ hC hlocks
        (rely_trans hrely (rely_mono hrely₂ hlocks)) fun _ => hinv₂
    | lock key mode =>
      exact fun d₂ hrely₂ hinv₂ => ih _ (h _) writes _ d₂ hC
        (fun l hl => List.mem_cons_of_mem _ (hlocks l hl))
        (rely_trans hrely (rely_mono hrely₂ hlocks)) fun _ => hinv₂
    | write effect =>
      exact ih () h.2 _ locks' d₁ (hcomp effect writes h.1 hC) hlocks hrely hinv

/-- **A transaction whose writes compose** to something that `C` holds of. -/
theorem OnlyWrites.safe {p : Transaction D K α} (h : OnlyWrites E P p)
    (hcomp : ∀ effect writes, E effect → C writes → C (effect ∘ writes)) (hwrites : C writes) :
    Safe R Inv (fun a writes _ _ => P a ∧ C writes) p writes locks d :=
  (h.safe_held hcomp hwrites).mono fun _ _ _ _ ha => ⟨ha.1, ha.2.1⟩

/-- **The rule of a part whose writes compose**: what follows keeps its locks, and
what was written so far satisfies `C`. -/
theorem OnlyWrites.safe_bind {p : Transaction D K α} {f : α → Transaction D K β}
    {P' : β → (D → D) → Locks K → D → Prop} (h : OnlyWrites E P p)
    (hcomp : ∀ effect writes, E effect → C writes → C (effect ∘ writes)) (hwrites : C writes)
    (hinv : Inv d)
    (hf : ∀ a writes' locks' d', P a → C writes' → (∀ l ∈ locks, l ∈ locks') →
      R.Rely locks d d' → Inv d' → Safe R Inv P' (f a) writes' locks' d') :
    Safe R Inv P' (p >>= f) writes locks d :=
  (h.safe_held hcomp hwrites).bind fun a writes' locks' d' ha =>
    hf a writes' locks' d' ha.1 ha.2.1 ha.2.2.1 ha.2.2.2.1 (ha.2.2.2.2 hinv)

/-- **The rule of a part that only reads.** -/
theorem OnlyWrites.safe_reads {p : Transaction D K α} {f : α → Transaction D K β}
    {P' : β → (D → D) → Locks K → D → Prop} (h : OnlyWrites (fun _ => False) P p)
    (hinv : Inv d)
    (hf : ∀ a locks' d', P a → (∀ l ∈ locks, l ∈ locks') → R.Rely locks d d' → Inv d' →
      Safe R Inv P' (f a) writes locks' d') :
    Safe R Inv P' (p >>= f) writes locks d := by
  refine h.safe_bind (C := fun writes' => writes' = writes) (fun _ _ hfalse => hfalse.elim) rfl
    hinv fun a writes' locks' d' ha hsame hlocks hrely hinv' => ?_
  rw [hsame]
  exact hf a locks' d' ha hlocks hrely hinv'

end

/-! ## Interleaving -/

/-- **A session**: what is left of its transaction, what it wrote, and its locks. -/
structure Session (D K α : Type) where
  program : Transaction D K α
  writes : D → D
  locks : Locks K

/-- The session of a transaction that starts. -/
def Session.start (program : Transaction D K α) : Session D K α := ⟨program, id, []⟩

/-- A session that has ended: it holds no lock. -/
def Session.ended : Session D K α := ⟨.fail, id, []⟩

/-- **The data that is committed**, and the sessions. -/
structure World (D K α : Type) where
  data : D
  sessions : List (Session D K α)

/-- Replaces a session. -/
def World.put (w : World D K α) (i : ℕ) (s : Session D K α) : World D K α :=
  { w with sessions := w.sessions.set i s }

/-- Whether a session may lock a row: no other holds a conflicting lock. -/
def World.MayLock (w : World D K α) (i : ℕ) (key : K) (mode : Mode) : Prop :=
  ∀ (j : ℕ) (s : Session D K α), w.sessions[j]? = some s → j ≠ i →
    ∀ l ∈ s.locks, l.fst = key → l.snd.Compatible mode

/-- **One step**: a transaction starts, performs a statement, commits, or is
rolled back, at any moment. -/
inductive Step (starts : Transaction D K α → Prop) : World D K α → World D K α → Prop
  | start {w : World D K α} {p : Transaction D K α} (hp : starts p) :
    Step starts w { w with sessions := Session.start p :: w.sessions }
  | read {w : World D K α} {i : ℕ} {s : Session D K α} {next} (hs : w.sessions[i]? = some s)
    (hprogram : s.program = .perform .read next) :
    Step starts w (w.put i { s with program := next (s.writes w.data) })
  | lock {w : World D K α} {i : ℕ} {s : Session D K α} {key : K} {mode : Mode} {next}
    (hs : w.sessions[i]? = some s) (hprogram : s.program = .perform (.lock key mode) next)
    (hfree : w.MayLock i key mode) :
    Step starts w (w.put i
      { s with program := next (s.writes w.data), locks := (key, mode) :: s.locks })
  | write {w : World D K α} {i : ℕ} {s : Session D K α} {effect : D → D} {next}
    (hs : w.sessions[i]? = some s) (hprogram : s.program = .perform (.write effect) next) :
    Step starts w (w.put i { s with program := next (), writes := effect ∘ s.writes })
  | commit {w : World D K α} {i : ℕ} {s : Session D K α} {a : α} (hs : w.sessions[i]? = some s)
    (hprogram : s.program = .done a) :
    Step starts w { w.put i Session.ended with data := s.writes w.data }
  | rollback {w : World D K α} {i : ℕ} :
    Step starts w (w.put i Session.ended)

/-- **A reachable world**: the data at the start, and no session. -/
def Reachable (starts : Transaction D K α → Prop) (d : D) (w : World D K α) : Prop :=
  Relation.ReflTransGen (Step starts) ⟨d, []⟩ w

variable (R Inv) in
/-- **What holds of a world**: its data satisfies the invariant, each session is
safe, and their locks do not conflict. -/
structure Good (w : World D K α) : Prop where
  inv : Inv w.data
  safe : ∀ s ∈ w.sessions, Safe R Inv (fun _ => MayCommit R Inv) s.program s.writes s.locks w.data
  locks : ∀ (i j : ℕ) (s s' : Session D K α), w.sessions[i]? = some s →
    w.sessions[j]? = some s' → i ≠ j → Locks.Compatible s.locks s'.locks

variable {starts : Transaction D K α → Prop} {w w' : World D K α} {i : ℕ}
  {s s' : Session D K α}

/-- A session after one is replaced. -/
theorem getElem?_put {j : ℕ} {t : Session D K α} (h : (w.put i s).sessions[j]? = some t) :
    (j = i ∧ t = s) ∨ (j ≠ i ∧ w.sessions[j]? = some t) := by
  rw [World.put, List.getElem?_set] at h
  split_ifs at h with hji hlength
  · exact .inl ⟨hji.symm, (Option.some.inj h).symm⟩
  · exact .inr ⟨Ne.symm hji, h⟩

theorem Locks.Compatible.symm (h : locks.Compatible locks') : locks'.Compatible locks :=
  fun l hl l' hl' heq => (h l' hl' l hl heq.symm).symm

/-! ## Sessions that are safe -/

section

variable (R Inv) in
/-- **A world whose sessions end as `Q` says**: its data satisfies the invariant, and
the locks of its sessions do not conflict. -/
structure GoodAs (Q : α → (D → D) → Locks K → D → Prop) (w : World D K α) : Prop where
  inv : Inv w.data
  safe : ∀ s ∈ w.sessions, Safe R Inv Q s.program s.writes s.locks w.data
  locks : ∀ (i j : ℕ) (s s' : Session D K α), w.sessions[i]? = some s →
    w.sessions[j]? = some s' → i ≠ j → Locks.Compatible s.locks s'.locks

/-- No session has started. -/
theorem GoodAs.init (hinv : Inv d) : GoodAs R Inv Q (⟨d, []⟩ : World D K α) :=
  ⟨hinv, fun _ hs => absurd hs List.not_mem_nil, fun _ _ _ _ hi => (nomatch hi)⟩

/-- A session is safe. -/
theorem GoodAs.session (h : GoodAs R Inv Q w) (hs : w.sessions[i]? = some s) :
    Safe R Inv Q s.program s.writes s.locks w.data :=
  h.safe s (List.mem_of_getElem? hs)

/-- What is left of its program is safe. -/
theorem GoodAs.program {p : Transaction D K α} (h : GoodAs R Inv Q w)
    (hs : w.sessions[i]? = some s) (hprogram : s.program = p) :
    Safe R Inv Q p s.writes s.locks w.data :=
  hprogram ▸ h.session hs

/-- Replacing a session by one that is safe, and whose locks it had or may have. -/
theorem GoodAs.put (h : GoodAs R Inv Q w) (hsafe : Safe R Inv Q s.program s.writes s.locks w.data)
    (hlocks : ∀ j t, w.sessions[j]? = some t → j ≠ i → Locks.Compatible s.locks t.locks) :
    GoodAs R Inv Q (w.put i s) := by
  refine ⟨h.inv, fun t ht => ?_, fun j k t u hj hk hne => ?_⟩
  · obtain ht | rfl := List.mem_or_eq_of_mem_set ht
    · exact h.safe t ht
    · exact hsafe
  · obtain ⟨rfl, rfl⟩ | ⟨hji, hold⟩ := getElem?_put hj
    · obtain ⟨hki, -⟩ | ⟨hki, hold⟩ := getElem?_put hk
      · exact absurd hki.symm hne
      · exact hlocks k u hold hki
    · obtain ⟨rfl, rfl⟩ | ⟨hki, hold'⟩ := getElem?_put hk
      · exact (hlocks j t hold hji).symm
      · exact h.locks j k t u hold hold' hne

/-- Ending a session. -/
theorem GoodAs.ended (h : GoodAs R Inv Q w) (i : ℕ) : GoodAs R Inv Q (w.put i Session.ended) :=
  h.put trivial (fun _ _ _ _ _ hl => absurd hl List.not_mem_nil)

/-- **A commit** that keeps the invariant and its guarantee: the other sessions relied
on no more. -/
theorem GoodAs.commit (hQ : ∀ a writes locks d d', Q a writes locks d → R.Rely locks d d' →
      Q a writes locks d')
    (h : GoodAs R Inv Q w) (hs : w.sessions[i]? = some s)
    (hkeeps : Inv (s.writes w.data) ∧ R.Guarantee s.locks w.data (s.writes w.data)) :
    GoodAs R Inv Q { w.put i Session.ended with data := s.writes w.data } := by
  refine ⟨hkeeps.1, fun t ht => ?_, (h.ended i).locks⟩
  obtain ⟨j, hj⟩ := List.getElem?_of_mem ht
  obtain ⟨-, rfl⟩ | ⟨hne, hold⟩ := getElem?_put hj
  · trivial
  · exact (h.session hold).of_rely hQ (rely_of_guarantee (h.locks j i t s hold hs hne) hkeeps.2)

/-- **Every step keeps such a world**, if its commits keep the invariant and the
guarantee. -/
theorem GoodAs.step (hQ : ∀ a writes locks d d', Q a writes locks d → R.Rely locks d d' →
      Q a writes locks d')
    (hstarts : ∀ p, starts p → ∀ d, Inv d → Safe R Inv Q p id [] d)
    (h : GoodAs R Inv Q w) (hstep : Step starts w w')
    (hcommit : ∀ i s a, w.sessions[i]? = some s → s.program = .done a →
      w' = { w.put i Session.ended with data := s.writes w.data } →
      Inv (s.writes w.data) ∧ R.Guarantee s.locks w.data (s.writes w.data)) :
    GoodAs R Inv Q w' := by
  have hkept : ∀ {i : ℕ} {s : Session D K α}, w.sessions[i]? = some s →
      ∀ (j : ℕ) (t : Session D K α), w.sessions[j]? = some t → j ≠ i →
        Locks.Compatible s.locks t.locks :=
    fun hs j t ht hne => h.locks _ _ _ _ hs ht (Ne.symm hne)
  cases hstep with
  | start hp =>
    refine ⟨h.inv, fun t ht => ?_, fun j k t u hj hk hne => ?_⟩
    · obtain rfl | ht := List.mem_cons.mp ht
      · exact hstarts _ hp w.data h.inv
      · exact h.safe t ht
    · cases j with
      | zero =>
        obtain rfl := Option.some.inj hj
        exact fun l hl => absurd hl List.not_mem_nil
      | succ j =>
        cases k with
        | zero =>
          obtain rfl := Option.some.inj hk
          exact fun _ _ l hl => absurd hl List.not_mem_nil
        | succ k => exact h.locks j k t u hj hk (fun heq => hne (congrArg Nat.succ heq))
  | read hs hprogram =>
    have hsafe := h.program hs hprogram
    exact h.put (hsafe w.data (rely_refl _ _) h.inv) (fun j t ht hne => hkept hs j t ht hne)
  | lock hs hprogram hfree =>
    refine h.put (h.program hs hprogram w.data (rely_refl _ _) h.inv)
      (fun j t ht hne l hl l' hl' heq => ?_)
    obtain rfl | hl := List.mem_cons.mp hl
    · exact (hfree j t ht hne l' hl' heq.symm).symm
    · exact hkept hs j t ht hne l hl l' hl' heq
  | write hs hprogram =>
    have hsafe := h.program hs hprogram
    exact h.put hsafe (fun j t ht hne => hkept hs j t ht hne)
  | commit hs hprogram => exact h.commit hQ hs (hcommit _ _ _ hs hprogram rfl)
  | rollback => exact h.ended _

end

/-! ## Runs whose commits meet a condition -/

section

variable (R Inv) in
/-- **A transaction may be committed where a condition holds**, on what it ends
with and on the data it commits to. -/
def MayCommitIf (C : α → D → Prop) (a : α) (writes : D → D) (locks : Locks K) (d : D) : Prop :=
  ∀ d', R.Rely locks d d' → Inv d' → C a d' → Inv (writes d') ∧ R.Guarantee locks d' (writes d')

/-- **A step of such a run**: one that leaves what is committed, or a commit that
meets the condition. -/
inductive StepIf (starts : Transaction D K α → Prop) (C : α → D → Prop) :
    World D K α → World D K α → Prop
  | quiet {w w' : World D K α} (h : Step starts w w') (hdata : w'.data = w.data) :
    StepIf starts C w w'
  | commit {w : World D K α} {i : ℕ} {s : Session D K α} {a : α} (hs : w.sessions[i]? = some s)
    (hprogram : s.program = .done a) (hmeets : C a w.data) :
    StepIf starts C w { w.put i Session.ended with data := s.writes w.data }

/-- **A world reached by commits that all meet the condition.** -/
def ReachableIf (starts : Transaction D K α → Prop) (C : α → D → Prop) (d : D)
    (w : World D K α) : Prop :=
  Relation.ReflTransGen (StepIf starts C) ⟨d, []⟩ w

variable (R Inv) in
/-- What holds of a world in such a run. -/
structure GoodIf (C : α → D → Prop) (w : World D K α) : Prop where
  inv : Inv w.data
  safe : ∀ s ∈ w.sessions, Safe R Inv (MayCommitIf R Inv C) s.program s.writes s.locks w.data
  locks : ∀ (i j : ℕ) (s s' : Session D K α), w.sessions[i]? = some s →
    w.sessions[j]? = some s' → i ≠ j → Locks.Compatible s.locks s'.locks

variable {C : α → D → Prop}

theorem mayCommitIf_of_rely {a : α} (h : MayCommitIf R Inv C a writes locks d)
    (hrely : R.Rely locks d d') : MayCommitIf R Inv C a writes locks d' :=
  fun d'' hrely' hinv => h d'' (rely_trans hrely hrely') hinv

/-- A good world is one whose sessions may be committed under the condition. -/
theorem GoodIf.iff : GoodIf R Inv C w ↔ GoodAs R Inv (MayCommitIf R Inv C) w :=
  ⟨fun h => ⟨h.inv, h.safe, h.locks⟩, fun h => ⟨h.inv, h.safe, h.locks⟩⟩

/-- **Every step of such a run keeps a world good.** -/
theorem GoodIf.step (hstarts : ∀ p, starts p → ∀ d, Inv d →
      Safe R Inv (MayCommitIf R Inv C) p id [] d)
    (h : GoodIf R Inv C w) (hstep : StepIf starts C w w') : GoodIf R Inv C w' := by
  have hstable : ∀ a writes locks d d', MayCommitIf R Inv C a writes locks d →
      R.Rely locks d d' → MayCommitIf R Inv C a writes locks d' :=
    fun _ _ _ _ _ => mayCommitIf_of_rely
  refine GoodIf.iff.mpr ?_
  cases hstep with
  | commit hs hprogram hmeets =>
    exact (GoodIf.iff.mp h).commit hstable hs
      ((GoodIf.iff.mp h).program hs hprogram w.data (rely_refl _ _) h.inv hmeets)
  | quiet hstep hdata =>
    refine (GoodIf.iff.mp h).step hstable hstarts hstep fun i s a _ _ hw => ?_
    -- A commit that leaves the data as it is.
    have hsame : s.writes w.data = w.data := (congrArg World.data hw).symm.trans hdata
    rw [hsame]
    exact ⟨h.inv, R.every_refl _, fun key mode _ => R.keeps_refl key mode _⟩

/-- **The rule of interleaving under a condition**: where every commit meets it,
the invariant holds of what is committed. -/
theorem inv_of_reachableIf (hstarts : ∀ p, starts p → ∀ d, Inv d →
      Safe R Inv (MayCommitIf R Inv C) p id [] d)
    (hinv : Inv d) (h : ReachableIf starts C d w) : Inv w.data := by
  have hgood : GoodIf R Inv C w := by
    induction h with
    | refl => exact GoodIf.iff.mpr (.init hinv)
    | tail _ hstep ih => exact ih.step hstarts hstep
  exact hgood.inv

/-- **The unconditional rule is a special case**: the condition every commit meets. -/
theorem Good.iff : Good R Inv w ↔ GoodIf R Inv (fun _ _ => True) w := by
  refine ⟨fun h => ⟨h.inv, fun s hs => ?_, h.locks⟩, fun h => ⟨h.inv, fun s hs => ?_, h.locks⟩⟩
  · exact (h.safe s hs).mono fun a writes locks d hmay d' hrely hinv _ => hmay d' hrely hinv
  · exact (h.safe s hs).mono fun a writes locks d hmay d' hrely hinv => hmay d' hrely hinv trivial

/-- Every step of a world is one of such a run, if no condition is made. -/
theorem StepIf.of_step (h : Step starts w w') : StepIf starts (fun _ _ => True) w w' := by
  cases h with
  | start hp => exact .quiet (.start hp) rfl
  | read hs hprogram => exact .quiet (.read hs hprogram) rfl
  | lock hs hprogram hfree => exact .quiet (.lock hs hprogram hfree) rfl
  | write hs hprogram => exact .quiet (.write hs hprogram) rfl
  | commit hs hprogram => exact .commit hs hprogram trivial
  | rollback => exact .quiet .rollback rfl

/-- **Every step keeps a world good**, if every transaction is safe when it starts. -/
theorem Good.step (hstarts : ∀ p, starts p → ∀ d, Inv d →
      Safe R Inv (fun _ => MayCommit R Inv) p id [] d)
    (h : Good R Inv w) (hstep : Step starts w w') : Good R Inv w' := by
  refine Good.iff.mpr (GoodIf.step (fun p hp d hinv => ?_) (Good.iff.mp h) (.of_step hstep))
  exact (hstarts p hp d hinv).mono fun a writes locks d hmay d' hrely hinv _ =>
    hmay d' hrely hinv

/-- **The rule of interleaving**: if every transaction is safe when it starts, the
invariant holds of what is committed, at any moment of any number of them. -/
theorem inv_of_reachable (hstarts : ∀ p, starts p → ∀ d, Inv d →
      Safe R Inv (fun _ => MayCommit R Inv) p id [] d)
    (hinv : Inv d) (h : Reachable starts d w) : Inv w.data := by
  have hgood : Good R Inv w := by
    induction h with
    | refl =>
      exact ⟨hinv, fun s hs => absurd hs List.not_mem_nil, fun i j s s' hi => (nomatch hi)⟩
    | tail _ hstep ih => exact ih.step hstarts hstep
  exact hgood.inv

end

/-! ## Schedules -/

/-- Whether no other session holds a conflicting lock. -/
def World.mayLock [DecidableEq K] (w : World D K α) (i : ℕ) (key : K) (mode : Mode) : Bool :=
  (w.sessions.eraseIdx i).all (fun s =>
    s.locks.all (fun l => decide (l.fst = key → l.snd.Compatible mode)))

/-- **Performs what a session does next**, if it may: a statement, or the commit. -/
def World.advance [DecidableEq K] (w : World D K α) (i : ℕ) : World D K α :=
  match w.sessions[i]? with
  | none => w
  | some s =>
    match s.program with
    | .done _ => { w.put i Session.ended with data := s.writes w.data }
    | .fail => w.put i Session.ended
    | .perform .read next => w.put i { s with program := next (s.writes w.data) }
    | .perform (.lock key mode) next =>
      if w.mayLock i key mode then
        w.put i { s with program := next (s.writes w.data), locks := (key, mode) :: s.locks }
      else w
    | .perform (.write effect) next =>
      w.put i { s with program := next (), writes := effect ∘ s.writes }

theorem mayLock_of_mayLock [DecidableEq K] {key : K} {mode : Mode}
    (h : w.mayLock i key mode = true) : w.MayLock i key mode := by
  intro j t ht hne l hl
  have hmem : t ∈ w.sessions.eraseIdx i :=
    List.mem_eraseIdx_iff_getElem?.mpr ⟨j, hne, ht⟩
  exact of_decide_eq_true (List.all_eq_true.mp (List.all_eq_true.mp h t hmem) l hl)

/-- **What a session does next is a step**, if it does anything. -/
theorem step_advance [DecidableEq K] (starts : Transaction D K α → Prop) (w : World D K α) (i : ℕ) :
    w.advance i = w ∨ Step starts w (w.advance i) := by
  unfold World.advance
  split
  · exact .inl rfl
  · next s hs =>
    split
    · next hprogram => exact .inr (.commit hs hprogram)
    · exact .inr .rollback
    · next hprogram => exact .inr (.read hs hprogram)
    · next hprogram =>
      split_ifs with hfree
      · exact .inr (.lock hs hprogram (mayLock_of_mayLock hfree))
      · exact .inl rfl
    · next hprogram => exact .inr (.write hs hprogram)

/-- A session that goes on. -/
theorem Reachable.advance [DecidableEq K] (h : Reachable starts d w) (i : ℕ) :
    Reachable starts d (w.advance i) := by
  obtain hsame | hstep := step_advance starts w i
  · rw [hsame]
    exact h
  · exact h.tail hstep

/-- A transaction starts. -/
def World.started (w : World D K α) (p : Transaction D K α) : World D K α :=
  { w with sessions := Session.start p :: w.sessions }

theorem Reachable.started (h : Reachable starts d w) {p : Transaction D K α} (hp : starts p) :
    Reachable starts d (w.started p) :=
  h.tail (.start hp)

/-- The data at the start, before any transaction. -/
theorem Reachable.init (d : D) : Reachable starts d (⟨d, []⟩ : World D K α) := .refl

/-- **A schedule**: the sessions, in the order they go on. -/
theorem Reachable.schedule [DecidableEq K] (h : Reachable starts d w) (turns : List ℕ) :
    Reachable starts d (turns.foldl World.advance w) := by
  induction turns generalizing w with
  | nil => exact h
  | cons i turns ih => exact ih (h.advance i)

/-- Whether what a session does next is a commit. -/
def World.commits (w : World D K α) (i : ℕ) : Bool :=
  match w.sessions[i]? with
  | none => false
  | some s =>
    match s.program with
    | .done _ => true
    | _ => false

/-- Whether no session commits in a schedule. -/
def World.quiet [DecidableEq K] (w : World D K α) : List ℕ → Bool
  | [] => true
  | i :: turns => !w.commits i && (w.advance i).quiet turns

/-- What is no commit leaves the data. -/
theorem advance_data [DecidableEq K] (h : w.commits i = false) : (w.advance i).data = w.data := by
  unfold World.commits at h
  unfold World.advance
  split
  · rfl
  · next s hs =>
    rw [hs] at h
    split
    · next hprogram =>
      simp only [hprogram] at h
      cases h
    · rfl
    · rfl
    · split_ifs <;> rfl
    · rfl

section

variable {C : α → D → Prop}

theorem ReachableIf.started (h : ReachableIf starts C d w) {p : Transaction D K α}
    (hp : starts p) : ReachableIf starts C d (w.started p) :=
  h.tail (.quiet (.start hp) rfl)

/-- **A schedule without a commit** meets every condition. -/
theorem ReachableIf.schedule [DecidableEq K] (h : ReachableIf starts C d w) {turns : List ℕ}
    (hquiet : w.quiet turns = true) : ReachableIf starts C d (turns.foldl World.advance w) := by
  induction turns generalizing w with
  | nil => exact h
  | cons i turns ih =>
    obtain ⟨hcommits, hrest⟩ := Bool.and_eq_true_iff.mp hquiet
    rw [Bool.not_eq_true'] at hcommits
    refine ih ?_ hrest
    obtain hsame | hstep := step_advance starts w i
    · rw [hsame]
      exact h
    · exact h.tail (.quiet hstep (advance_data hcommits))

/-- A commit that meets the condition. -/
theorem ReachableIf.commit (h : ReachableIf starts C d w) {a : α} (hs : w.sessions[i]? = some s)
    (hprogram : s.program = .done a) (hmeets : C a w.data) :
    ReachableIf starts C d { w.put i Session.ended with data := s.writes w.data } :=
  h.tail (.commit hs hprogram hmeets)

end

end RowLocks
