import Mathlib.Logic.Relation
import Mathlib.Tactic.SplitIfs

/-!
# Programs that may be cut short

A program performs operations on a world and continues with their answers. It
ends with a value, or it fails; and it may be cut short before any of its
operations, by a crash. A run of a program is therefore any initial part of an
execution (`Prog.Runs`).

What a program guarantees is stated once for all its initial parts
(`Prog.Ok`): whatever the answers, every operation is a step of some relation,
and what the program ends with satisfies some condition. So if every program
of a system only takes the steps of an abstract machine, an invariant of the
machine holds at every moment of every execution, crashes included
(`Prog.Ok.of_runs`).

Where the answers are determined, a program is evaluated (`Prog.eval`).
-/

/-- **A program**: it ends with a value, it fails, or it performs an operation
and continues with the answer. -/
inductive Prog (Op : Type) (Ans : Op → Type) (α : Type) : Type where
  | done (a : α)
  | fail
  | perform (op : Op) (next : Ans op → Prog Op Ans α)

namespace Prog

variable {Op : Type} {Ans : Op → Type} {α β : Type}

/-- One program after the other. -/
def bind : Prog Op Ans α → (α → Prog Op Ans β) → Prog Op Ans β
  | done a, f => f a
  | fail, _ => fail
  | perform op next, f => perform op (fun r => (next r).bind f)

instance : Monad (Prog Op Ans) where
  pure := done
  bind := bind

/-- **Catches a failure.** -/
def attempt : Prog Op Ans α → Prog Op Ans (Option α)
  | done a => done (some a)
  | fail => done none
  | perform op next => perform op (fun r => (next r).attempt)

/-- Performs one operation. -/
def op (op : Op) : Prog Op Ans (Ans op) := perform op done

/-- Fails unless a condition holds. -/
def demand (p : Prop) [Decidable p] : Prog Op Ans Unit := if p then done () else fail

/-- The value that is required. -/
def required : Option α → Prog Op Ans α
  | some a => done a
  | none => fail

theorem bind_eq (p : Prog Op Ans α) (f : α → Prog Op Ans β) : p >>= f = p.bind f := rfl

/-- One program after another, after a third: the order they are put together in
does not matter. -/
theorem bind_assoc {γ : Type} (p : Prog Op Ans α) (f : α → Prog Op Ans β)
    (g : β → Prog Op Ans γ) : p >>= f >>= g = p >>= fun a => f a >>= g := by
  simp only [bind_eq]
  induction p with
  | done a => rfl
  | fail => rfl
  | perform op next ih => exact congrArg (perform op) (funext ih)

/-! ## Runs -/

section

variable {W : Type}

/-- **A run of a program**, from a world to what is left of the program and
the world there. What an operation may answer is a relation. -/
inductive Runs (act : (op : Op) → W → Ans op → W → Prop) :
    Prog Op Ans α → W → Prog Op Ans α → W → Prop
  | refl (p : Prog Op Ans α) (w : W) : Runs act p w p w
  | perform {op : Op} {next : Ans op → Prog Op Ans α} {r : Ans op} {w w' w'' : W}
      {p : Prog Op Ans α} : act op w r w' → Runs act (next r) w' p w'' →
      Runs act (perform op next) w p w''

variable {act : (op : Op) → W → Ans op → W → Prop} {G : W → W → Prop}

/-- **A program is safe in a world**: every operation is a step of `G`, and
what it ends with – no value, if it fails – satisfies `Q`. -/
def Ok (act : (op : Op) → W → Ans op → W → Prop) (G : W → W → Prop) :
    (Option α → W → Prop) → Prog Op Ans α → W → Prop
  | Q, done a, w => Q (some a) w
  | Q, fail, w => Q none w
  | Q, perform op next, w => ∀ r w', act op w r w' → G w w' ∧ Ok act G Q (next r) w'

variable {Q Q' : Option α → W → Prop} {R : Option β → W → Prop} {w : W}

theorem Ok.mono {p : Prog Op Ans α} (h : Ok act G Q p w) (hQ : ∀ r w', Q r w' → Q' r w') :
    Ok act G Q' p w := by
  induction p generalizing w with
  | done a => exact hQ _ _ h
  | fail => exact hQ _ _ h
  | perform op next ih => exact fun r w' hact => ⟨(h r w' hact).1, ih r (h r w' hact).2⟩

/-- **The rule of composition.** -/
theorem Ok.bind {p : Prog Op Ans α} {f : α → Prog Op Ans β} (h : Ok act G Q p w)
    (hsome : ∀ a w', Q (some a) w' → Ok act G R (f a) w')
    (hnone : ∀ w', Q none w' → R none w') : Ok act G R (p >>= f) w := by
  rw [bind_eq]
  induction p generalizing w with
  | done a => exact hsome a w h
  | fail => exact hnone w h
  | perform op next ih => exact fun r w' hact => ⟨(h r w' hact).1, ih r (h r w' hact).2⟩

/-- **The rule of a caught failure.** -/
theorem Ok.attempt {p : Prog Op Ans α} {R : Option (Option α) → W → Prop}
    (h : Ok act G Q p w) (hQ : ∀ r w', Q r w' → R (some r) w') : Ok act G R p.attempt w := by
  induction p generalizing w with
  | done a => exact hQ _ _ h
  | fail => exact hQ _ _ h
  | perform op next ih => exact fun r w' hact => ⟨(h r w' hact).1, ih r (h r w' hact).2⟩

/-- A program that ends in one way: what follows starts from there. -/
theorem Ok.bind_eq {p : Prog Op Ans α} {f : α → Prog Op Ans β} {a : α} {w₁ : W}
    (h : Ok act G (fun r w' => r = some a ∧ w' = w₁) p w) (hrest : Ok act G R (f a) w₁) :
    Ok act G R (p >>= f) w := by
  refine h.bind (fun b w' h => ?_) (fun w' h => nomatch h.1)
  obtain ⟨hb, rfl⟩ := h
  cases hb
  exact hrest

/-- A program that does not fail. -/
theorem Ok.bind_ends {P : W → Prop} {p : Prog Op Ans α} {f : α → Prog Op Ans β}
    (h : Ok act G (fun r w' => r ≠ none ∧ P w') p w)
    (hrest : ∀ a w', P w' → Ok act G R (f a) w') : Ok act G R (p >>= f) w :=
  h.bind (fun a w' h => hrest a w' h.2) (fun _ h => absurd rfl h.1)

/-- What follows a caught failure starts from either end. -/
theorem Ok.bind_attempt {p : Prog Op Ans α} {f : Option α → Prog Op Ans β} (h : Ok act G Q p w)
    (hrest : ∀ r w', Q r w' → Ok act G R (f r) w') : Ok act G R (p.attempt >>= f) w := by
  refine (h.attempt (R := fun r w' => ∃ x, r = some x ∧ Q x w') (fun r w' h => ⟨r, rfl, h⟩)).bind
    (fun r w' h => ?_) (fun w' h => ?_)
  · obtain ⟨x, hx, hQ⟩ := h
    cases hx
    exact hrest _ _ hQ
  · obtain ⟨x, hx, -⟩ := h
    cases hx

/-- The rule of a condition. -/
theorem Ok.demand {p : Prop} [Decidable p] {f : Unit → Prog Op Ans β}
    (htrue : p → Ok act G R (f ()) w) (hfalse : ¬ p → R none w) :
    Ok act G R (Prog.demand p >>= f) w := by
  unfold Prog.demand
  split_ifs with hp
  · exact htrue hp
  · exact hfalse hp

/-- The rule of a required value. -/
theorem Ok.required {value : Option α} {f : α → Prog Op Ans β}
    (hsome : ∀ a, value = some a → Ok act G R (f a) w) (hnone : R none w) :
    Ok act G R (Prog.required value >>= f) w := by
  cases value with
  | none => exact hnone
  | some a => exact hsome a rfl

/-- A value that is required last is what a program ends with. -/
theorem Ok.required_last {value : Option α} (h : Q value w) :
    Ok act G Q (Prog.required value) w := by
  cases value with
  | none => exact h
  | some a => exact h

/-- A condition that is demanded last. -/
theorem Ok.demand_last {p : Prop} [Decidable p] {Q : Option Unit → W → Prop}
    (htrue : p → Q (some ()) w) (hfalse : ¬ p → Q none w) :
    Ok act G Q (Prog.demand p : Prog Op Ans Unit) w := by
  unfold Prog.demand
  split_ifs with hp
  · exact htrue hp
  · exact hfalse hp

/-- **Where a program ends is reached** by the steps it takes. -/
theorem Ok.reaches {p : Prog Op Ans α} (h : Ok act (Relation.ReflTransGen G) Q p w) :
    Ok act (Relation.ReflTransGen G) (fun r w' => Q r w' ∧ Relation.ReflTransGen G w w') p w := by
  induction p generalizing w with
  | done a => exact ⟨h, .refl⟩
  | fail => exact ⟨h, .refl⟩
  | perform op next ih =>
    intro r w' hact
    obtain ⟨hsteps, hrest⟩ := h r w' hact
    exact ⟨hsteps, (ih r hrest).mono (fun _ _ h => ⟨h.1, hsteps.trans h.2⟩)⟩

/-! ### Programs of which only the steps matter -/

section Steps

variable {p : Prog Op Ans α}

theorem Ok.steps (h : Ok act G Q p w) : Ok act G (fun _ _ => True) p w :=
  h.mono (fun _ _ _ => trivial)

theorem Ok.bind_steps {f : α → Prog Op Ans β} (h : Ok act G Q p w)
    (hsome : ∀ a w', Q (some a) w' → Ok act G (fun _ _ => True) (f a) w') :
    Ok act G (fun _ _ => True) (p >>= f) w :=
  h.bind hsome (fun _ _ => trivial)

theorem Ok.demand_steps {p : Prop} [Decidable p] {f : Unit → Prog Op Ans β}
    (htrue : p → Ok act G (fun _ _ => True) (f ()) w) :
    Ok act G (fun _ _ => True) (Prog.demand p >>= f) w :=
  Ok.demand htrue (fun _ => trivial)

theorem Ok.required_steps {value : Option α} {f : α → Prog Op Ans β}
    (hsome : ∀ a, value = some a → Ok act G (fun _ _ => True) (f a) w) :
    Ok act G (fun _ _ => True) (Prog.required value >>= f) w :=
  Ok.required hsome trivial

end Steps

/-- **At every moment of a run** of a safe program only steps of `G` have been
taken, and what is left is safe. -/
theorem Ok.of_runs {p p' : Prog Op Ans α} {w' : W} (hruns : Runs act p w p' w')
    (h : Ok act G Q p w) : Relation.ReflTransGen G w w' ∧ Ok act G Q p' w' := by
  induction hruns with
  | refl p w => exact ⟨.refl, h⟩
  | perform hact _ ih =>
    obtain ⟨hstep, hrest⟩ := h _ _ hact
    obtain ⟨hsteps, hleft⟩ := ih hrest
    exact ⟨.head hstep hsteps, hleft⟩

/-- **A program can end so**: some answers let it end with `Q`. -/
def Can (act : (op : Op) → W → Ans op → W → Prop) :
    (Option α → W → Prop) → Prog Op Ans α → W → Prop
  | Q, done a, w => Q (some a) w
  | Q, fail, w => Q none w
  | Q, perform op next, w => ∃ r w', act op w r w' ∧ Can act Q (next r) w'

theorem Can.bind {p : Prog Op Ans α} {f : α → Prog Op Ans β} (h : Can act Q p w)
    (hsome : ∀ a w', Q (some a) w' → Can act R (f a) w') (hnone : ∀ w', Q none w' → R none w') :
    Can act R (p >>= f) w := by
  rw [bind_eq]
  induction p generalizing w with
  | done a => exact hsome a w h
  | fail => exact hnone w h
  | perform op next ih =>
    obtain ⟨r, w', hact, hrest⟩ := h
    exact ⟨r, w', hact, ih r hrest⟩

theorem Can.attempt {p : Prog Op Ans α} {R : Option (Option α) → W → Prop}
    (h : Can act Q p w) (hQ : ∀ r w', Q r w' → R (some r) w') : Can act R p.attempt w := by
  induction p generalizing w with
  | done a => exact hQ _ _ h
  | fail => exact hQ _ _ h
  | perform op next ih =>
    obtain ⟨r, w', hact, hrest⟩ := h
    exact ⟨r, w', hact, ih r hrest⟩

/-- A condition that holds is passed. -/
theorem Can.demand {p : Prop} [Decidable p] {f : Unit → Prog Op Ans β} (hp : p)
    (h : Can act R (f ()) w) : Can act R (Prog.demand p >>= f) w := by
  rw [Prog.demand, if_pos hp]
  exact h

/-- The program with a value or a failure as what is left. -/
def ofResult : Option α → Prog Op Ans α
  | some a => done a
  | none => fail

/-- **What a program can do is a run** to its end. -/
theorem Can.runs {p : Prog Op Ans α} (h : Can act Q p w) :
    ∃ r w', Runs act p w (ofResult r) w' ∧ Q r w' := by
  induction p generalizing w with
  | done a => exact ⟨some a, w, .refl _ _, h⟩
  | fail => exact ⟨none, w, .refl _ _, h⟩
  | perform op next ih =>
    obtain ⟨r, w', hact, hrest⟩ := h
    obtain ⟨result, w'', hruns, hQ⟩ := ih r hrest
    exact ⟨result, w'', .perform hact hruns, hQ⟩

/-! ## Evaluation -/

/-- **Evaluates a program** where the answers are determined. -/
def eval (answer : (op : Op) → W → Ans op × W) : Prog Op Ans α → W → Option α × W
  | done a, w => (some a, w)
  | fail, w => (none, w)
  | perform op next, w => (next (answer op w).fst).eval answer (answer op w).snd

variable {answer : (op : Op) → W → Ans op × W}

/-- **An evaluation is a run** to the end, if the answers are possible. -/
theorem runs_eval (h : ∀ op w, act op w (answer op w).fst (answer op w).snd)
    (p : Prog Op Ans α) (w : W) :
    Runs act p w (ofResult (p.eval answer w).fst) (p.eval answer w).snd := by
  induction p generalizing w with
  | done a => exact .refl _ _
  | fail => exact .refl _ _
  | perform op next ih => exact .perform (h op w) (ih _ _)

end

end Prog
