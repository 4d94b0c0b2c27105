import Mathlib.Data.List.Basic

/-!
# State machines and guard decisions

The shared shape of every state machine of the domain
(`src/domain/state-machine.ts`): an exhaustive transition table and guard
decisions that are either allowed or denied with a code.
-/

/-- A guard's answer. -/
inductive Decision where
  /-- The step may be taken. -/
  | allowed
  /-- The step is refused, with a code for the reason. -/
  | denied (code : String)
  deriving DecidableEq

namespace Decision

/-- Runs checks in order and returns the first denial. -/
def firstDenial : List Decision → Decision
  | [] => .allowed
  | .allowed :: checks => firstDenial checks
  | .denied code :: _ => .denied code

/-- Denies with `code` when `condition` is false. -/
def need (condition : Bool) (code : String) : Decision :=
  if condition then .allowed else .denied code

@[simp] theorem need_eq_allowed {condition : Bool} {code : String} :
    need condition code = .allowed ↔ condition = true := by
  cases condition <;> simp [need]

/-- **All checks pass exactly when none denies.** -/
@[simp] theorem firstDenial_eq_allowed {checks : List Decision} :
    firstDenial checks = .allowed ↔ ∀ check ∈ checks, check = .allowed := by
  induction checks with
  | nil => simp [firstDenial]
  | cons check checks ih =>
    cases check with
    | allowed => simp [firstDenial, ih]
    | denied code => simp [firstDenial]

end Decision

/-- **A state machine**: its states and, for each state, its targets. -/
structure Machine (S : Type*) where
  /-- Every state. -/
  states : List S
  /-- The targets of each state, possibly none. -/
  transitions : S → List S

namespace Machine

variable {S : Type*} [DecidableEq S]

/-- Whether the machine allows a step: never to the state it is already in. -/
def check (m : Machine S) (source target : S) : Decision :=
  if source = target then .denied "no_change"
  else if target ∈ m.transitions source then .allowed
  else .denied "transition_not_allowed"

/-- A state with no target. -/
def isTerminal (m : Machine S) (state : S) : Bool :=
  (m.transitions state).isEmpty

/-- **An edge of the machine**: a step its check allows. -/
def Edge (m : Machine S) (source target : S) : Prop :=
  m.check source target = .allowed

instance (m : Machine S) (source target : S) : Decidable (m.Edge source target) :=
  inferInstanceAs (Decidable (_ = _))

theorem edge_iff {m : Machine S} {source target : S} :
    m.Edge source target
      ↔ source ≠ target ∧ target ∈ m.transitions source := by
  unfold Edge check
  split_ifs <;> simp_all

/-- No edge leaves a terminal state. -/
theorem not_edge_of_isTerminal {m : Machine S} {state target : S}
    (h : m.isTerminal state = true) : ¬ m.Edge state target := by
  rw [edge_iff]
  intro hedge
  rw [isTerminal, List.isEmpty_iff] at h
  rw [h] at hedge
  exact absurd hedge.2 List.not_mem_nil

end Machine
