import Mathlib.Data.List.Pairwise
import Mathlib.Data.List.Basic

/-!
# Runs of an event-driven system

A serialised system is a step function: it takes a state and an event and
answers with an output and the next state. Everything that can differ
between two executions – which transaction commits next, what a clock or a
remote party says – is part of the event, so a run is a list of events and
an interleaving is one such list.

`Runs.history` lists the *moments* of a run, each with the states around it.
A safety law is then about the members of the history, and a temporal law
("once …, never again …") about its pairs of an earlier and a later moment,
which is `List.Pairwise`. The three rules of this module turn each kind of
law into an obligation about one step:

* `Runs.history_invariant` – what every step keeps holds around every moment;
* `Runs.history_pairwise` – what a moment establishes and every later step
  keeps may be used at every later moment;
* `Runs.countP_history_le` – a potential that pays for every marked moment
  bounds how many there are.

Each rule takes a predicate `E` the events of the run satisfy, for laws that
hold only of runs whose steps all meet a condition.
-/

namespace Runs

variable {σ ε ω : Type*}

/-- **A moment of a run**: an event, the state it met, what it answered and
the state it left. -/
structure Moment (σ ε ω : Type*) where
  /-- The state the event met. -/
  before : σ
  /-- The event. -/
  event : ε
  /-- What the system answered. -/
  output : ω
  /-- The state the event left. -/
  after : σ

/-- The moment at which `step` meets the event `e` in the state `s`. -/
def moment (step : σ → ε → σ × ω) (s : σ) (e : ε) : Moment σ ε ω :=
  ⟨s, e, (step s e).snd, (step s e).fst⟩

/-- **The history of a run**: one moment per event, in order. -/
def history (step : σ → ε → σ × ω) : σ → List ε → List (Moment σ ε ω)
  | _, [] => []
  | s, e :: es => moment step s e :: history step (step s e).fst es

/-- The state a run ends in. -/
def final (step : σ → ε → σ × ω) : σ → List ε → σ
  | s, [] => s
  | s, e :: es => final step (step s e).fst es

variable {step : σ → ε → σ × ω}

@[simp] theorem history_nil (s : σ) : history step s [] = [] := rfl

@[simp] theorem history_cons (s : σ) (e : ε) (es : List ε) :
    history step s (e :: es)
      = moment step s e :: history step (step s e).fst es := rfl

@[simp] theorem final_nil (s : σ) : final step s [] = s := rfl

@[simp] theorem final_cons (s : σ) (e : ε) (es : List ε) :
    final step s (e :: es) = final step (step s e).fst es := rfl

/-- The events of the history are the events of the run. -/
theorem map_event_history (s : σ) (es : List ε) :
    (history step s es).map Moment.event = es := by
  induction es generalizing s with
  | nil => rfl
  | cons e es ih => rw [history_cons, List.map_cons, ih]; rfl

/-- Every member of a history is a step of the system. -/
theorem eq_moment_of_mem {s : σ} {es : List ε} {m : Moment σ ε ω}
    (h : m ∈ history step s es) : m = moment step m.before m.event := by
  induction es generalizing s with
  | nil => exact absurd h List.not_mem_nil
  | cons e es ih =>
    rcases List.mem_cons.mp h with rfl | h
    · rfl
    · exact ih h

/-- Every member of a history is about an event of the run. -/
theorem event_mem {s : σ} {es : List ε} {m : Moment σ ε ω}
    (h : m ∈ history step s es) : m.event ∈ es := by
  have hm : m.event ∈ (history step s es).map Moment.event :=
    List.mem_map_of_mem h
  rwa [map_event_history] at hm

/-! ## Longer runs -/

theorem final_append (s : σ) (es es' : List ε) :
    final step s (es ++ es') = final step (final step s es) es' := by
  induction es generalizing s with
  | nil => rfl
  | cons e es ih => exact ih _

theorem history_append (s : σ) (es es' : List ε) :
    history step s (es ++ es') = history step s es ++ history step (final step s es) es' := by
  induction es generalizing s with
  | nil => rfl
  | cons e es ih => rw [List.cons_append, history_cons, history_cons, ih, final_cons,
      List.cons_append]

/-! ## Invariants -/

/-- **`P` is kept by every step** whose event satisfies `E`. -/
def Keeps (step : σ → ε → σ × ω) (E : ε → Prop) (P : σ → Prop) : Prop :=
  ∀ s e, E e → P s → P (step s e).fst

variable {E : ε → Prop} {P : σ → Prop}

/-- **The invariant rule**, where what keeps `P` is a condition on the moment: what
holds at the start holds at the end, and before and after every moment. -/
theorem history_of_moments {C : Moment σ ε ω → Prop}
    (hstep : ∀ s e, C (moment step s e) → P s → P (step s e).fst) {s : σ} {es : List ε}
    (hC : ∀ m ∈ history step s es, C m) (h : P s) :
    P (final step s es) ∧ ∀ m ∈ history step s es, P m.before ∧ P m.after := by
  induction es generalizing s with
  | nil => exact ⟨h, fun m hm => absurd hm List.not_mem_nil⟩
  | cons e es ih =>
    obtain ⟨hfirst, hrest⟩ := List.forall_mem_cons.mp hC
    have hnext : P (step s e).fst := hstep s e hfirst h
    obtain ⟨hfinal, hmoments⟩ := ih hrest hnext
    refine ⟨hfinal, fun m hm => ?_⟩
    rcases List.mem_cons.mp hm with rfl | hm
    · exact ⟨h, hnext⟩
    · exact hmoments m hm

/-- **The invariant rule**, for the state a run ends in. -/
theorem final_invariant (hkeep : Keeps step E P) {s : σ} {es : List ε}
    (hE : ∀ e ∈ es, E e) (h : P s) : P (final step s es) :=
  (history_of_moments (C := fun m => E m.event) hkeep (fun _ hm => hE _ (event_mem hm)) h).1

/-- **The invariant rule**: what holds at the start and is kept by every
step holds before and after every moment. -/
theorem history_invariant (hkeep : Keeps step E P) {s : σ} {es : List ε}
    (hE : ∀ e ∈ es, E e) (h : P s) :
    ∀ m ∈ history step s es, P m.before ∧ P m.after :=
  (history_of_moments (C := fun m => E m.event) hkeep (fun _ hm => hE _ (event_mem hm)) h).2

/-- The invariant rule, for a law about single moments: it may be proved of
one step from a state that satisfies the invariant. -/
theorem history_forall {R : Moment σ ε ω → Prop} (hkeep : Keeps step E P)
    (hR : ∀ s e, E e → P s → R (moment step s e)) {s : σ} {es : List ε}
    (hE : ∀ e ∈ es, E e) (h : P s) : ∀ m ∈ history step s es, R m := by
  intro m hm
  have hbefore := (history_invariant hkeep hE h m hm).1
  rw [eq_moment_of_mem hm]
  exact hR m.before m.event (hE _ (event_mem hm)) hbefore

/-- **The invariant rule with an account**: what relates a state to the answers
so far, and is kept by every step, relates the end to all the answers. -/
theorem final_outputs {Q : σ → List ω → Prop}
    (hstep : ∀ s outputs e, E e → Q s outputs →
      Q (step s e).fst (outputs ++ [(step s e).snd])) {s : σ} {outputs : List ω} {es : List ε}
    (hE : ∀ e ∈ es, E e) (h : Q s outputs) :
    Q (final step s es) (outputs ++ (history step s es).map Moment.output) := by
  induction es generalizing s outputs with
  | nil => rwa [history_nil, List.map_nil, List.append_nil]
  | cons e es ih =>
    obtain ⟨he, hes⟩ := List.forall_mem_cons.mp hE
    have hrest := ih hes (hstep s outputs e he h)
    rwa [List.append_assoc] at hrest

/-- **What every step relates** is related from every moment to the end. -/
theorem related_final {R : σ → σ → Prop} (hrefl : ∀ s, R s s)
    (htrans : ∀ s t u, R s t → R t u → R s u) (hstep : ∀ s e, E e → R s (step s e).fst)
    {s : σ} {es : List ε} (hE : ∀ e ∈ es, E e) :
    R s (final step s es) ∧ ∀ m ∈ history step s es, R m.before m.after ∧
      R m.after (final step s es) := by
  induction es generalizing s with
  | nil => exact ⟨hrefl s, fun m hm => absurd hm List.not_mem_nil⟩
  | cons e es ih =>
    obtain ⟨he, hes⟩ := List.forall_mem_cons.mp hE
    obtain ⟨hrest, hmoments⟩ := ih (s := (step s e).fst) hes
    refine ⟨htrans _ _ _ (hstep s e he) hrest, fun m hm => ?_⟩
    rcases List.mem_cons.mp hm with rfl | hm
    · exact ⟨hstep s e he, hrest⟩
    · exact hmoments m hm

/-! ## Laws about an earlier and a later moment -/

/-- What a state satisfies and every step keeps may be used at every moment
of the run that starts there. -/
theorem history_of_stable {Q : σ → Prop} {R : Moment σ ε ω → Prop}
    (hkeep : Keeps step E P)
    (hstable : ∀ s e, E e → P s → Q s → Q (step s e).fst)
    (huse : ∀ s e, E e → P s → Q s → R (moment step s e))
    {s : σ} {es : List ε} (hE : ∀ e ∈ es, E e) (h : P s) (hQ : Q s) :
    ∀ m ∈ history step s es, R m :=
  history_forall (P := fun s => P s ∧ Q s)
    (fun s e he hs => ⟨hkeep s e he hs.1, hstable s e he hs.1 hs.2⟩)
    (fun s e he hs => huse s e he hs.1 hs.2) hE ⟨h, hQ⟩

/-- **The temporal rule.** `Q m` is what the moment `m` establishes and every
later step keeps; it may be used at every later moment. -/
theorem history_pairwise {Q : Moment σ ε ω → σ → Prop}
    {R : Moment σ ε ω → Moment σ ε ω → Prop} (hkeep : Keeps step E P)
    (hstart : ∀ s e, E e → P s → Q (moment step s e) (step s e).fst)
    (hstable : ∀ m s e, E e → P s → Q m s → Q m (step s e).fst)
    (huse : ∀ m s e, E e → P s → Q m s → R m (moment step s e))
    {s : σ} {es : List ε} (hE : ∀ e ∈ es, E e) (h : P s) :
    (history step s es).Pairwise R := by
  induction es generalizing s with
  | nil => exact List.Pairwise.nil
  | cons e es ih =>
    obtain ⟨he, hes⟩ := List.forall_mem_cons.mp hE
    have hnext : P (step s e).fst := hkeep s e he h
    refine List.pairwise_cons.mpr ⟨?_, ih hes hnext⟩
    exact history_of_stable hkeep (hstable (moment step s e))
      (huse (moment step s e)) hes hnext (hstart s e he h)

/-- **The rule of origins**: what a step can only find or bring about itself, and
holds at a moment, held at the start or was brought about by an earlier moment. -/
theorem history_origin {Q : σ → Prop} {A : Moment σ ε ω → Prop}
    (hstep : ∀ s e, Q (step s e).fst → Q s ∨ A (moment step s e)) {s : σ} {es : List ε}
    {past future : List (Moment σ ε ω)} {m : Moment σ ε ω}
    (hsplit : history step s es = past ++ m :: future) (h : Q m.before) :
    Q s ∨ ∃ m₀ ∈ past, A m₀ := by
  induction past generalizing s es with
  | nil =>
    cases es with
    | nil => cases hsplit
    | cons e es =>
      obtain ⟨rfl, -⟩ := List.cons.inj hsplit
      exact Or.inl h
  | cons m₁ past ih =>
    cases es with
    | nil => cases hsplit
    | cons e es =>
      obtain ⟨rfl, hrest⟩ := List.cons.inj hsplit
      rcases ih hrest with hnext | ⟨m₀, hm₀, hA⟩
      · exact (hstep s e hnext).imp_right (fun hA => ⟨_, List.mem_cons_self, hA⟩)
      · exact Or.inr ⟨m₀, List.mem_cons_of_mem _ hm₀, hA⟩

/-- **The counting rule.** If every step pays one unit of the potential `φ`
for a marked moment and never raises it otherwise, a run has at most as many
marked moments as the potential of its start. -/
theorem countP_history_le (φ : σ → ℕ) (p : Moment σ ε ω → Bool)
    (hkeep : Keeps step E P)
    (hpay : ∀ s e, E e → P s →
      φ (step s e).fst + (if p (moment step s e) then 1 else 0) ≤ φ s)
    {s : σ} {es : List ε} (hE : ∀ e ∈ es, E e) (h : P s) :
    (history step s es).countP p ≤ φ s := by
  induction es generalizing s with
  | nil => exact Nat.zero_le _
  | cons e es ih =>
    obtain ⟨he, hes⟩ := List.forall_mem_cons.mp hE
    have hrest := ih hes (hkeep s e he h)
    have hstep := hpay s e he h
    rw [history_cons, List.countP_cons]
    omega

end Runs
