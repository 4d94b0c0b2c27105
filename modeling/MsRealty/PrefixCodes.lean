import Mathlib.Data.List.Basic

/-!
# Texts that end by themselves

A code writes a value as a text. A value *ends by itself* among the texts of a
code if its text, followed by anything, is the beginning of no text of another
value: whoever reads on knows where it stops, and what it was. Some texts need
to know what follows – a numeral ends where no digit does – so what may follow
is a predicate `ends` of the rest; and a code may write several values alike, so
what is known of a value is a relation `same`.

`EndsItself` says it of one value, so that it may be used at the members of a
recursive structure. The rules say how it composes: runs of symbols, pairs, and
runs of texts with separators.
-/

namespace PrefixCodes

variable {α β γ : Type*}

/-- **The value `a` ends by itself** among the texts of `enc`, before the rests
that satisfy `ends`. -/
def EndsItself (same : α → α → Prop) (ends : List β → Prop) (enc : α → List β) (a : α) : Prop :=
  ∀ b r s, ends r → ends s → enc a ++ r = enc b ++ s → same a b ∧ r = s

/-- Anything may follow. -/
def Anything : List β → Prop := fun _ => True

namespace EndsItself

variable {ends : List β → Prop} {enc : α → List β} {a : α}

/-- **A run of some symbols** ends where another symbol follows. -/
theorem of_run {p : β → Bool} (hinj : Function.Injective enc)
    (hrun : ∀ a, ∀ x ∈ enc a, p x = true) (a : α) :
    EndsItself Eq (fun r => ∀ x ∈ r.head?, p x = false) enc a := by
  have hpart : ∀ (xs ys r s : List β), (∀ x ∈ xs, p x = true) → (∀ y ∈ ys, p y = true) →
      (∀ x ∈ r.head?, p x = false) → (∀ x ∈ s.head?, p x = false) → xs ++ r = ys ++ s →
      xs = ys ∧ r = s := by
    intro xs
    induction xs with
    | nil =>
      intro ys r s _ hys hr _ heq
      cases ys with
      | nil => exact ⟨rfl, heq⟩
      | cons y ys =>
        obtain rfl : r = y :: ys ++ s := heq
        have hy := hys y List.mem_cons_self
        rw [hr y rfl] at hy
        cases hy
    | cons x xs ih =>
      intro ys r s hxs hys hr hs heq
      cases ys with
      | nil =>
        obtain rfl : x :: xs ++ r = s := heq
        have hx := hxs x List.mem_cons_self
        rw [hs x rfl] at hx
        cases hx
      | cons y ys =>
        obtain ⟨rfl, hrest⟩ := List.cons.inj heq
        obtain ⟨rfl, rfl⟩ := ih ys r s (List.forall_mem_cons.mp hxs).2
          (List.forall_mem_cons.mp hys).2 hr hs hrest
        exact ⟨rfl, rfl⟩
  intro b r s hr hs heq
  obtain ⟨htext, hrest⟩ := hpart _ _ r s (hrun a) (hrun b) hr hs heq
  exact ⟨hinj htext, hrest⟩

/-- **A pair**: the first text, a symbol, and the second. -/
theorem pair {same : α → α → Prop} {same₂ : γ → γ → Prop} {enc₂ : γ → List β} {c : γ} {sep : β}
    (h : EndsItself same Anything enc a) (h₂ : EndsItself same₂ ends enc₂ c) :
    EndsItself (fun p q => same p.fst q.fst ∧ same₂ p.snd q.snd) ends
      (fun p : α × γ => enc p.fst ++ sep :: enc₂ p.snd) (a, c) := by
  rintro ⟨b, d⟩ r s hr hs heq
  simp only [List.append_assoc, List.cons_append] at heq
  obtain ⟨hsame, hrest⟩ := h b _ _ trivial trivial heq
  obtain ⟨hsame₂, rfl⟩ := h₂ d r s hr hs (List.cons.inj hrest).2
  exact ⟨⟨hsame, hsame₂⟩, rfl⟩

end EndsItself

/-! ## Runs of texts -/

/-- The texts of a run after its first, each with a separator before it. -/
def followed (sep close : β) (enc : α → List β) : List α → List β
  | [] => [close]
  | a :: values => sep :: enc a ++ followed sep close enc values

/-- **A run of texts with separators and a closing symbol.** -/
def separated (sep close : β) (enc : α → List β) : List α → List β
  | [] => [close]
  | a :: values => enc a ++ followed sep close enc values

variable {sep close : β} {same : α → α → Prop} {enc : α → List β} {ends : List β → Prop}

/-- What follows a text of a run may follow it. -/
theorem ends_followed (hsep : ∀ r, ends (sep :: r)) (hclose : ∀ r, ends (close :: r))
    (values : List α) (r : List β) : ends (followed sep close enc values ++ r) := by
  cases values with
  | nil => exact hclose r
  | cons a values =>
    simp only [followed, List.cons_append]
    exact hsep _

theorem endsItself_followed (hne : sep ≠ close) (hsep : ∀ r, ends (sep :: r))
    (hclose : ∀ r, ends (close :: r)) {values : List α}
    (h : ∀ a ∈ values, EndsItself same ends enc a) :
    EndsItself (List.Forall₂ same) Anything (followed sep close enc) values := by
  induction values with
  | nil =>
    intro others r s _ _ heq
    cases others with
    | nil => exact ⟨.nil, (List.cons.inj heq).2⟩
    | cons b others => exact absurd (List.cons.inj heq).1 hne.symm
  | cons a values ih =>
    intro others r s _ _ heq
    cases others with
    | nil => exact absurd (List.cons.inj heq).1 hne
    | cons b others =>
      simp only [followed, List.cons_append, List.append_assoc, List.cons.injEq, true_and] at heq
      obtain ⟨hsame, hrest⟩ := h a List.mem_cons_self b _ _ (ends_followed hsep hclose _ _)
        (ends_followed hsep hclose _ _) heq
      obtain ⟨hall, rfl⟩ := ih (fun c hc => h c (List.mem_cons_of_mem a hc)) others r s trivial
        trivial hrest
      exact ⟨.cons hsame hall, rfl⟩

/-- **A run with separators ends by itself** if its texts do before a separator
and before the end, and none begins with the closing symbol. -/
theorem endsItself_separated (hne : sep ≠ close) (hsep : ∀ r, ends (sep :: r))
    (hclose : ∀ r, ends (close :: r)) (hbegins : ∀ a r s, enc a ++ r ≠ close :: s)
    {values : List α} (h : ∀ a ∈ values, EndsItself same ends enc a) :
    EndsItself (List.Forall₂ same) Anything (separated sep close enc) values := by
  intro others r s _ _ heq
  cases values with
  | nil =>
    cases others with
    | nil => exact ⟨.nil, (List.cons.inj heq).2⟩
    | cons b others =>
      simp only [separated, List.append_assoc] at heq
      exact absurd heq.symm (hbegins b _ _)
  | cons a values =>
    cases others with
    | nil =>
      simp only [separated, List.append_assoc] at heq
      exact absurd heq (hbegins a _ _)
    | cons b others =>
      simp only [separated, List.append_assoc] at heq
      obtain ⟨hsame, hrest⟩ := h a List.mem_cons_self b _ _ (ends_followed hsep hclose _ _)
        (ends_followed hsep hclose _ _) heq
      obtain ⟨hall, rfl⟩ := endsItself_followed hne hsep hclose
        (fun c hc => h c (List.mem_cons_of_mem a hc)) others r s trivial trivial hrest
      exact ⟨.cons hsame hall, rfl⟩

/-- A run with separators is its texts joined, and closed. -/
theorem separated_eq (values : List α) :
    separated sep close enc values = [sep].intercalate (values.map enc) ++ [close] := by
  have hfollowed : ∀ values : List α, followed sep close enc values
      = (values.map enc).flatMap (fun text => sep :: text) ++ [close] := by
    intro values
    induction values with
    | nil => rfl
    | cons a values ih =>
      rw [followed, ih, List.map_cons, List.flatMap_cons, List.append_assoc, List.cons_append]
  have hjoin : ∀ (text : List β) (texts : List (List β)), [sep].intercalate (text :: texts)
      = text ++ texts.flatMap (fun t => sep :: t) := by
    intro text texts
    induction texts generalizing text with
    | nil => simp
    | cons t texts ih =>
      rw [List.intercalate_cons_cons, ih, List.flatMap_cons]
      simp
  cases values with
  | nil => rfl
  | cons a values => rw [separated, hfollowed, List.map_cons, hjoin, List.append_assoc]

end PrefixCodes
