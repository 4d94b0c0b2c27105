import Mathlib.Data.List.Basic

/-!
# Patterns that are tried in order

Regular expressions as a backtracking matcher reads them. A pattern is tried at
a place of a text, which has something before it and something after it, and
its *ways* to match there are listed in the order in which they are tried; the
first one counts. A text is searched for all its matches from the left, and is
the *pieces* found: the matches, and what is kept between them.

Two facts carry what is proved of searches. A pattern that takes only some
characters, and looks at nothing else, matches the same way whatever follows a
character it does not take (`ways_append_of_not`), so such a character separates
the matches (`matchAll_append_of_not`). And the pieces up to the first match are
what is kept, then the match (`pieces_cases`).
-/

namespace Patterns

variable {α : Type*}

/-! ## Patterns -/

/-- **A pattern** over an alphabet. -/
inductive Pattern (α : Type*) where
  | empty
  | one (p : α → Bool)
  /-- An assertion on what is before the place, the nearest first, and after it. -/
  | check (p : List α → List α → Bool)
  | seq (r s : Pattern α)
  | alt (r s : Pattern α)
  | star (r : Pattern α)

/-- The ways of a pattern and then of another, where each one leaves off. -/
def andThen (ways : List (List α × List α)) (next : List α → List α → List (List α × List α))
    (before : List α) : List (List α × List α) :=
  ways.flatMap (fun w => (next (w.1.reverse ++ before) w.2).map (fun w' => (w.1 ++ w'.1, w'.2)))

/-- The ways to match any number of times, as many times as possible first. A
time that takes nothing is not tried. -/
def repeatWays (ways : List α → List α → List (List α × List α)) :
    ℕ → List α → List α → List (List α × List α)
  | 0, _, after => [([], after)]
  | n + 1, before, after =>
    andThen ((ways before after).filter (fun w => !w.1.isEmpty)) (repeatWays ways n) before
      ++ [([], after)]

/-- **The ways of a pattern** at a place: what it takes, and what is left. -/
def Pattern.ways : Pattern α → List α → List α → List (List α × List α)
  | .empty, _, after => [([], after)]
  | .one _, _, [] => []
  | .one p, _, c :: cs => if p c then [([c], cs)] else []
  | .check p, before, after => if p before after then [([], after)] else []
  | .seq r s, before, after => andThen (r.ways before after) s.ways before
  | .alt r s, before, after => r.ways before after ++ s.ways before after
  | .star r, before, after => repeatWays r.ways after.length before after

namespace Pattern

/-- Once or more. -/
def plus (r : Pattern α) : Pattern α := .seq r (.star r)

/-- Once or not at all. -/
def opt (r : Pattern α) : Pattern α := .alt r .empty

/-- A text as it is. -/
def word [DecidableEq α] : List α → Pattern α
  | [] => .empty
  | c :: cs => .seq (.one (fun d => d = c)) (word cs)

end Pattern

/-! ## Searching -/

/-- A piece of a searched text. -/
inductive Piece (α : Type*) where
  | kept (c : α)
  | matched (m : List α)

/-- The pieces of a text from a place on. After a match of nothing the search
goes on at the next place. -/
def piecesFrom (r : Pattern α) : ℕ → List α → List α → List (Piece α)
  | 0, _, _ => []
  | n + 1, before, after =>
    match (r.ways before after).head?, after with
    | some ([], _), [] => [.matched []]
    | some ([], _), c :: cs => .matched [] :: .kept c :: piecesFrom r n (c :: before) cs
    | some (c :: m, rest), _ =>
      .matched (c :: m) :: piecesFrom r n ((c :: m).reverse ++ before) rest
    | none, [] => []
    | none, c :: cs => .kept c :: piecesFrom r n (c :: before) cs

/-- **The pieces of a text.** -/
def pieces (r : Pattern α) (text : List α) : List (Piece α) :=
  piecesFrom r (text.length + 1) [] text

/-- The matches among pieces. -/
def matchedOf (ps : List (Piece α)) : List (List α) :=
  ps.filterMap (fun | .kept _ => none | .matched m => some m)

/-- Pieces with another text for each match. -/
def replacedOf (w : List α) (ps : List (Piece α)) : List α :=
  ps.flatMap (fun | .kept c => [c] | .matched _ => w)

/-- **All matches of a pattern** in a text. -/
def matchAll (r : Pattern α) (text : List α) : List (List α) := matchedOf (pieces r text)

/-- **A text with all its matches replaced.** -/
def replaceAll (r : Pattern α) (w text : List α) : List α := replacedOf w (pieces r text)

/-! ## Ways are parts of the text -/

theorem mem_andThen {ways : List (List α × List α)}
    {next : List α → List α → List (List α × List α)} {before m rest : List α} :
    (m, rest) ∈ andThen ways next before ↔ ∃ m₁ mid m₂, (m₁, mid) ∈ ways ∧
      (m₂, rest) ∈ next (m₁.reverse ++ before) mid ∧ m = m₁ ++ m₂ := by
  simp only [andThen, List.mem_flatMap, List.mem_map, Prod.exists, Prod.mk.injEq]
  constructor
  · rintro ⟨m₁, mid, hw, m₂, rest', hw', rfl, rfl⟩
    exact ⟨m₁, mid, m₂, hw, hw', rfl⟩
  · rintro ⟨m₁, mid, m₂, hw, hw', rfl⟩
    exact ⟨m₁, mid, hw, m₂, rest, hw', rfl, rfl⟩

theorem mem_repeatWays_append {ways : List α → List α → List (List α × List α)}
    (hways : ∀ before after m rest, (m, rest) ∈ ways before after → m ++ rest = after) {n : ℕ}
    {before after m rest : List α} (h : (m, rest) ∈ repeatWays ways n before after) :
    m ++ rest = after := by
  induction n generalizing before after m rest with
  | zero =>
    obtain ⟨rfl, rfl⟩ := Prod.mk.inj (List.mem_singleton.mp h)
    rfl
  | succ n ih =>
    rw [repeatWays, List.mem_append, mem_andThen, List.mem_singleton, Prod.mk.injEq] at h
    obtain ⟨m₁, mid, m₂, hw, hw', rfl⟩ | ⟨rfl, rfl⟩ := h
    · rw [List.append_assoc, ih hw', hways _ _ _ _ (List.mem_of_mem_filter hw)]
    · rfl

/-- **What a way takes and what it leaves** is the text after the place. -/
theorem append_of_mem_ways {r : Pattern α} {before after m rest : List α}
    (h : (m, rest) ∈ r.ways before after) : m ++ rest = after := by
  induction r generalizing before after m rest with
  | empty =>
    obtain ⟨rfl, rfl⟩ := Prod.mk.inj (List.mem_singleton.mp h)
    rfl
  | one p =>
    cases after with
    | nil => exact absurd h List.not_mem_nil
    | cons c cs =>
      rw [Pattern.ways] at h
      split_ifs at h with hc
      · obtain ⟨rfl, rfl⟩ := Prod.mk.inj (List.mem_singleton.mp h)
        rfl
      · exact absurd h List.not_mem_nil
  | check p =>
    rw [Pattern.ways] at h
    split_ifs at h with hp
    · obtain ⟨rfl, rfl⟩ := Prod.mk.inj (List.mem_singleton.mp h)
      rfl
    · exact absurd h List.not_mem_nil
  | seq r s ihr ihs =>
    obtain ⟨m₁, mid, m₂, hw, hw', rfl⟩ := mem_andThen.mp h
    rw [List.append_assoc, ihs hw', ihr hw]
  | alt r s ihr ihs =>
    obtain h | h := List.mem_append.mp h
    · exact ihr h
    · exact ihs h
  | star r ih => exact mem_repeatWays_append (fun _ _ _ _ => ih) h

/-! ## Patterns of some characters -/

/-- A pattern that takes only some characters, and looks at nothing else. -/
def Pattern.Within (p : α → Prop) : Pattern α → Prop
  | .empty => True
  | .one q => ∀ c, q c = true → p c
  | .check _ => False
  | .seq r s => r.Within p ∧ s.Within p
  | .alt r s => r.Within p ∧ s.Within p
  | .star r => r.Within p

/-- A pattern that takes at least one character. -/
def Pattern.takesSome : Pattern α → Bool
  | .empty => false
  | .one _ => true
  | .check _ => false
  | .seq r s => r.takesSome || s.takesSome
  | .alt r s => r.takesSome && s.takesSome
  | .star _ => false

theorem ne_nil_of_takesSome {r : Pattern α} (hr : r.takesSome = true)
    {before after m rest : List α} (h : (m, rest) ∈ r.ways before after) : m ≠ [] := by
  induction r generalizing before after m rest with
  | empty => cases hr
  | one p =>
    cases after with
    | nil => exact absurd h List.not_mem_nil
    | cons c cs =>
      rw [Pattern.ways] at h
      split_ifs at h with hc
      · obtain ⟨rfl, rfl⟩ := Prod.mk.inj (List.mem_singleton.mp h)
        exact List.cons_ne_nil _ _
      · exact absurd h List.not_mem_nil
  | check p => cases hr
  | seq r s ihr ihs =>
    obtain ⟨m₁, mid, m₂, hw, hw', rfl⟩ := mem_andThen.mp h
    obtain hr | hs := Bool.or_eq_true _ _ |>.mp hr
    · exact List.append_ne_nil_of_left_ne_nil (ihr hr hw) _
    · exact List.append_ne_nil_of_right_ne_nil _ (ihs hs hw')
  | alt r s ihr ihs =>
    obtain ⟨hr, hs⟩ := (Bool.and_eq_true _ _).mp hr
    obtain h | h := List.mem_append.mp h
    · exact ihr hr h
    · exact ihs hs h
  | star r ih => cases hr

/-- A way with more text after what it leaves. -/
def extend (more : List α) (w : List α × List α) : List α × List α := (w.1, w.2 ++ more)

theorem andThen_map_extend {ways : List (List α × List α)} {more : List α}
    {next next' : List α → List α → List (List α × List α)} {before before' : List α}
    (h : ∀ w ∈ ways, next (w.1.reverse ++ before) (w.2 ++ more)
      = (next' (w.1.reverse ++ before') w.2).map (extend more)) :
    andThen (ways.map (extend more)) next before
      = (andThen ways next' before').map (extend more) := by
  rw [andThen, andThen, List.flatMap_map, List.map_flatMap]
  refine List.flatMap_congr (fun w hw => ?_)
  rw [List.map_map]
  simp only [extend, h w hw, List.map_map]
  rfl

/-- Repetitions match the same way whatever is before them, and whatever
follows what their pattern does not take, with any fuel that is enough. -/
theorem repeatWays_extend {ways : List α → List α → List (List α × List α)} (more : List α)
    (happend : ∀ before after m rest, (m, rest) ∈ ways before after → m ++ rest = after)
    (hmore : ∀ before before' after, ways before (after ++ more)
      = (ways before' after).map (extend more))
    {n k : ℕ} {after : List α} (hn : after.length ≤ n) (hk : after.length ≤ k)
    (before before' : List α) :
    repeatWays ways n before (after ++ more)
      = (repeatWays ways k before' after).map (extend more) := by
  -- by fuel: what is left after a time that takes something is shorter
  have hnil : ∀ before, (ways before []).filter (fun w => !w.1.isEmpty) = [] := by
    intro before
    refine List.filter_eq_nil_iff.mpr (fun w hw => ?_)
    rw [(List.append_eq_nil_iff.mp (happend _ _ _ _ hw)).1]
    exact Bool.false_ne_true
  have hfilter : ∀ after before before', (ways before (after ++ more)).filter
      (fun w => !w.1.isEmpty)
        = ((ways before' after).filter (fun w => !w.1.isEmpty)).map (extend more) := by
    intro after before before'
    rw [hmore before before', List.filter_map]
    rfl
  induction n generalizing k after before before' with
  | zero =>
    obtain rfl := List.length_eq_zero_iff.mp (Nat.le_zero.mp hn)
    cases k with
    | zero => rfl
    | succ k =>
      rw [repeatWays, repeatWays, hnil]
      rfl
  | succ n ih =>
    cases k with
    | zero =>
      obtain rfl := List.length_eq_zero_iff.mp (Nat.le_zero.mp hk)
      rw [repeatWays, repeatWays, hfilter [] before before', hnil]
      rfl
    | succ k =>
      rw [repeatWays, repeatWays, hfilter after before before', List.map_append]
      congr 1
      refine andThen_map_extend (fun w hw => ?_)
      obtain ⟨hw, hsome⟩ := List.mem_filter.mp hw
      have hlength := congrArg List.length (happend _ _ _ _ hw)
      have hpos : 0 < w.1.length := by
        rw [List.length_pos_iff]
        rintro hempty
        rw [hempty] at hsome
        cases hsome
      rw [List.length_append] at hlength
      exact ih (by omega) (by omega) _ _

/-- **A character that a pattern does not take ends what it sees.** -/
theorem ways_append_of_not {p : α → Prop} {r : Pattern α} (hr : r.Within p) {c : α} (hc : ¬ p c)
    (more before before' after : List α) : r.ways before (after ++ c :: more)
      = (r.ways before' after).map (extend (c :: more)) := by
  induction r generalizing before before' after with
  | empty => rfl
  | one q =>
    cases after with
    | nil => exact if_neg (fun h => hc (hr c h))
    | cons d ds =>
      rw [List.cons_append, Pattern.ways, Pattern.ways]
      split_ifs <;> rfl
  | check q => exact hr.elim
  | seq r s ihr ihs =>
    rw [Pattern.ways, Pattern.ways, ihr hr.1 before before']
    exact andThen_map_extend (fun w _ => ihs hr.2 _ _ _)
  | alt r s ihr ihs =>
    rw [Pattern.ways, Pattern.ways, ihr hr.1 before before', ihs hr.2 before before',
      List.map_append]
  | star r ih =>
    exact repeatWays_extend _ (fun _ _ _ _ => append_of_mem_ways) (ih hr)
      (by rw [List.length_append]; omega) (Nat.le_refl _) _ _

/-- What is before a place does not matter to a pattern that looks at nothing. -/
theorem ways_before {p : α → Prop} {r : Pattern α} (hr : r.Within p)
    (before before' after : List α) : r.ways before after = r.ways before' after := by
  induction r generalizing before before' after with
  | empty => rfl
  | one q => cases after <;> rfl
  | check q => exact hr.elim
  | seq r s ihr ihs =>
    rw [Pattern.ways, Pattern.ways, ihr hr.1 before before', andThen, andThen]
    refine List.flatMap_congr (fun w _ => ?_)
    rw [ihs hr.2 (w.1.reverse ++ before) (w.1.reverse ++ before')]
  | alt r s ihr ihs =>
    rw [Pattern.ways, Pattern.ways, ihr hr.1 before before', ihs hr.2 before before']
  | star r ih =>
    have hextend := repeatWays_extend [] (fun _ _ _ _ => append_of_mem_ways)
      (fun before before' after => by
        rw [List.append_nil, ih hr before before']
        exact (List.map_id'' (fun w => by rw [extend, List.append_nil]) _).symm)
      (Nat.le_refl after.length) (Nat.le_refl after.length) before before'
    rw [List.append_nil] at hextend
    exact hextend.trans (List.map_id'' (fun w => by rw [extend, List.append_nil]) _)

/-! ## Searching from a place -/

theorem piecesFrom_nil {r : Pattern α} {n : ℕ} {before : List α}
    (h : (r.ways before []).head? = none) : piecesFrom r (n + 1) before [] = [] := by
  simp only [piecesFrom, h]

/-- Where a pattern does not match, the character is kept. -/
theorem piecesFrom_kept {r : Pattern α} {n : ℕ} {c : α} {before cs : List α}
    (h : (r.ways before (c :: cs)).head? = none) :
    piecesFrom r (n + 1) before (c :: cs) = .kept c :: piecesFrom r n (c :: before) cs := by
  simp only [piecesFrom, h]

/-- Where a pattern matches, its first way is a piece. -/
theorem piecesFrom_matched {r : Pattern α} {n : ℕ} {before after m rest : List α} (hm : m ≠ [])
    (h : (r.ways before after).head? = some (m, rest)) :
    piecesFrom r (n + 1) before after
      = .matched m :: piecesFrom r n (m.reverse ++ before) rest := by
  cases m with
  | nil => exact absurd rfl hm
  | cons c m => simp only [piecesFrom, h]

/-- What the first way of a pattern takes and leaves. -/
theorem first_way {r : Pattern α} (hr : r.takesSome = true) {before after m rest : List α}
    (h : (r.ways before after).head? = some (m, rest)) :
    m ≠ [] ∧ m ++ rest = after ∧ rest.length < after.length := by
  have hmem := List.mem_of_head? h
  have hm := ne_nil_of_takesSome hr hmem
  have happend := append_of_mem_ways hmem
  have hlength := congrArg List.length happend
  have hpos := List.length_pos_iff.mpr hm
  rw [List.length_append] at hlength
  exact ⟨hm, happend, by omega⟩

/-- Nothing is found at the end of a text. -/
theorem ways_nil_head? {r : Pattern α} (hr : r.takesSome = true) (before : List α) :
    (r.ways before []).head? = none := by
  cases h : (r.ways before []).head? with
  | none => rfl
  | some w => exact absurd (first_way hr h).2.2 (Nat.not_lt_zero _)

/-- The pieces do not depend on the fuel, where there is enough of it. -/
theorem piecesFrom_enough {r : Pattern α} (hr : r.takesSome = true) {n k : ℕ}
    {before after : List α} (hn : after.length < n) (hk : after.length < k) :
    piecesFrom r n before after = piecesFrom r k before after := by
  induction n generalizing k before after with
  | zero => exact absurd hn (Nat.not_lt_zero _)
  | succ n ih =>
    cases k with
    | zero => exact absurd hk (Nat.not_lt_zero _)
    | succ k =>
      cases h : (r.ways before after).head? with
      | some w =>
        obtain ⟨hm, -, hlength⟩ := first_way hr h
        rw [piecesFrom_matched hm h, piecesFrom_matched hm h, ih (k := k) (by omega) (by omega)]
      | none =>
        cases after with
        | nil => rw [piecesFrom_nil h, piecesFrom_nil h]
        | cons c cs =>
          rw [List.length_cons] at hn hk
          rw [piecesFrom_kept h, piecesFrom_kept h, ih (k := k) (by omega) (by omega)]

/-- **The pieces up to the first match**: what is kept, and then the match. -/
theorem piecesFrom_cases {r : Pattern α} (hr : r.takesSome = true) {n : ℕ} (before : List α)
    {after : List α} (hn : after.length < n) :
    piecesFrom r n before after = after.map .kept ∨
      ∃ gap m rest, after = gap ++ (m ++ rest) ∧ m ≠ [] ∧
        (m, rest) ∈ r.ways (gap.reverse ++ before) (m ++ rest) ∧
        piecesFrom r n before after = gap.map .kept ++
          .matched m :: piecesFrom r (rest.length + 1) (m.reverse ++ (gap.reverse ++ before))
            rest := by
  induction n generalizing before after with
  | zero => exact absurd hn (Nat.not_lt_zero _)
  | succ n ih =>
    cases h : (r.ways before after).head? with
    | some w =>
      obtain ⟨m, rest⟩ := w
      obtain ⟨hm, rfl, hlength⟩ := first_way hr h
      refine .inr ⟨[], m, rest, rfl, hm, List.mem_of_head? h, ?_⟩
      rw [piecesFrom_matched hm h, piecesFrom_enough hr (k := rest.length + 1) (by omega)
        (Nat.lt_succ_self _)]
      rfl
    | none =>
      cases after with
      | nil => exact .inl (piecesFrom_nil h)
      | cons c cs =>
        rw [List.length_cons] at hn
        rw [piecesFrom_kept h]
        obtain hkept | ⟨gap, m, rest, rfl, hm, hway, hpieces⟩ := ih (c :: before)
          (Nat.lt_of_succ_lt_succ hn)
        · exact .inl (by rw [hkept, List.map_cons])
        · refine .inr ⟨c :: gap, m, rest, rfl, hm, ?_, ?_⟩
          · rwa [List.reverse_cons, List.append_assoc]
          · rw [hpieces, List.reverse_cons, List.append_assoc]
            rfl

/-! ## What separates the matches -/

@[simp] theorem matchedOf_append (ps qs : List (Piece α)) :
    matchedOf (ps ++ qs) = matchedOf ps ++ matchedOf qs :=
  List.filterMap_append

@[simp] theorem matchedOf_kept (c : α) (ps : List (Piece α)) :
    matchedOf (.kept c :: ps) = matchedOf ps := rfl

@[simp] theorem matchedOf_matched (m : List α) (ps : List (Piece α)) :
    matchedOf (.matched m :: ps) = m :: matchedOf ps := rfl

@[simp] theorem matchedOf_map_kept (text : List α) : matchedOf (text.map .kept) = [] := by
  induction text with
  | nil => rfl
  | cons c text ih => exact ih

@[simp] theorem replacedOf_append (w : List α) (ps qs : List (Piece α)) :
    replacedOf w (ps ++ qs) = replacedOf w ps ++ replacedOf w qs :=
  List.flatMap_append

@[simp] theorem replacedOf_matched (w m : List α) (ps : List (Piece α)) :
    replacedOf w (.matched m :: ps) = w ++ replacedOf w ps := rfl

@[simp] theorem replacedOf_map_kept (w text : List α) : replacedOf w (text.map .kept) = text := by
  induction text with
  | nil => rfl
  | cons c text ih => exact congrArg (List.cons c) ih

/-- The matches of a pattern that looks at nothing do not depend on what is
before the place. -/
theorem matchedOf_before {p : α → Prop} {r : Pattern α} (hr : r.Within p)
    (hsome : r.takesSome = true) {n k : ℕ} (before before' : List α) {after : List α}
    (hn : after.length < n) (hk : after.length < k) :
    matchedOf (piecesFrom r n before after) = matchedOf (piecesFrom r k before' after) := by
  rw [piecesFrom_enough hsome hn hk]
  induction k generalizing n before before' after with
  | zero => exact absurd hk (Nat.not_lt_zero _)
  | succ k ih =>
    cases h : (r.ways before after).head? with
    | some w =>
      obtain ⟨hm, -, hlength⟩ := first_way hsome h
      rw [piecesFrom_matched hm h, piecesFrom_matched hm (ways_before hr before before' after ▸ h),
        matchedOf_matched, matchedOf_matched,
        ih (n := k) (w.1.reverse ++ before) (w.1.reverse ++ before') (by omega) (by omega)]
    | none =>
      have h' := ways_before hr before before' after ▸ h
      cases after with
      | nil => rw [piecesFrom_nil h, piecesFrom_nil h']
      | cons c cs =>
        rw [List.length_cons] at hk
        rw [piecesFrom_kept h, piecesFrom_kept h', matchedOf_kept, matchedOf_kept,
          ih (n := k) (c :: before) (c :: before') (by omega) (by omega)]

/-- **A character that a pattern does not take separates its matches.** -/
theorem matchAll_append_of_not {p : α → Prop} {r : Pattern α} (hr : r.Within p)
    (hsome : r.takesSome = true) {c : α} (hc : ¬ p c) (xs ys : List α) :
    matchAll r (xs ++ c :: ys) = matchAll r xs ++ matchAll r ys := by
  have hfrom : ∀ (n : ℕ) (before before' xs : List α), (xs ++ c :: ys).length < n →
      matchedOf (piecesFrom r n before (xs ++ c :: ys))
        = matchedOf (piecesFrom r (xs.length + 1) before' xs) ++ matchAll r ys := by
    intro n
    induction n with
    | zero => exact fun _ _ _ hn => absurd hn (Nat.not_lt_zero _)
    | succ n ih =>
      intro before before' xs hn
      have hways := ways_append_of_not hr hc ys before before' xs
      rw [List.length_append, List.length_cons] at hn
      cases h : (r.ways before' xs).head? with
      | some w =>
        obtain ⟨m, rest⟩ := w
        obtain ⟨hm, -, hlength⟩ := first_way hsome h
        have h' : (r.ways before (xs ++ c :: ys)).head? = some (m, rest ++ c :: ys) := by
          rw [hways, List.head?_map, h]
          rfl
        rw [piecesFrom_matched hm h, piecesFrom_matched hm h', matchedOf_matched,
          matchedOf_matched, List.cons_append,
          ih (m.reverse ++ before) (m.reverse ++ before') rest
            (by rw [List.length_append, List.length_cons]; omega),
          piecesFrom_enough hsome (n := rest.length + 1) (k := xs.length) (Nat.lt_succ_self _)
            hlength]
      | none =>
        have h' : (r.ways before (xs ++ c :: ys)).head? = none := by
          rw [hways, List.head?_map, h]
          rfl
        cases xs with
        | nil =>
          rw [List.nil_append] at h'
          rw [List.nil_append, piecesFrom_kept h', piecesFrom_nil h, matchedOf_kept]
          exact matchedOf_before hr hsome _ _ (by simpa using hn) (Nat.lt_succ_self _)
        | cons x xs =>
          rw [List.cons_append] at h'
          rw [List.length_cons] at hn
          rw [List.cons_append, piecesFrom_kept h', piecesFrom_kept h, matchedOf_kept,
            matchedOf_kept]
          exact ih _ _ xs (by rw [List.length_append, List.length_cons]; omega)
  exact hfrom _ [] [] xs (Nat.lt_succ_self _)

@[simp] theorem matchAll_nil {r : Pattern α} (hsome : r.takesSome = true) : matchAll r [] = [] :=
  congrArg matchedOf (piecesFrom_nil (ways_nil_head? hsome []))

/-- Characters that a pattern does not take are skipped. -/
theorem matchAll_skip {p : α → Prop} {r : Pattern α} (hr : r.Within p)
    (hsome : r.takesSome = true) {skipped : List α} (h : ∀ c ∈ skipped, ¬ p c) (text : List α) :
    matchAll r (skipped ++ text) = matchAll r text := by
  induction skipped with
  | nil => rfl
  | cons c skipped ih =>
    obtain ⟨hc, hskipped⟩ := List.forall_mem_cons.mp h
    have hsplit := matchAll_append_of_not hr hsome hc [] (skipped ++ text)
    rw [matchAll_nil hsome, List.nil_append, List.nil_append, ih hskipped] at hsplit
    exact hsplit

/-- The first match of a text, and those of the rest. -/
theorem matchAll_of_head? {p : α → Prop} {r : Pattern α} (hr : r.Within p)
    (hsome : r.takesSome = true) {text m rest : List α}
    (h : (r.ways [] text).head? = some (m, rest)) : matchAll r text = m :: matchAll r rest := by
  obtain ⟨hm, -, hlength⟩ := first_way hsome h
  rw [matchAll, pieces, piecesFrom_matched hm h, matchedOf_matched,
    matchedOf_before hr hsome _ [] hlength (Nat.lt_succ_self _)]
  rfl

/-! ## Runs of characters -/

/-- The first way of a pattern and then of another. -/
theorem head?_andThen {ways : List (List α × List α)}
    {next : List α → List α → List (List α × List α)} {before m mid m' rest : List α}
    (h : ways.head? = some (m, mid))
    (h' : (next (m.reverse ++ before) mid).head? = some (m', rest)) :
    (andThen ways next before).head? = some (m ++ m', rest) := by
  obtain ⟨others, rfl⟩ : ∃ others, ways = (m, mid) :: others := by
    cases ways with
    | nil => cases h
    | cons w others => exact ⟨others, by rw [Option.some.inj h]⟩
  rw [andThen, List.flatMap_cons, List.head?_append, List.head?_map, h']
  rfl

/-- What a pattern repeats to nothing where it does not match. -/
theorem star_ways_of_nil {r : Pattern α} {before after : List α}
    (h : r.ways before after = []) : (Pattern.star r).ways before after = [([], after)] := by
  rw [Pattern.ways]
  cases after.length with
  | zero => rfl
  | succ n =>
    rw [repeatWays, h]
    rfl

/-- **A run of characters is first taken whole.** -/
theorem head?_star_one {q : α → Bool} {run rest : List α} (hrun : ∀ c ∈ run, q c = true)
    (hrest : ∀ c ∈ rest.head?, q c = false) (before : List α) :
    ((Pattern.star (.one q)).ways before (run ++ rest)).head? = some (run, rest) := by
  have hend : ∀ before, (Pattern.one q).ways before rest = [] := by
    intro before
    cases rest with
    | nil => rfl
    | cons c cs => exact if_neg (by rw [hrest c rfl]; exact Bool.false_ne_true)
  have hrepeat : ∀ (n : ℕ) (before run : List α), (run ++ rest).length ≤ n →
      (∀ c ∈ run, q c = true) →
      (repeatWays (Pattern.one q).ways n before (run ++ rest)).head? = some (run, rest) := by
    intro n
    induction n with
    | zero =>
      intro before run hn hrun
      obtain ⟨rfl, rfl⟩ :=
        List.append_eq_nil_iff.mp (List.length_eq_zero_iff.mp (Nat.le_zero.mp hn))
      rfl
    | succ n ih =>
      intro before run hn hrun
      cases run with
      | nil =>
        rw [List.nil_append, repeatWays, hend]
        rfl
      | cons c run =>
        obtain ⟨hc, hrun⟩ := List.forall_mem_cons.mp hrun
        have hfirst : (((Pattern.one q).ways before (c :: (run ++ rest))).filter
            (fun w => !w.1.isEmpty)).head? = some ([c], run ++ rest) := by
          rw [Pattern.ways, if_pos hc]
          rfl
        have hlength := Nat.le_of_succ_le_succ hn
        rw [List.cons_append, repeatWays, List.head?_append,
          head?_andThen hfirst (ih _ run hlength hrun)]
        rfl
  exact hrepeat _ before run (Nat.le_refl _) hrun

/-- A run that is not empty is first taken whole. -/
theorem head?_plus_one {q : α → Bool} {run rest : List α} (hne : run ≠ [])
    (hrun : ∀ c ∈ run, q c = true) (hrest : ∀ c ∈ rest.head?, q c = false) (before : List α) :
    ((Pattern.one q).plus.ways before (run ++ rest)).head? = some (run, rest) := by
  obtain ⟨c, run, rfl⟩ := List.exists_cons_of_ne_nil hne
  obtain ⟨hc, hrun⟩ := List.forall_mem_cons.mp hrun
  have hfirst : ((Pattern.one q).ways before (c :: (run ++ rest))).head?
      = some ([c], run ++ rest) := by
    rw [Pattern.ways, if_pos hc]
    rfl
  exact head?_andThen hfirst (head?_star_one hrun hrest _)

theorem of_mem_one {q : α → Bool} {before after m rest : List α}
    (h : (m, rest) ∈ (Pattern.one q).ways before after) : ∀ c ∈ m, q c = true := by
  cases after with
  | nil => exact absurd h List.not_mem_nil
  | cons c cs =>
    rw [Pattern.ways] at h
    split_ifs at h with hc
    · obtain ⟨rfl, rfl⟩ := Prod.mk.inj (List.mem_singleton.mp h)
      exact List.forall_mem_singleton.mpr hc
    · exact absurd h List.not_mem_nil

/-- A run of characters is of these characters. -/
theorem of_mem_star_one {q : α → Bool} {before after m rest : List α}
    (h : (m, rest) ∈ (Pattern.star (.one q)).ways before after) : ∀ c ∈ m, q c = true := by
  rw [Pattern.ways] at h
  generalize after.length = n at h
  induction n generalizing before after m with
  | zero =>
    obtain ⟨rfl, rfl⟩ := Prod.mk.inj (List.mem_singleton.mp h)
    exact fun c hc => absurd hc List.not_mem_nil
  | succ n ih =>
    rw [repeatWays, List.mem_append, mem_andThen, List.mem_singleton, Prod.mk.injEq] at h
    obtain ⟨m₁, mid, m₂, hw, hw', rfl⟩ | ⟨rfl, -⟩ := h
    · intro c hc
      obtain hc | hc := List.mem_append.mp hc
      · exact of_mem_one (List.mem_of_mem_filter hw) c hc
      · exact ih hw' c hc
    · exact fun c hc => absurd hc List.not_mem_nil

/-- A run that is not empty is of these characters. -/
theorem of_mem_plus_one {q : α → Bool} {before after m rest : List α}
    (h : (m, rest) ∈ (Pattern.one q).plus.ways before after) :
    m ≠ [] ∧ ∀ c ∈ m, q c = true := by
  obtain ⟨m₁, mid, m₂, hw, hw', rfl⟩ := mem_andThen.mp h
  refine ⟨List.append_ne_nil_of_left_ne_nil (ne_nil_of_takesSome rfl hw) _, fun c hc => ?_⟩
  obtain hc | hc := List.mem_append.mp hc
  · exact of_mem_one hw c hc
  · exact of_mem_star_one hw' c hc

end Patterns
