import Mathlib.Data.List.Basic
import Mathlib.Order.Lattice

/-!
# Searching for the leftmost match

A search goes over the places of a text from the left, up to and including its end, and stops
at the first one where something is found. What is found at a place is a function of the
place, so the text is left out.

Several searches may be made of one text, and of what they find the leftmost is taken, the
first of them where they find something at one place (`nearest`). That is one search for
what the first of them finds, place by place (`nearest_eq`). And repeating a search behind
what it found, two searches that find something at the same places find the same matches if
and only if they find the same at the places of the matches (`matches_eq_iff`).
-/

namespace LeftmostSearch

variable {β : Type*}

/-! ## One search -/

/-- **The first of some places, from one on, where something is found**, and what is. -/
def exec (find : ℕ → Option β) : ℕ → ℕ → Option (ℕ × β)
  | 0, _ => none
  | n + 1, place =>
    match find place with
    | some b => some (place, b)
    | none => exec find n (place + 1)

theorem exec_of_some {find : ℕ → Option β} {n place : ℕ} {b : β} (h : find place = some b) :
    exec find (n + 1) place = some (place, b) := by
  rw [exec, h]

theorem exec_of_none {find : ℕ → Option β} {n place : ℕ} (h : find place = none) :
    exec find (n + 1) place = exec find n (place + 1) := by
  rw [exec, h]

/-- What is found, and where: nothing is found before. -/
theorem exec_eq_some {find : ℕ → Option β} {n place : ℕ} {m : ℕ × β}
    (h : exec find n place = some m) : place ≤ m.1 ∧ m.1 < place + n ∧ find m.1 = some m.2
      ∧ ∀ earlier, place ≤ earlier → earlier < m.1 → find earlier = none := by
  induction n generalizing place with
  | zero => cases h
  | succ n ih =>
    cases hfind : find place with
    | some b =>
      rw [exec_of_some hfind] at h
      obtain rfl := Option.some.inj h
      exact ⟨le_rfl, by simp, hfind, fun earlier hle hlt => absurd hlt (not_lt.mpr hle)⟩
    | none =>
      rw [exec_of_none hfind] at h
      obtain ⟨hle, hlt, hat, hbefore⟩ := ih h
      refine ⟨by omega, by omega, hat, fun earlier hplace hearlier => ?_⟩
      obtain rfl | hplace := hplace.eq_or_lt
      · exact hfind
      · exact hbefore earlier hplace hearlier

theorem exec_eq_none {find : ℕ → Option β} {n place : ℕ} (h : exec find n place = none) :
    ∀ later, place ≤ later → later < place + n → find later = none := by
  induction n generalizing place with
  | zero => exact fun later hle hlt => absurd hlt (not_lt.mpr hle)
  | succ n ih =>
    cases hfind : find place with
    | some b =>
      rw [exec_of_some hfind] at h
      cases h
    | none =>
      rw [exec_of_none hfind] at h
      intro later hle hlt
      obtain rfl | hle := hle.eq_or_lt
      · exact hfind
      · exact ih h later hle (by omega)

/-- A search depends on what is found only. -/
theorem exec_congr {f g : ℕ → Option β} {n place : ℕ}
    (h : ∀ p, place ≤ p → p < place + n → f p = g p) : exec f n place = exec g n place := by
  induction n generalizing place with
  | zero => rfl
  | succ n ih =>
    have hrest : exec f n (place + 1) = exec g n (place + 1) :=
      ih fun p hle hlt => h p (by omega) (by omega)
    rw [exec, exec, h place le_rfl (by omega), hrest]

/-! ## Several searches -/

/-- **Of two matches the one that is nearer**, the first of them at one place. -/
def nearer (first next : Option (ℕ × β)) : Option (ℕ × β) :=
  match next with
  | none => first
  | some m => if first.all fun f => m.1 < f.1 then some m else first

/-- **The nearest match** of several searches. -/
def nearest (finds : List (ℕ → Option β)) (n place : ℕ) : Option (ℕ × β) :=
  finds.foldl (fun first find => nearer first (exec find n place)) none

/-- What is found at the place itself is nearest. -/
theorem nearer_of_some {place : ℕ} {b : β} {next : Option (ℕ × β)}
    (h : ∀ m ∈ next, place ≤ m.1) : nearer (some (place, b)) next = some (place, b) := by
  cases next with
  | none => rfl
  | some m => exact if_neg (by simpa using h m rfl)

theorem nearer_some {place : ℕ} {b : β} {first : Option (ℕ × β)}
    (h : ∀ m ∈ first, place < m.1) : nearer first (some (place, b)) = some (place, b) := by
  refine if_pos ?_
  cases first with
  | none => rfl
  | some m => exact decide_eq_true (h m rfl)

/-- **Searching for one thing or else for another** is searching for each of them. -/
theorem exec_orElse (f g : ℕ → Option β) (n place : ℕ) :
    exec (fun p => (f p).orElse fun _ => g p) n place
      = nearer (exec f n place) (exec g n place) := by
  induction n generalizing place with
  | zero => rfl
  | succ n ih =>
    cases hf : f place with
    | some b =>
      have hboth : (f place).orElse (fun _ => g place) = some b := by rw [hf]; rfl
      rw [exec_of_some hf, nearer_of_some fun m hm => (exec_eq_some hm).1]
      exact exec_of_some hboth
    | none =>
      have hboth : (f place).orElse (fun _ => g place) = g place := by rw [hf]; rfl
      cases hg : g place with
      | some b =>
        rw [exec_of_none hf, exec_of_some hg, nearer_some fun m hm => (exec_eq_some hm).1]
        exact exec_of_some (hboth.trans hg)
      | none =>
        rw [exec_of_none hf, exec_of_none hg, ← ih]
        exact exec_of_none (hboth.trans hg)

/-- **The nearest match of several searches** is that of one search, for what the first of
them finds at each place. -/
theorem nearest_eq (finds : List (ℕ → Option β)) (n place : ℕ) :
    nearest finds n place = exec (fun p => finds.findSome? fun find => find p) n place := by
  have hgeneral : ∀ (finds : List (ℕ → Option β)) (first : ℕ → Option β),
      finds.foldl (fun first find => nearer first (exec find n place)) (exec first n place)
        = exec (fun p => (first p).orElse fun _ => finds.findSome? fun find => find p) n place := by
    intro finds
    induction finds with
    | nil =>
      intro first
      refine exec_congr fun p _ _ => ?_
      cases first p with
      | none => rfl
      | some b => rfl
    | cons find rest ih =>
      intro first
      rw [List.foldl_cons, ← exec_orElse, ih]
      refine exec_congr fun p _ _ => ?_
      rw [List.findSome?_cons]
      cases first p with
      | some b => rfl
      | none => cases find p <;> rfl
  have hnone : ∀ n place, exec (fun _ => (none : Option β)) n place = none := by
    intro n
    induction n with
    | zero => exact fun _ => rfl
    | succ n ih => exact fun place => (exec_of_none rfl).trans (ih (place + 1))
  have hstart := hgeneral finds fun _ => none
  rw [hnone] at hstart
  exact hstart

/-! ## All matches -/

/-- **A search that is repeated**, from each match on behind what it takes; behind a match of
nothing it goes on at the next place. The places are those of a text of some length. -/
def matchesFrom (search : ℕ → ℕ → Option (ℕ × β)) (size : β → ℕ) (length : ℕ) :
    ℕ → ℕ → List (ℕ × β)
  | 0, _ => []
  | n + 1, cursor =>
    match search (length + 1 - cursor) cursor with
    | none => []
    | some m => m :: matchesFrom search size length n (m.1 + max 1 (size m.2))

/-- **All matches in a text of some length.** -/
def allMatches (find : ℕ → Option β) (size : β → ℕ) (length : ℕ) : List (ℕ × β) :=
  matchesFrom (exec find) size length (length + 1) 0

/-- What is among the matches is found at its place. -/
theorem mem_matchesFrom {find : ℕ → Option β} {size : β → ℕ} {length n cursor : ℕ} {m : ℕ × β}
    (h : m ∈ matchesFrom (exec find) size length n cursor) : find m.1 = some m.2 := by
  induction n generalizing cursor with
  | zero => cases h
  | succ n ih =>
    rw [matchesFrom] at h
    cases hexec : exec find (length + 1 - cursor) cursor with
    | none => rw [hexec] at h; cases h
    | some m' =>
      rw [hexec] at h
      obtain rfl | h := List.mem_cons.mp h
      · exact (exec_eq_some hexec).2.2.1
      · exact ih h

/-- Matches are at the cursor or behind it. -/
theorem le_of_mem_matchesFrom {find : ℕ → Option β} {size : β → ℕ} {length n cursor : ℕ}
    {m : ℕ × β} (h : m ∈ matchesFrom (exec find) size length n cursor) : cursor ≤ m.1 := by
  induction n generalizing cursor with
  | zero => cases h
  | succ n ih =>
    rw [matchesFrom] at h
    cases hexec : exec find (length + 1 - cursor) cursor with
    | none => rw [hexec] at h; cases h
    | some first =>
      rw [hexec] at h
      have hle := (exec_eq_some hexec).1
      obtain rfl | h := List.mem_cons.mp h
      · exact hle
      · exact hle.trans ((Nat.le_add_right _ _).trans (ih h))

/-- **Each match is behind what the ones before it take.** -/
theorem pairwise_matchesFrom (find : ℕ → Option β) (size : β → ℕ) (length n cursor : ℕ) :
    (matchesFrom (exec find) size length n cursor).Pairwise
      fun m m' => m.1 + size m.2 ≤ m'.1 := by
  induction n generalizing cursor with
  | zero => exact List.Pairwise.nil
  | succ n ih =>
    rw [matchesFrom]
    cases exec find (length + 1 - cursor) cursor with
    | none => exact List.Pairwise.nil
    | some m =>
      refine List.Pairwise.cons (fun m' hm' => ?_) (ih _)
      exact (Nat.add_le_add_left (Nat.le_max_right _ _) _).trans (le_of_mem_matchesFrom hm')

/-- **Two searches that find something at the same places** report the same matches if and
only if they find the same at the place of each match, where a report tells apart what they
find at one place. -/
theorem matchesFrom_eq_iff {γ : Type*} {f g : ℕ → Option β} {size : β → ℕ} {report : ℕ × β → γ}
    (h : ∀ place, (f place).isSome = (g place).isSome)
    (hreport : ∀ place b c, f place = some b → g place = some c →
      report (place, b) = report (place, c) → b = c) (length n cursor : ℕ) :
    (matchesFrom (exec f) size length n cursor).map report
        = (matchesFrom (exec g) size length n cursor).map report
      ↔ ∀ m ∈ matchesFrom (exec f) size length n cursor, g m.1 = f m.1 := by
  induction n generalizing cursor with
  | zero => simp [matchesFrom]
  | succ n ih =>
    rw [matchesFrom, matchesFrom]
    cases hf : exec f (length + 1 - cursor) cursor with
    | none =>
      -- The other search finds nothing either.
      have hg : exec g (length + 1 - cursor) cursor = none := by
        cases hg : exec g (length + 1 - cursor) cursor with
        | none => rfl
        | some m =>
          obtain ⟨hle, hlt, hat, -⟩ := exec_eq_some hg
          have hsome := h m.1
          rw [exec_eq_none hf m.1 hle hlt, hat] at hsome
          cases hsome
      rw [hg]
      simp
    | some m =>
      obtain ⟨hle, hlt, hat, hbefore⟩ := exec_eq_some hf
      -- The other search stops at the same place.
      obtain ⟨b, hb⟩ : ∃ b, g m.1 = some b := by
        refine Option.isSome_iff_exists.mp ?_
        rw [← h, hat]
        rfl
      have hg : exec g (length + 1 - cursor) cursor = some (m.1, b) := by
        cases hg : exec g (length + 1 - cursor) cursor with
        | none =>
          rw [exec_eq_none hg m.1 hle hlt] at hb
          cases hb
        | some m' =>
          obtain ⟨hle', -, hat', hbefore'⟩ := exec_eq_some hg
          have hplace : m'.1 = m.1 := by
            refine le_antisymm ?_ ?_
            · refine le_of_not_gt fun hlt => ?_
              rw [hbefore' m.1 hle hlt] at hb
              cases hb
            · refine le_of_not_gt fun hlt => ?_
              have hsome := h m'.1
              rw [hbefore m'.1 hle' hlt, hat'] at hsome
              cases hsome
          rw [hplace, hb] at hat'
          obtain rfl := Option.some.inj hat'
          exact congrArg some (Prod.ext hplace rfl)
      rw [hg]
      show report m :: _ = report (m.1, b) :: _ ↔ ∀ m' ∈ m :: _, _
      rw [List.cons.injEq, List.forall_mem_cons, hb, hat]
      constructor
      · rintro ⟨heq, hrest⟩
        have hsame : m.2 = b := hreport m.1 m.2 b hat hb heq
        rw [← hsame] at hrest ⊢
        exact ⟨rfl, (ih _).mp hrest⟩
      · rintro ⟨heq, hrest⟩
        obtain rfl := Option.some.inj heq
        exact ⟨rfl, (ih _).mpr hrest⟩

/-! ## Choices in parts -/

section Choices

variable {ι κ ω : Type*}

/-- **What may be chosen**: behind each lead, in order, what there is. -/
def choices (leads : List ι) (key : ι → κ) (ways : ι → List ω) : List (κ × ω) :=
  leads.flatMap fun lead => (ways lead).map (Prod.mk (key lead))

/-- Only the keys of the leads are chosen with. -/
theorem fst_mem_of_mem_choices {leads : List ι} {key : ι → κ} {ways : ι → List ω} {c : κ × ω}
    (h : c ∈ choices leads key ways) : c.1 ∈ leads.map key := by
  obtain ⟨lead, hlead, hc⟩ := List.mem_flatMap.mp h
  obtain ⟨way, -, rfl⟩ := List.mem_map.mp hc
  exact List.mem_map_of_mem hlead

/-- **The first choice among all is the first among those that come first** behind each lead,
if and only if one of these has the lead of the first. -/
theorem head?_choices_iff {leads : List ι} {key : ι → κ} (hleads : (leads.map key).Nodup)
    {here later : ι → List ω} (hhere : choices leads key here ≠ []) :
    (choices leads key here).head? = (choices leads key fun lead => here lead ++ later lead).head?
      ↔ ∀ c ∈ (choices leads key fun lead => here lead ++ later lead).head?,
        ∃ c' ∈ choices leads key here, c'.1 = c.1 := by
  induction leads with
  | nil => exact absurd rfl hhere
  | cons lead leads ih =>
    obtain ⟨hlead, hleads⟩ := List.nodup_cons.mp hleads
    have hcons : ∀ ways : ι → List ω, choices (lead :: leads) key ways
        = (ways lead).map (Prod.mk (key lead)) ++ choices leads key ways := fun _ => rfl
    rw [hcons] at hhere
    rw [hcons, hcons]
    cases hways : here lead with
    | cons way ways =>
      -- Both take the first one behind the lead.
      simp
    | nil =>
      rw [hways] at hhere
      cases hmore : later lead with
      | nil => exact ih hleads hhere
      | cons way ways =>
        -- The first choice of all is behind the lead, where there is none of the first.
        have hne : ∀ c ∈ choices leads key here, c.1 ≠ key lead :=
          fun c hc heq => hlead (heq ▸ fst_mem_of_mem_choices hc)
        constructor
        · intro heq
          have hmem : (key lead, way) ∈ choices leads key here :=
            List.mem_of_mem_head? (Option.mem_def.mpr heq)
          exact absurd rfl (hne _ hmem)
        · intro hsame
          obtain ⟨c, hc, heq⟩ := hsame (key lead, way) rfl
          exact absurd heq (hne c hc)

end Choices

end LeftmostSearch
