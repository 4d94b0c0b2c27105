import Mathlib.Data.List.Sort

/-!
# Keyset pagination

A set of rows is read page by page in the order of a key. The query of a page
asks for the rows with a key after a position, in order, one more than the
page holds; the extra row only tells that there is a next page, whose position
is the key of the last row shown.

`Follows` is the run of a reader who asks for a first page and follows each
position it is given until there is none. Where no two rows have the same key,
the run ends, and its pages are, one after another, the rows in order
(`exists_follows_pages`). A reader who sees the positions through an encoding
sees the same run (`Follows.simulate`).
-/

namespace Keyset

/-! ## Following -/

section Following

variable {σ ρ : Type*}

/-- **A run**: the replies from a position on, up to one without a next position. -/
inductive Follows (fetch : Option σ → ρ) (next : ρ → Option σ) : Option σ → List ρ → Prop
  /-- The reply has no next position. -/
  | last {pos : Option σ} (h : next (fetch pos) = none) : Follows fetch next pos [fetch pos]
  /-- The reply has a next position, which is followed. -/
  | step {pos : Option σ} {k : σ} {replies : List ρ} (h : next (fetch pos) = some k)
      (rest : Follows fetch next (some k) replies) : Follows fetch next pos (fetch pos :: replies)

variable {fetch : Option σ → ρ} {next : ρ → Option σ}

/-- **A run seen through an encoding of its positions.** If the encoded reader
gets the reply `respond pos` wherever `I` holds, and is told the encoded next
position, it makes the same run. -/
theorem Follows.simulate {κ τ : Type*} {fetch' : Option κ → τ} {next' : τ → Option κ}
    {encode : κ → σ} {respond : Option κ → ρ} {I : Option κ → Prop}
    (hfetch : ∀ pos, I pos → fetch (pos.map encode) = respond pos)
    (hnext : ∀ pos, I pos → next (respond pos) = (next' (fetch' pos)).map encode)
    (hI : ∀ pos k, I pos → next' (fetch' pos) = some k → I (some k))
    {pos : Option κ} {pages : List τ} (hpos : I pos) (h : Follows fetch' next' pos pages) :
    ∃ visited : List (Option κ), visited.map fetch' = pages ∧ (∀ p ∈ visited, I p) ∧
      Follows fetch next (pos.map encode) (visited.map respond) := by
  induction h with
  | @last pos hlast =>
    refine ⟨[pos], rfl, by simpa using hpos, ?_⟩
    have hrun : next (fetch (pos.map encode)) = none := by
      rw [hfetch pos hpos, hnext pos hpos, hlast]
      rfl
    rw [List.map_singleton, ← hfetch pos hpos]
    exact Follows.last hrun
  | @step pos k _ hstep _ ih =>
    obtain ⟨visited, hpages, hvisited, hrun⟩ := ih (hI pos k hpos hstep)
    refine ⟨pos :: visited, by rw [List.map_cons, hpages],
      List.forall_mem_cons.mpr ⟨hpos, hvisited⟩, ?_⟩
    have hnext' : next (fetch (pos.map encode)) = some (encode k) := by
      rw [hfetch pos hpos, hnext pos hpos, hstep]
      rfl
    rw [List.map_cons, ← hfetch pos hpos]
    exact Follows.step hnext' hrun

end Following

/-! ## Pages -/

section Pages

variable {α κ : Type*} [LinearOrder κ] (key : α → κ)

/-- The rows in the order of their keys. -/
def ordered (rows : List α) : List α := rows.insertionSort (fun a b => key a ≤ key b)

/-- **The query of a page**: the rows after a position, in order. -/
def after (pos : Option κ) (rows : List α) : List α :=
  ordered key (rows.filter (fun r => pos.all (fun k => k < key r)))

/-- A page: its rows, and the position of the next one. -/
structure Page (α κ : Type*) where
  items : List α
  next : Option κ

/-- **A page of a query**: of the rows read, one more than the page holds, the
first ones are shown; the last one shown is the position of the next page. -/
def page (size : ℕ) (rows : List α) (pos : Option κ) : Page α κ :=
  let read := (after key pos rows).take (size + 1)
  let items := read.take size
  ⟨items, if size < read.length then items.getLast?.map key else none⟩

variable {key}

theorem perm_ordered (rows : List α) : (ordered key rows).Perm rows :=
  List.perm_insertionSort _ rows

/-- Rows with different keys are in strict order. -/
theorem pairwise_ordered {rows : List α} (hnodup : (rows.map key).Nodup) :
    (ordered key rows).Pairwise (fun a b => key a < key b) := by
  have hle : (ordered key rows).Pairwise (fun a b => key a ≤ key b) :=
    haveI : Std.Total (fun a b : α => key a ≤ key b) := ⟨fun a b => le_total (key a) (key b)⟩
    haveI : IsTrans α (fun a b : α => key a ≤ key b) := ⟨fun _ _ _ => le_trans⟩
    List.pairwise_insertionSort _ rows
  have hne : (ordered key rows).Pairwise (fun a b => key a ≠ key b) :=
    List.pairwise_map.mp (((perm_ordered rows).map key).nodup_iff.mpr hnodup)
  exact (hle.and hne).imp (fun h => lt_of_le_of_ne h.1 h.2)

/-- **The rows after a position are the tail of the ordered rows.** -/
theorem after_eq_filter {rows : List α} (hnodup : (rows.map key).Nodup) (pos : Option κ) :
    after key pos rows
      = (ordered key rows).filter (fun r => pos.all (fun k => k < key r)) := by
  have hsub : ((rows.filter (fun r => pos.all (fun k => k < key r))).map key).Nodup :=
    hnodup.sublist (List.filter_sublist.map key)
  have hperm : (after key pos rows).Perm
      ((ordered key rows).filter (fun r => pos.all (fun k => k < key r))) :=
    (perm_ordered _).trans ((perm_ordered rows).symm.filter _)
  have hordered : (after key pos rows).Pairwise (fun a b => key a < key b) :=
    pairwise_ordered hsub
  exact hperm.eq_of_pairwise (fun a b _ _ hab hba => absurd hab (lt_asymm hba)) hordered
    ((pairwise_ordered hnodup).filter _)

theorem after_none (rows : List α) : after key none rows = ordered key rows := by
  refine congrArg (ordered key) (List.filter_eq_self.mpr (fun r _ => rfl))

/-- In a strictly ordered list, the rows after the last of the first `size`
are the others. -/
theorem filter_after_take {l : List α} (hl : l.Pairwise (fun a b => key a < key b)) {size : ℕ}
    {r : α} (hr : (l.take size).getLast? = some r) :
    l.filter (fun a => key r < key a) = l.drop size := by
  have hsplit : (l.take size ++ l.drop size).Pairwise (fun a b => key a < key b) := by
    rw [List.take_append_drop]
    exact hl
  obtain ⟨htake, -, hcross⟩ := List.pairwise_append.mp hsplit
  obtain ⟨front, hfront⟩ := List.getLast?_eq_some_iff.mp hr
  have hbefore : ∀ a ∈ l.take size, ¬ key r < key a := by
    intro a ha
    rw [hfront] at ha htake
    obtain hmem | hlast := List.mem_append.mp ha
    · exact lt_asymm ((List.pairwise_append.mp htake).2.2 a hmem r (List.mem_singleton_self r))
    · rw [List.mem_singleton.mp hlast]
      exact lt_irrefl _
  have hbeyond : ∀ a ∈ l.drop size, key r < key a :=
    fun a ha => hcross r (List.mem_of_getLast? hr) a ha
  conv_lhs => rw [← List.take_append_drop size l]
  rw [List.filter_append, List.filter_eq_nil_iff.mpr (by simpa using hbefore),
    List.filter_eq_self.mpr (by simpa using hbeyond), List.nil_append]

/-- A query with no more rows than a page holds has no next page. -/
theorem page_of_length_le {size : ℕ} {rows : List α} {pos : Option κ}
    (h : (after key pos rows).length ≤ size) :
    page key size rows pos = ⟨after key pos rows, none⟩ := by
  unfold page
  rw [List.take_of_length_le (le_trans h (Nat.le_succ size))]
  dsimp only
  rw [List.take_of_length_le h, if_neg (Nat.not_lt.mpr h)]

/-- **A query with more rows than a page holds** continues after the page. -/
theorem page_of_lt_length {size : ℕ} (hsize : 0 < size) {rows : List α}
    (hnodup : (rows.map key).Nodup) {pos : Option κ} (h : size < (after key pos rows).length) :
    ∃ r, (page key size rows pos).items = (after key pos rows).take size ∧
      ((after key pos rows).take size).getLast? = some r ∧
      (page key size rows pos).next = some (key r) ∧
      after key (some (key r)) rows = (after key pos rows).drop size := by
  have hitems : ((after key pos rows).take (size + 1)).take size
      = (after key pos rows).take size := by
    rw [List.take_take, Nat.min_eq_left (Nat.le_succ size)]
  have hread : size < ((after key pos rows).take (size + 1)).length := by
    rw [List.length_take]
    omega
  obtain ⟨r, hr⟩ : ∃ r, ((after key pos rows).take size).getLast? = some r := by
    have hpos : 0 < ((after key pos rows).take size).length := by
      rw [List.length_take]
      omega
    exact ⟨_, List.getLast?_eq_some_getLast (List.ne_nil_of_length_pos hpos)⟩
  refine ⟨r, hitems, hr, ?_, ?_⟩
  · unfold page
    dsimp only
    rw [if_pos hread, hitems, hr]
    rfl
  · have hordered := (pairwise_ordered hnodup).filter (fun r => pos.all (fun k => k < key r))
    rw [← after_eq_filter hnodup pos] at hordered
    rw [← filter_after_take hordered hr, after_eq_filter hnodup, after_eq_filter hnodup pos,
      List.filter_filter]
    refine List.filter_congr (fun a _ => ?_)
    have hpos : pos.all (fun k => k < key r) = true := by
      have hmem := List.mem_of_mem_take (List.mem_of_getLast? hr)
      rw [after_eq_filter hnodup] at hmem
      exact (List.mem_filter.mp hmem).2
    cases pos with
    | none => simp
    | some k =>
      have hk : k < key r := by simpa using hpos
      by_cases hlt : key r < key a
      · simp [hlt, hk.trans hlt]
      · simp [hlt]

/-- **Following the pages visits every row once, in order**, and ends. -/
theorem exists_follows_pages {size : ℕ} (hsize : 0 < size) {rows : List α}
    (hnodup : (rows.map key).Nodup) (pos : Option κ) :
    ∃ pages, Follows (page key size rows) Page.next pos pages ∧
      pages.flatMap Page.items = after key pos rows := by
  induction hn : (after key pos rows).length using Nat.strong_induction_on generalizing pos with
  | _ n ih =>
    by_cases hle : (after key pos rows).length ≤ size
    · refine ⟨[page key size rows pos], Follows.last ?_, ?_⟩
      · rw [page_of_length_le hle]
      · rw [page_of_length_le hle, List.flatMap_singleton]
    · obtain ⟨r, hitems, -, hnext, hrest⟩ :=
        page_of_lt_length hsize hnodup (Nat.lt_of_not_le hle)
      have hshorter : (after key (some (key r)) rows).length < n := by
        rw [hrest, List.length_drop]
        omega
      obtain ⟨pages, hpages, hall⟩ := ih _ hshorter (some (key r)) rfl
      refine ⟨page key size rows pos :: pages, Follows.step hnext hpages, ?_⟩
      rw [List.flatMap_cons, hall, hitems, hrest, List.take_append_drop]

end Pages

end Keyset
