import Mathlib.Data.List.Sort
import MsRealty.Capabilities

/-!
# The order of a gallery

Moving one picture of a gallery before or after another (`moveRelation` in
`src/domain/media.ts`), against all its placements, those that are hidden too.

The moved picture is taken out of the order and put back next to the other one
(`order_moveRelation`), and the positions are numbered from zero. So nothing else
changes its place among the rest.
-/

namespace Gallery

/-! ## Moving -/

/-- **A placement**: the same picture may be placed more than once. -/
structure Placement where
  relationId : Uuid
  position : ℤ
  deriving DecidableEq

/-- Where a picture is moved. -/
inductive Target where
  | before (anchorId : Uuid)
  | after (anchorId : Uuid)

/-- What a picture is moved next to. -/
def Target.anchorId : Target → Uuid
  | .before anchorId => anchorId
  | .after anchorId => anchorId

/-- Where it is put in, by the place of the other one. -/
def Target.start (target : Target) (anchor : ℕ) : ℕ :=
  match target with
  | .before _ => anchor
  | .after _ => anchor + 1

/-- The placements, in the order of their positions. -/
def ordered (placements : List Placement) : List Placement :=
  placements.insertionSort fun a b => a.position ≤ b.position

/-- `Array.prototype.splice`, of one element that is put in. -/
def splice {α : Type*} (items : List α) (start : ℕ) (item : α) : List α :=
  items.take start ++ item :: items.drop start

/-- Placements that are numbered from zero. -/
def renumbered (placements : List Placement) : List Placement :=
  placements.mapIdx fun position p => ⟨p.relationId, position⟩

/-- **`moveRelation`.** It throws if one of the two is not placed, or both are one. -/
def moveRelation (placements : List Placement) (relationId : Uuid) (target : Target) :
    Option (List Placement) :=
  match (ordered placements).find? fun p => p.relationId = relationId with
  | none => none
  | some moving =>
    if (ordered placements).all (fun p => p.relationId ≠ target.anchorId)
        ∨ target.anchorId = relationId then none
    else
      let rest := (ordered placements).filter fun p => p.relationId ≠ relationId
      let anchor := rest.findIdx fun p => p.relationId = target.anchorId
      some (renumbered (splice rest (target.start anchor) moving))

/-- The order of placements, as the ids of their relations. -/
def order (placements : List Placement) : List Uuid := (ordered placements).map Placement.relationId

/-! ## What is moved -/

theorem map_relationId_renumbered (placements : List Placement) :
    (renumbered placements).map Placement.relationId = placements.map Placement.relationId := by
  refine List.ext_getElem (by simp [renumbered]) fun i h₁ h₂ => ?_
  simp [renumbered]

theorem map_position_renumbered (placements : List Placement) :
    (renumbered placements).map Placement.position
      = (List.range placements.length).map fun i : ℕ => (i : ℤ) := by
  refine List.ext_getElem (by simp [renumbered]) fun i h₁ h₂ => ?_
  simp [renumbered]

/-- A list at the first item that satisfies a condition. -/
theorem eq_append_of_findIdx {α : Type*} {p : α → Bool} {items : List α}
    (h : ∃ item ∈ items, p item = true) : ∃ item, p item = true ∧
      items = items.take (items.findIdx p) ++ item :: items.drop (items.findIdx p + 1) := by
  have hlt : items.findIdx p < items.length := List.findIdx_lt_length_of_exists h
  refine ⟨items[items.findIdx p], List.findIdx_getElem, ?_⟩
  rw [← List.drop_eq_getElem_cons hlt, List.take_append_drop]

/-- The moved picture and its neighbour, in their order. -/
def Target.neighbours (target : Target) (relationId : Uuid) : List Uuid :=
  match target with
  | .before anchorId => [relationId, anchorId]
  | .after anchorId => [anchorId, relationId]

/-- **What is put in next to an item stands next to it**, and the rest is as before. -/
theorem splice_findIdx {rest : List Placement} {target : Target} (moving : Placement)
    (h : ∃ p ∈ rest, decide (p.relationId = target.anchorId) = true) :
    ∃ l r : List Uuid,
      rest.map Placement.relationId = l ++ target.anchorId :: r ∧
        (splice rest (target.start (rest.findIdx fun p => p.relationId = target.anchorId))
          moving).map Placement.relationId
          = l ++ target.neighbours moving.relationId ++ r := by
  obtain ⟨anchor, hanchor, hrest⟩ := eq_append_of_findIdx h
  set k := rest.findIdx fun p => decide (p.relationId = target.anchorId) with hk
  have hid : anchor.relationId = target.anchorId := of_decide_eq_true hanchor
  have hdrop : rest.drop k = anchor :: rest.drop (k + 1) := by
    have hlength : (rest.take k).length = k := by
      rw [List.length_take, min_eq_left]
      exact (List.findIdx_lt_length_of_exists h).le
    conv_lhs => rw [hrest]
    exact List.drop_left' hlength
  have htake : rest.take (k + 1) = rest.take k ++ [anchor] := by
    have hlt : k < rest.length := List.findIdx_lt_length_of_exists h
    have hget : rest[k]? = some anchor := by
      rw [← List.head?_drop, hdrop]
      rfl
    rw [List.take_add_one, hget]
    rfl
  refine ⟨(rest.take k).map Placement.relationId, (rest.drop (k + 1)).map Placement.relationId,
    ?_, ?_⟩
  · conv_lhs => rw [hrest]
    rw [List.map_append, List.map_cons, hid]
  · cases target with
    | before anchorId =>
      show (rest.take k ++ moving :: rest.drop k).map Placement.relationId = _
      rw [hdrop, List.map_append, List.map_cons, List.map_cons, hid, List.append_assoc]
      rfl
    | after anchorId =>
      show (rest.take (k + 1) ++ moving :: rest.drop (k + 1)).map Placement.relationId = _
      rw [htake, List.append_assoc, List.singleton_append, List.map_append, List.map_cons,
        List.map_cons, hid, List.append_assoc]
      rfl

/-- The neighbours, among ids of which none is the moved one. -/
theorem filter_neighbours {target : Target} {relationId : Uuid} {l r : List Uuid}
    (h : ∀ id ∈ l ++ target.anchorId :: r, id ≠ relationId) :
    (l ++ target.neighbours relationId ++ r).filter (· ≠ relationId)
      = l ++ target.anchorId :: r := by
  have hkept : (l ++ target.anchorId :: r).filter (· ≠ relationId) = l ++ target.anchorId :: r :=
    List.filter_eq_self.mpr fun id hid => decide_eq_true (h id hid)
  conv_rhs => rw [← hkept]
  cases target with
  | before anchorId => simp [Target.neighbours, Target.anchorId]
  | after anchorId => simp [Target.neighbours, Target.anchorId, List.filter_cons]

theorem perm_neighbours (target : Target) (relationId : Uuid) (l r : List Uuid) :
    (l ++ target.neighbours relationId ++ r).Perm (relationId :: (l ++ target.anchorId :: r)) := by
  cases target with
  | before anchorId =>
    rw [List.append_assoc]
    exact List.perm_middle
  | after anchorId =>
    have hmiddle : (l ++ [anchorId] ++ relationId :: r).Perm
        (relationId :: (l ++ [anchorId] ++ r)) := List.perm_middle
    simpa [Target.neighbours, Target.anchorId] using hmiddle

theorem order_perm (placements : List Placement) :
    (order placements).Perm (placements.map Placement.relationId) :=
  (List.perm_insertionSort _ placements).map Placement.relationId

/-- **A picture that was moved**, in an order of placements. -/
structure Moved (placements : List Placement) (relationId : Uuid) (target : Target)
    (result : List Placement) : Prop where
  /-- The relations are the same, each as often as before. -/
  perm : (result.map Placement.relationId).Perm (placements.map Placement.relationId)
  /-- They are numbered from zero. -/
  numbered : result.map Placement.position
    = (List.range placements.length).map fun i : ℕ => (i : ℤ)
  /-- The moved one stands immediately before or after the other. -/
  adjacent : target.neighbours relationId <:+: result.map Placement.relationId
  /-- The rest is in the order it was in. -/
  others : (result.map Placement.relationId).filter (· ≠ relationId)
    = (order placements).filter (· ≠ relationId)

/-- **A picture is moved next to any other.** -/
theorem moveRelation_moved {placements : List Placement} {relationId : Uuid} {target : Target}
    (hnodup : (placements.map Placement.relationId).Nodup)
    (hmoving : relationId ∈ placements.map Placement.relationId)
    (hanchor : target.anchorId ∈ placements.map Placement.relationId)
    (hne : target.anchorId ≠ relationId) :
    ∃ result, moveRelation placements relationId target = some result
      ∧ Moved placements relationId target result := by
  have hmem : ∀ id, id ∈ placements.map Placement.relationId →
      ∃ p ∈ ordered placements, p.relationId = id := by
    intro id hid
    obtain ⟨p, hp, rfl⟩ := List.mem_map.mp hid
    exact ⟨p, (List.mem_insertionSort _).mpr hp, rfl⟩
  obtain ⟨moved, hmoved, hmovedId⟩ := hmem relationId hmoving
  obtain ⟨anchor, hanchorMem, hanchorId⟩ := hmem _ hanchor
  -- The relation is found.
  obtain ⟨moving, hfind⟩ : ∃ moving,
      (ordered placements).find? (fun p => p.relationId = relationId) = some moving :=
    Option.isSome_iff_exists.mp (List.find?_isSome.mpr ⟨moved, hmoved, by simpa using hmovedId⟩)
  have hid : moving.relationId = relationId := by simpa using List.find?_some hfind
  set rest := (ordered placements).filter fun p => p.relationId ≠ relationId with hrest
  have hexists : ∃ p ∈ rest, decide (p.relationId = target.anchorId) = true := by
    refine ⟨anchor, List.mem_filter.mpr ⟨hanchorMem, ?_⟩, decide_eq_true hanchorId⟩
    rw [hanchorId]
    exact decide_eq_true hne
  obtain ⟨l, r, hids, hsplice⟩ := splice_findIdx moving hexists
  rw [hid] at hsplice
  set result := splice rest
    (target.start (rest.findIdx fun p => p.relationId = target.anchorId)) moving with hresult
  have hmove : moveRelation placements relationId target = some (renumbered result) := by
    have hfound : ¬ ((ordered placements).all (fun p => p.relationId ≠ target.anchorId) = true
        ∨ target.anchorId = relationId) := by
      rintro (hall | heq)
      · exact of_decide_eq_true (List.all_eq_true.mp hall anchor hanchorMem) hanchorId
      · exact hne heq
    rw [moveRelation, hfind]
    exact if_neg hfound
  -- The ids of the rest are those of the order without the moved one.
  have hrestIds : rest.map Placement.relationId
      = (order placements).filter (· ≠ relationId) := by
    rw [order, List.filter_map]
    rfl
  have hnot : ∀ id ∈ l ++ target.anchorId :: r, id ≠ relationId := by
    intro id hmem
    rw [← hids, hrestIds] at hmem
    exact of_decide_eq_true (List.mem_filter.mp hmem).2
  have hsame : (l ++ target.neighbours relationId ++ r).filter (· ≠ relationId)
      = l ++ target.anchorId :: r := filter_neighbours hnot
  have hperm : (result.map Placement.relationId).Perm (placements.map Placement.relationId) := by
    have hordered := order_perm placements
    have htaken : (order placements).Perm (relationId :: rest.map Placement.relationId) := by
      have herase : (order placements).erase relationId
          = (order placements).filter (· ≠ relationId) := by
        rw [(hordered.nodup_iff.mpr hnodup).erase_eq_filter]
        exact List.filter_congr fun id _ => by simp [bne, Bool.beq_eq_decide_eq]
      rw [hrestIds, ← herase]
      exact List.perm_cons_erase (hordered.mem_iff.mpr hmoving)
    rw [hsplice]
    refine (perm_neighbours target relationId l r).trans ?_
    rw [← hids]
    exact htaken.symm.trans hordered
  refine ⟨renumbered result, hmove, ?_, ?_, ?_, ?_⟩
  · rwa [map_relationId_renumbered]
  · have hlength := hperm.length_eq
    rw [List.length_map, List.length_map] at hlength
    rw [map_position_renumbered, hlength]
  · rw [map_relationId_renumbered, hsplice]
    exact ⟨l, r, rfl⟩
  · rw [map_relationId_renumbered, hsplice, hsame, ← hrestIds, hids]

/-- What is moved is placed, and so is what it is moved next to. -/
theorem placed_of_moveRelation {placements result : List Placement} {relationId : Uuid}
    {target : Target} (h : moveRelation placements relationId target = some result) :
    relationId ∈ placements.map Placement.relationId
      ∧ target.anchorId ∈ placements.map Placement.relationId ∧ target.anchorId ≠ relationId := by
  have hmem : ∀ p ∈ ordered placements, p.relationId ∈ placements.map Placement.relationId :=
    fun p hp => List.mem_map_of_mem ((List.mem_insertionSort _).mp hp)
  unfold moveRelation at h
  split at h
  · cases h
  · next moving hfind =>
    split_ifs at h with hfound
    obtain ⟨hanchor, hne⟩ := not_or.mp hfound
    obtain ⟨anchor, hanchorMem, hid⟩ := List.all_eq_false.mp (Bool.not_eq_true _ ▸ hanchor)
    have hmoving : moving.relationId = relationId := by simpa using List.find?_some hfind
    have hanchorId : anchor.relationId = target.anchorId := by simpa using hid
    refine ⟨?_, ?_, hne⟩
    · rw [← hmoving]
      exact hmem moving (List.mem_of_find?_eq_some hfind)
    · rw [← hanchorId]
      exact hmem anchor hanchorMem

end Gallery
