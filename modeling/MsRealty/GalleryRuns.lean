import MsRealty.GalleryCommands

/-!
# The order of a gallery, over all runs

Commands on galleries that interleave statement by statement. What a command may rely on
is that while it holds the lock of a listing nobody else changes its gallery
(`galleries`), and what it guarantees is that it changes no other (`Edit`).

While positions are assigned one after another two pictures may have the same. So the
invariant is no matter of each statement, but of all of them together
(`positions_assigned`): the positions a command assigns are those of all live relations,
each with one of its own.
-/

namespace Gallery

open RowLocks

/-! ## What is relied on -/

/-- **What stays while a lock is held**: the row, and of a listing its gallery. -/
def KeepsRows : Row → Mode → GalleryData → GalleryData → Prop
  | .listing id, _, d, d' =>
    listings.find d' id = listings.find d id ∧ d'.gallery id = d.gallery id
  | .relation id, _, d, d' => mediaRelations.find d' id = mediaRelations.find d id
  | .asset id, _, d, d' => mediaAssets.find d' id = mediaAssets.find d id
  | .upload id, _, d, d' => fileUploads.find d' id = fileUploads.find d id

/-- **The discipline of galleries.** -/
def galleries : Discipline GalleryData Row where
  Every _ _ := True
  Keeps := KeepsRows
  every_refl _ := trivial
  every_trans _ _ := trivial
  keeps_refl key mode d := by
    cases key with
    | listing id => exact ⟨rfl, rfl⟩
    | relation id => rfl
    | asset id => rfl
    | upload id => rfl
  keeps_trans {key mode a b c} h h' := by
    cases key with
    | listing id => exact ⟨h'.1.trans h.1, h'.2.trans h.2⟩
    | relation id => exact Eq.trans h' h
    | asset id => exact Eq.trans h' h
    | upload id => exact Eq.trans h' h

theorem locksRows_listings : LocksRows galleries listings := fun _ _ _ _ h => h.1

theorem locksRows_mediaRelations : LocksRows galleries mediaRelations := fun _ _ _ _ h => h

theorem locksRows_mediaAssets : LocksRows galleries mediaAssets := fun _ _ _ _ h => h

theorem locksRows_fileUploads : LocksRows galleries fileUploads := fun _ _ _ _ h => h

/-! ## What is changed -/

section

variable {ρ : Type} {key : ρ → Uuid} {table : TableIn GalleryData Row key} {locks : Locks Row}
  {id : Uuid}

variable (table) in
theorem ne_of_lock {id' : Uuid} (hlock : (table.lock id', Mode.update) ∈ locks)
    (hnot : (table.lock id, Mode.update) ∉ locks) : id ≠ id' := by
  rintro rfl
  exact hnot hlock

variable (table) in
theorem find_insert_of_lock {row : ρ} (hlock : (table.lock (key row), Mode.update) ∈ locks)
    (hnot : (table.lock id, Mode.update) ∉ locks) (d : GalleryData) :
    table.find (table.insert row d) id = table.find d id := by
  rw [TableIn.find_insert, if_neg (ne_of_lock table hlock hnot).symm]

end

/-- **A change of one gallery**, and of rows that are locked. -/
structure Edit (listingId : Uuid) (locks : Locks Row) (d d' : GalleryData) : Prop where
  listings : ∀ id, id ≠ listingId → Gallery.listings.find d' id = Gallery.listings.find d id
  galleries : ∀ id, id ≠ listingId → d'.gallery id = d.gallery id
  relations : ∀ id, (Row.relation id, Mode.update) ∉ locks →
    mediaRelations.find d' id = mediaRelations.find d id
  assets : ∀ id, (Row.asset id, Mode.update) ∉ locks →
    mediaAssets.find d' id = mediaAssets.find d id
  uploads : ∀ id, (Row.upload id, Mode.update) ∉ locks →
    fileUploads.find d' id = fileUploads.find d id

section

variable {listingId : Uuid} {locks : Locks Row} {d d₁ d₂ d₃ : GalleryData}

theorem Edit.trans (h : Edit listingId locks d₁ d₂) (h' : Edit listingId locks d₂ d₃) :
    Edit listingId locks d₁ d₃ where
  listings id hid := (h'.listings id hid).trans (h.listings id hid)
  galleries id hid := (h'.galleries id hid).trans (h.galleries id hid)
  relations id hid := (h'.relations id hid).trans (h.relations id hid)
  assets id hid := (h'.assets id hid).trans (h.assets id hid)
  uploads id hid := (h'.uploads id hid).trans (h.uploads id hid)

/-- Who holds more locks may edit more. -/
theorem Edit.mono {locks' : Locks Row} (h : Edit listingId locks d₁ d₂)
    (hlocks : ∀ l ∈ locks, l ∈ locks') : Edit listingId locks' d₁ d₂ where
  listings := h.listings
  galleries := h.galleries
  relations id hid := h.relations id fun hmem => hid (hlocks _ hmem)
  assets id hid := h.assets id fun hmem => hid (hlocks _ hmem)
  uploads id hid := h.uploads id fun hmem => hid (hlocks _ hmem)

/-- A change of the listing itself. -/
theorem edit_listing (change : Change ListingRow.id) (d : GalleryData) :
    Edit listingId locks d (listings.change listingId change d) where
  listings _ hid := TableIn.find_change_of_ne change d hid
  galleries _ _ := rfl
  relations _ _ := rfl
  assets _ _ := rfl
  uploads _ _ := rfl

/-- A picture that is inserted. -/
theorem edit_insertAsset {row : AssetRow} (hlock : (Row.asset row.id, Mode.update) ∈ locks)
    (d : GalleryData) : Edit listingId locks d (mediaAssets.insert row d) where
  listings _ _ := rfl
  galleries _ _ := rfl
  relations _ _ := rfl
  assets _ hid := find_insert_of_lock mediaAssets hlock hid d
  uploads _ _ := rfl

/-- An upload that is inserted. -/
theorem edit_insertUpload {row : UploadRow} (hlock : (Row.upload row.id, Mode.update) ∈ locks)
    (d : GalleryData) : Edit listingId locks d (fileUploads.insert row d) where
  listings _ _ := rfl
  galleries _ _ := rfl
  relations _ _ := rfl
  assets _ _ := rfl
  uploads _ hid := find_insert_of_lock fileUploads hlock hid d

/-! ### Relations -/

theorem nodup_gallery (d : GalleryData) (id : Uuid) :
    ((d.gallery id).map RelationRow.id).Nodup :=
  d.relations.unique_filter _

theorem mem_gallery {row : RelationRow} :
    row ∈ d.gallery listingId ↔ row ∈ d.relations.rows ∧ row.listingId = listingId := by
  rw [GalleryData.gallery, List.mem_filter, decide_eq_true_eq]

/-- **A gallery after a change of a relation.** -/
theorem gallery_change (id : Uuid) {change : Change RelationRow.id}
    (hsame : ∀ row, (change.apply row).listingId = row.listingId) (d : GalleryData)
    (listingId : Uuid) : (mediaRelations.change id change d).gallery listingId
      = (d.gallery listingId).map fun row => if row.id = id then change.apply row else row := by
  show ((d.relations.rows.map fun row => if decide (row.id = id) = true then change.apply row
    else row).filter fun row => row.listingId = listingId) = _
  rw [List.filter_map]
  have hfilter : ((fun row : RelationRow => decide (row.listingId = listingId)) ∘ fun row =>
      if decide (row.id = id) = true then change.apply row else row)
      = fun row => decide (row.listingId = listingId) := by
    ext row
    rw [Function.comp_apply]
    split_ifs
    · rw [hsame]
    · rfl
  rw [hfilter]
  simp only [decide_eq_true_eq]
  rfl

/-- A relation of the gallery that is changed, and locked. -/
theorem edit_relation {id : Uuid} {change : Change RelationRow.id}
    (hsame : ∀ row, (change.apply row).listingId = row.listingId)
    (hlock : (Row.relation id, Mode.update) ∈ locks)
    (hmem : ∃ row ∈ d.gallery listingId, row.id = id) :
    Edit listingId locks d (mediaRelations.change id change d) where
  listings _ _ := rfl
  galleries other hother := by
    obtain ⟨row, hrow, rfl⟩ := hmem
    rw [gallery_change row.id hsame]
    refine (List.map_congr_left fun row' hrow' => if_neg fun heq => hother ?_).trans (List.map_id _)
    -- The relation of the id is in one gallery only.
    have hone : row' = row :=
      Table.eq_of_key (mem_gallery.mp hrow').1 (mem_gallery.mp hrow).1 heq
    rw [← (mem_gallery.mp hrow').2, hone, (mem_gallery.mp hrow).2]
  relations _ hnot :=
    TableIn.find_change_of_ne change d (ne_of_lock mediaRelations hlock hnot)
  assets _ _ := rfl
  uploads _ _ := rfl

/-- **A gallery after an insertion.** -/
theorem gallery_insert {row : RelationRow} (hfree : mediaRelations.find d row.id = none)
    (listingId : Uuid) : (mediaRelations.insert row d).gallery listingId
      = if row.listingId = listingId then row :: d.gallery listingId else d.gallery listingId := by
  have hothers : d.relations.rows.filter (fun row' => decide (row'.id ≠ row.id))
      = d.relations.rows :=
    List.filter_eq_self.mpr fun row' hrow' =>
      decide_eq_true (Table.get?_eq_none.mp hfree row' hrow')
  show (row :: d.relations.rows.filter fun row' => decide (row'.id ≠ row.id)).filter _ = _
  rw [hothers, List.filter_cons]
  simp only [decide_eq_true_eq]
  rfl

/-- A relation of the gallery that is inserted. -/
theorem edit_insertRelation {row : RelationRow} (hlisting : row.listingId = listingId)
    (hfree : mediaRelations.find d row.id = none)
    (hlock : (Row.relation row.id, Mode.update) ∈ locks) :
    Edit listingId locks d (mediaRelations.insert row d) where
  listings _ _ := rfl
  galleries id hid := by
    rw [gallery_insert hfree, if_neg fun heq => hid (heq.symm.trans hlisting)]
  relations _ hid := find_insert_of_lock mediaRelations hlock hid d
  assets _ _ := rfl
  uploads _ _ := rfl

end

/-! ## Positions -/

/-- What the assignment of positions writes. -/
def assigned : List (Uuid × ℤ) → GalleryData → GalleryData
  | [] => id
  | item :: rest => assigned rest ∘ mediaRelations.change item.1 (setPosition item.2)

/-- A relation at the last position it is assigned. -/
def reposition (items : List (Uuid × ℤ)) (row : RelationRow) : RelationRow :=
  items.foldl (fun row item => if row.id = item.1 then { row with position := item.2 } else row) row

section

variable {items : List (Uuid × ℤ)} {row : RelationRow} {listingId : Uuid} {locks : Locks Row}
  {rows : List RelationRow}

theorem reposition_cons (item : Uuid × ℤ) (items : List (Uuid × ℤ)) (row : RelationRow) :
    reposition (item :: items) row
      = reposition items (if row.id = item.1 then { row with position := item.2 } else row) :=
  rfl

/-- Only the position is changed. -/
theorem reposition_eq (items : List (Uuid × ℤ)) (row : RelationRow) :
    reposition items row = { row with position := (reposition items row).position } := by
  induction items generalizing row with
  | nil => rfl
  | cons item rest ih =>
    rw [reposition_cons, ih]
    split_ifs
    · rfl
    · rfl

/-- A relation that is assigned no position has the one it had. -/
theorem reposition_of_notMem (h : row.id ∉ items.map Prod.fst) : reposition items row = row := by
  induction items with
  | nil => rfl
  | cons item rest ih =>
    rw [List.map_cons, List.mem_cons, not_or] at h
    rw [reposition_cons, if_neg h.1, ih h.2]

/-- **A relation is where it is assigned.** -/
theorem position_reposition {position : ℤ} (hnodup : (items.map Prod.fst).Nodup)
    (h : (row.id, position) ∈ items) : (reposition items row).position = position := by
  induction items with
  | nil => exact absurd h List.not_mem_nil
  | cons item rest ih =>
    obtain ⟨hnot, hnodup⟩ := List.nodup_cons.mp hnodup
    rw [reposition_cons]
    obtain rfl | h := List.mem_cons.mp h
    · have hrest : reposition rest { row with position := position }
          = { row with position := position } := reposition_of_notMem hnot
      rw [if_pos rfl, hrest]
    · have hother : row.id ≠ item.1 := by
        intro heq
        refine hnot ?_
        rw [← heq]
        exact List.mem_map_of_mem h
      rw [if_neg hother]
      exact ih hnodup h

theorem gallery_assigned (items : List (Uuid × ℤ)) (d : GalleryData) (listingId : Uuid) :
    (assigned items d).gallery listingId = (d.gallery listingId).map (reposition items) := by
  induction items generalizing d with
  | nil => exact (List.map_id _).symm
  | cons item rest ih =>
    show (assigned rest (mediaRelations.change item.1 (setPosition item.2) d)).gallery listingId = _
    rw [ih, gallery_change item.1 (fun _ => rfl), List.map_map]
    rfl

theorem edit_assigned {d : GalleryData}
    (hlocks : ∀ item ∈ items, (Row.relation item.1, Mode.update) ∈ locks)
    (hids : ∀ item ∈ items, item.1 ∈ (d.gallery listingId).map RelationRow.id) :
    Edit listingId locks d (assigned items d) := by
  induction items generalizing d with
  | nil => exact ⟨fun _ _ => rfl, fun _ _ => rfl, fun _ _ => rfl, fun _ _ => rfl, fun _ _ => rfl⟩
  | cons item rest ih =>
    have hfirst : Edit listingId locks d
        (mediaRelations.change item.1 (setPosition item.2) d) :=
      edit_relation (fun _ => rfl) (hlocks item List.mem_cons_self)
        (List.mem_map.mp (hids item List.mem_cons_self))
    refine hfirst.trans (ih (fun i hi => hlocks i (List.mem_cons_of_mem _ hi)) fun i hi => ?_)
    -- The ids of a gallery stay.
    rw [gallery_change item.1 (fun _ => rfl), List.map_map]
    have hsame : (RelationRow.id ∘ fun row : RelationRow =>
        if row.id = item.1 then (setPosition item.2).apply row else row) = RelationRow.id := by
      ext row
      rw [Function.comp_apply]
      split_ifs
      · rfl
      · rfl
    rw [hsame]
    exact hids i (List.mem_cons_of_mem _ hi)

/-- **Positions for a whole gallery**: each live relation has one of its own. -/
structure Assignment (rows : List RelationRow) (items : List (Uuid × ℤ)) : Prop where
  ids : (items.map Prod.fst).Perm ((live rows).map RelationRow.id)
  positions : (items.map Prod.snd).Nodup

theorem live_sublist (rows : List RelationRow) : (live rows).Sublist rows := List.filter_sublist

theorem live_map {f : RelationRow → RelationRow}
    (hf : ∀ row, (f row).removedAt = row.removedAt) (rows : List RelationRow) :
    live (rows.map f) = (live rows).map f := by
  rw [live, List.filter_map]
  refine congrArg (List.map f) (List.filter_congr fun row _ => ?_)
  rw [Function.comp_apply, hf]

/-- **Where every live relation is assigned a position of its own**, each has one. -/
theorem positions_assigned {d : GalleryData} (h : Assignment (d.gallery listingId) items) :
    ((live ((assigned items d).gallery listingId)).map RelationRow.position).Nodup := by
  have hnodup : ((live (d.gallery listingId)).map RelationRow.id).Nodup :=
    (nodup_gallery d listingId).sublist ((live_sublist _).map _)
  have hitems : (items.map Prod.fst).Nodup := h.ids.nodup_iff.mpr hnodup
  have hassigned : ∀ row ∈ live (d.gallery listingId), ∃ position, (row.id, position) ∈ items
      ∧ (reposition items row).position = position := by
    intro row hrow
    obtain ⟨item, hitem, hid⟩ := List.mem_map.mp (h.ids.mem_iff.mpr (List.mem_map_of_mem hrow))
    refine ⟨item.2, ?_, ?_⟩
    · rwa [← hid]
    · refine position_reposition hitems ?_
      rwa [← hid]
  rw [gallery_assigned, live_map fun row => by rw [reposition_eq items row], List.map_map]
  refine List.Nodup.map_on (fun a ha b hb heq => ?_) (List.Nodup.of_map _ hnodup)
  obtain ⟨p, hp, hpos⟩ := hassigned a ha
  obtain ⟨q, hq, hqos⟩ := hassigned b hb
  have hpq : p = q := hpos.symm.trans (heq.trans hqos)
  subst hpq
  have hid : a.id = b.id := by
    have hitem := List.inj_on_of_nodup_map h.positions hp hq rfl
    exact (Prod.mk.inj hitem).1
  exact List.inj_on_of_nodup_map hnodup ha hb hid

/-- **A move** is an assignment of positions. -/
theorem assignment_moved {relationId : Uuid} {target : Target} {moved : List Placement}
    (hnodup : (rows.map RelationRow.id).Nodup)
    (h : moveRelation ((live rows).map RelationRow.placement) relationId target = some moved) :
    Assignment rows (moved.map fun p => (p.relationId, p.position)) := by
  have hids : ((live rows).map RelationRow.placement).map Placement.relationId
      = (live rows).map RelationRow.id := by
    rw [List.map_map]
    rfl
  have hdistinct : (((live rows).map RelationRow.placement).map Placement.relationId).Nodup := by
    rw [hids]
    exact hnodup.sublist ((live_sublist _).map _)
  obtain ⟨hmoving, hanchor, hne⟩ := placed_of_moveRelation h
  obtain ⟨result, hresult, hmoved⟩ := moveRelation_moved hdistinct hmoving hanchor hne
  obtain rfl := Option.some.inj (hresult.symm.trans h)
  constructor
  · rw [List.map_map, ← hids]
    exact hmoved.perm
  · rw [List.map_map]
    show (result.map Placement.position).Nodup
    rw [hmoved.numbered]
    exact List.nodup_range.map fun _ _ => Int.ofNat_inj.mp

/-- **A reviewed order** of all live relations is an assignment of positions. -/
theorem assignment_reordered {ids : List Uuid}
    (hlength : ids.length = (order ((live rows).map RelationRow.placement)).length)
    (hnodup : ids.Nodup) (hmem : ∀ id ∈ ids, id ∈ order ((live rows).map RelationRow.placement)) :
    Assignment rows (ids.zipIdx.map fun item => (item.1, (item.2 : ℤ))) := by
  constructor
  · have hperm : ids.Perm (order ((live rows).map RelationRow.placement)) :=
      (List.subperm_of_subset hnodup hmem).perm_of_length_le hlength.ge
    have hids : (ids.zipIdx.map fun item => (item.1, (item.2 : ℤ))).map Prod.fst = ids := by
      rw [List.map_map]
      exact List.zipIdx_map_fst 0 ids
    rw [hids]
    refine hperm.trans ((order_perm _).trans ?_)
    rw [List.map_map]
    exact List.Perm.refl _
  · have hpositions : (ids.zipIdx.map fun item => (item.1, (item.2 : ℤ))).map Prod.snd
        = (List.range ids.length).map fun i : ℕ => (i : ℤ) := by
      rw [List.map_map, List.range_eq_range', ← List.zipIdx_map_snd 0 ids, List.map_map]
      rfl
    rw [hpositions]
    exact List.nodup_range.map fun _ _ => Int.ofNat_inj.mp

/-- The next position comes after all others. -/
theorem lt_nextPosition (h : row ∈ rows) : row.position < nextPosition rows := by
  have hle : ∀ (positions : List ℤ) (first : ℤ), first ≤ positions.foldl max first
      ∧ ∀ position ∈ positions, position ≤ positions.foldl max first := by
    intro positions
    induction positions with
    | nil => exact fun first => ⟨le_rfl, fun _ h => absurd h List.not_mem_nil⟩
    | cons p rest ih =>
      intro first
      obtain ⟨hfirst, hrest⟩ := ih (max first p)
      refine ⟨(le_max_left _ _).trans hfirst, fun position hposition => ?_⟩
      obtain rfl | hposition := List.mem_cons.mp hposition
      · exact (le_max_right _ _).trans hfirst
      · exact hrest position hposition
  exact Int.lt_add_one_of_le ((hle _ (-1)).2 _ (List.mem_map_of_mem h))

end

/-! ## Rules -/

section

variable {α β : Type} {locks : Locks Row} {d : GalleryData} {writes : GalleryData → GalleryData}
  {P : β → (GalleryData → GalleryData) → Locks Row → GalleryData → Prop}

/-- **What a command that holds its listing may commit**: an edit of the gallery that leaves
its positions distinct. -/
theorem mayCommit_of_edit {listingId : Uuid}
    (hlock : (Row.listing listingId, Mode.update) ∈ locks)
    (h : ∀ d', galleries.Rely locks d d' → PositionsDistinct d' →
      Edit listingId locks d' (writes d')
        ∧ ((live ((writes d').gallery listingId)).map RelationRow.position).Nodup) :
    MayCommit galleries PositionsDistinct writes locks d := by
  intro d' hrely hinv
  obtain ⟨hedit, hdistinct⟩ := h d' hrely hinv
  -- A lock that is held for an update is compatible with no other.
  have hnot : ∀ {key : Row} {mode : Mode},
      (∀ l ∈ locks, l.fst = key → l.snd.Compatible mode) → (key, Mode.update) ∉ locks :=
    fun hcompat hmem => absurd (hcompat _ hmem rfl).1 (by simp)
  refine ⟨fun id => ?_, trivial, fun key mode hcompat => ?_⟩
  · by_cases hid : id = listingId
    · rw [hid]
      exact hdistinct
    · rw [hedit.galleries id hid]
      exact hinv id
  · cases key with
    | listing id =>
      have hid : id ≠ listingId := by
        rintro rfl
        exact hnot hcompat hlock
      exact ⟨hedit.listings id hid, hedit.galleries id hid⟩
    | relation id => exact hedit.relations id (hnot hcompat)
    | asset id => exact hedit.assets id (hnot hcompat)
    | upload id => exact hedit.uploads id (hnot hcompat)

/-- **The rule of the assignment of positions**: each relation is locked. -/
theorem safe_assignPositions {f : Unit → Statements β} {items : List (Uuid × ℤ)}
    (hinv : PositionsDistinct d)
    (h : ∀ locks' d', (∀ l ∈ locks, l ∈ locks') → galleries.Rely locks d d' →
      PositionsDistinct d' → (∀ item ∈ items, (Row.relation item.1, Mode.update) ∈ locks') →
      Safe galleries PositionsDistinct P (f ()) (assigned items ∘ writes) locks' d') :
    Safe galleries PositionsDistinct P (assignPositions items >>= f) writes locks d := by
  induction items generalizing writes locks d with
  | nil => exact h locks d (fun _ hl => hl) (rely_refl _ _) hinv fun _ hi => absurd hi List.not_mem_nil
  | cons item rest ih =>
    show Safe galleries PositionsDistinct P ((updateRow mediaRelations item.1 (setPosition item.2)
      >>= fun _ => assignPositions rest) >>= f) writes locks d
    rw [Prog.bind_assoc]
    refine Safe.updateRow (.start locks d) fun d' hrely hinv' _ => ih hinv' ?_
    intro locks' d'' hsub hrely' hinv'' hheld
    refine h locks' d'' (fun l hl => hsub l (List.mem_cons_of_mem _ hl))
      (rely_trans hrely (rely_mono hrely' fun l hl => List.mem_cons_of_mem _ hl)) hinv''
      fun i hi => ?_
    obtain rfl | hi := List.mem_cons.mp hi
    · exact hsub _ List.mem_cons_self
    · exact hheld i hi

/-- **The rule of the listing of a command**: it is locked from then on. -/
theorem safe_managedListing {command : FileCommand} {f : ListingRow → Statements β}
    (h : ∀ listing d', PositionsDistinct d' →
      Safe galleries PositionsDistinct P (f listing) id [(.listing listing.id, .update)] d') :
    Safe galleries PositionsDistinct P (managedListing command >>= f) id [] d := by
  unfold managedListing
  rw [Prog.bind_assoc]
  refine Safe.reading fun d₁ _ _ => ?_
  rw [Prog.bind_assoc]
  refine Safe.required fun found _ => ?_
  rw [Prog.bind_assoc]
  refine Safe.lockRow locksRows_listings (.start _ _) (fun _ => rfl) ?_
  intro listing d₂ _ hinv hlisting _
  rw [Prog.bind_assoc]
  refine Safe.demand fun _ => ?_
  rw [Prog.bind_assoc]
  refine Safe.demand fun _ => ?_
  have hid : listing.id = found.id := (TableIn.find_eq_some.mp hlisting).2
  rw [← hid]
  exact h listing d₂ hinv

/-- **What a locked gallery is** stays so. -/
theorem gallery_of_rely {listingId : Uuid} {d' : GalleryData}
    (hlock : (Row.listing listingId, Mode.update) ∈ locks) (h : galleries.Rely locks d d') :
    d'.gallery listingId = d.gallery listingId :=
  (h.2 _ hlock).2

/-- **The end of a command**: the version of the listing. -/
theorem safe_bumpListing {listing : ListingRow} {outcome : Outcome}
    (hlock : (Row.listing listing.id, Mode.update) ∈ locks)
    (h : ∀ d', galleries.Rely locks d d' → PositionsDistinct d' →
      Edit listing.id locks d' (writes d')
        ∧ ((live ((writes d').gallery listing.id)).map RelationRow.position).Nodup) :
    Safe galleries PositionsDistinct (fun _ => MayCommit galleries PositionsDistinct)
      (bumpListing listing >>= fun _ => pure outcome) writes locks d := by
  unfold bumpListing
  refine Safe.updateRow (.start locks d) fun d₁ hrely _ _ => ?_
  refine mayCommit_of_edit (List.mem_cons_of_mem _ hlock) fun d₂ hrely₂ hinv => ?_
  have hmore : ∀ l ∈ locks, l ∈ (Row.listing listing.id, Mode.update) :: locks :=
    fun _ hl => List.mem_cons_of_mem _ hl
  obtain ⟨hedit, hdistinct⟩ := h d₂ (rely_trans hrely (rely_mono hrely₂ hmore)) hinv
  exact ⟨(hedit.mono hmore).trans (edit_listing _ _), hdistinct⟩

/-- **A command that assigns positions** to a whole gallery, and ends. -/
theorem safe_rearranged {listing : ListingRow} {items : List (Uuid × ℤ)} {outcome : Outcome}
    (hinv : PositionsDistinct d) (hitems : Assignment (d.gallery listing.id) items) :
    Safe galleries PositionsDistinct (fun _ => MayCommit galleries PositionsDistinct)
      (assignPositions items >>= fun _ => bumpListing listing >>= fun _ => pure outcome) id
      [(.listing listing.id, .update)] d := by
  refine safe_assignPositions hinv fun locks' d₁ hsub hrely _ hheld => ?_
  have hlock := hsub _ (List.mem_singleton_self (Row.listing listing.id, Mode.update))
  refine safe_bumpListing hlock fun d₂ hrely₂ _ => ?_
  have hgallery : d₂.gallery listing.id = d.gallery listing.id :=
    gallery_of_rely List.mem_cons_self (rely_trans hrely (rely_mono hrely₂ hsub))
  rw [← hgallery] at hitems
  refine ⟨edit_assigned hheld fun item hitem => ?_, positions_assigned hitems⟩
  exact ((live_sublist _).map _).subset (hitems.ids.subset (List.mem_map_of_mem hitem))

end

/-! ## Commands -/

section

variable {d : GalleryData}

theorem safe_reorderMedia (call : ReorderCall) :
    Safe galleries PositionsDistinct (fun _ => MayCommit galleries PositionsDistinct)
      (reorderMedia call) id [] d := by
  unfold reorderMedia
  refine Safe.demand fun _ => safe_managedListing fun listing d₁ _ => ?_
  refine Safe.reading fun d₂ _ hinv => Safe.demand fun hall => ?_
  exact safe_rearranged hinv (assignment_reordered hall.1 hall.2.1 hall.2.2)

theorem safe_placeMedia (call : PlaceCall) :
    Safe galleries PositionsDistinct (fun _ => MayCommit galleries PositionsDistinct)
      (placeMedia call) id [] d := by
  unfold placeMedia
  refine safe_managedListing fun listing d₁ _ => ?_
  refine Safe.reading fun d₂ _ hinv => Safe.required fun relation hrelation => ?_
  cases call.change with
  | move target =>
    show Safe galleries PositionsDistinct _ ((Prog.required _ >>= _) >>= _) _ _ _
    rw [Prog.bind_assoc]
    refine Safe.required fun moved hmoved => ?_
    exact safe_rearranged hinv (assignment_moved (nodup_gallery _ _) hmoved)
  | hidden hidden =>
    refine Safe.updateRow (.start _ d₂) fun d₃ hrely _ _ => ?_
    refine safe_bumpListing (List.mem_cons_of_mem _ List.mem_cons_self) fun d₄ hrely₄ hinv₄ => ?_
    have hgallery : d₄.gallery listing.id = d₂.gallery listing.id :=
      gallery_of_rely List.mem_cons_self
        (rely_trans hrely (rely_mono hrely₄ fun _ hl => List.mem_cons_of_mem _ hl))
    refine ⟨edit_relation (fun _ => rfl) List.mem_cons_self ⟨relation, ?_, rfl⟩, ?_⟩
    · rw [hgallery]
      exact (live_sublist _).subset (List.mem_of_find?_eq_some hrelation)
    · show ((live ((mediaRelations.change relation.id (setHidden hidden) d₄).gallery
        listing.id)).map RelationRow.position).Nodup
      rw [gallery_change relation.id fun _ => rfl, live_map fun row => ?_, List.map_map]
      · convert hinv₄ listing.id using 2
        ext row
        rw [Function.comp_apply]
        split_ifs
        · rfl
        · rfl
      · split_ifs
        · rfl
        · rfl

theorem safe_startMediaUpload (call : UploadCall) :
    Safe galleries PositionsDistinct (fun _ => MayCommit galleries PositionsDistinct)
      (startMediaUpload call) id [] d := by
  unfold startMediaUpload
  refine safe_managedListing fun listing d₁ _ => ?_
  refine Safe.insertRow locksRows_mediaAssets (.start _ _) (fun _ => rfl) fun d₂ _ _ hknown => ?_
  refine Safe.reading fun d₃ hrely₃ _ => ?_
  have hknown₃ := (hknown.rely hrely₃).learn (G := fun x =>
    x.gallery listing.id = d₃.gallery listing.id) rfl fun x hrely _ _ _ =>
      gallery_of_rely (List.mem_cons_of_mem _ List.mem_cons_self) hrely
  refine Safe.insertRow locksRows_mediaRelations hknown₃ (fun _ => rfl) fun d₄ _ _ hknown₄ => ?_
  refine Safe.insertRow locksRows_fileUploads hknown₄ (fun _ => rfl) fun d₅ _ _ hknown₅ => ?_
  refine safe_bumpListing (by simp) fun d₆ hrely hinv => ?_
  obtain ⟨⟨⟨_, hgallery⟩, hfree⟩, _⟩ := hknown₅ d₆ hrely hinv
  set relation := call.relation listing (d₃.gallery listing.id) with hrelation
  have hafter : (mediaRelations.insert relation (mediaAssets.insert (call.asset listing) d₆)).gallery
      listing.id = relation :: d₆.gallery listing.id :=
    (gallery_insert hfree listing.id).trans (if_pos rfl)
  refine ⟨?_, ?_⟩
  · exact ((edit_insertAsset (.tail _ (.tail _ (.head _))) d₆).trans
      (edit_insertRelation rfl hfree (.tail _ (.head _)))).trans (edit_insertUpload (.head _) _)
  · show ((live ((mediaRelations.insert relation (mediaAssets.insert (call.asset listing) d₆)).gallery
      listing.id)).map RelationRow.position).Nodup
    rw [hafter]
    refine List.nodup_cons.mpr ⟨fun hmem => ?_, hinv listing.id⟩
    -- The position of the new relation is larger than all the others.
    obtain ⟨row, hrow, hposition⟩ := List.mem_map.mp hmem
    have hlt := lt_nextPosition ((live_sublist _).subset hrow)
    rw [hposition, hgallery] at hlt
    exact lt_irrefl _ hlt

end

/-- **The order of galleries.** A relation is moved immediately before or after any other of
its gallery, each relation is placed once, at the positions from zero on, and the others are
in the order they were in. And whatever commands on galleries are under way, in any order of
their statements, the live relations of a gallery have positions of their own. -/
theorem gallery_order :
    (∀ (placements : List Placement) (relationId : Uuid) (target : Target),
      (placements.map Placement.relationId).Nodup → relationId ∈ placements.map Placement.relationId →
      target.anchorId ∈ placements.map Placement.relationId → target.anchorId ≠ relationId →
      ∃ result, moveRelation placements relationId target = some result
        ∧ Moved placements relationId target result)
    ∧ ∀ (d : GalleryData) (w : World GalleryData Row Outcome), PositionsDistinct d →
      Reachable MediaCommand d w → PositionsDistinct w.data := by
  refine ⟨fun _ _ _ => moveRelation_moved, fun d w hinv hreachable => ?_⟩
  refine inv_of_reachable (R := galleries) (fun command hcommand d _ => ?_) hinv hreachable
  cases hcommand with
  | upload call => exact safe_startMediaUpload call
  | place call => exact safe_placeMedia call
  | reorder call => exact safe_reorderMedia call

/-! ## A gallery of two pictures -/

/-- A listing with two pictures, at positions that leave gaps. -/
def sampleGallery : GalleryData where
  listings := ⟨[⟨"listing", 1, "MS-1", "property"⟩], by simp⟩
  relations := ⟨[⟨"first", "listing", "asset", 0, false, none⟩,
    ⟨"second", "listing", "asset", 4, false, none⟩], by simp⟩
  assets := .empty
  uploads := .empty

/-- A call that moves the second picture before the first. -/
def samplePlace : PlaceCall where
  command := ⟨true, "MS-1", 1⟩
  relationId := "second"
  change := .move (.before "first")

theorem positionsDistinct_sampleGallery : PositionsDistinct sampleGallery := by
  have hall : (sampleGallery.relations.rows.map RelationRow.position).Nodup := by decide
  intro listingId
  exact hall.sublist (((live_sublist _).trans List.filter_sublist).map _)

/-- **The second picture comes first**, and the positions stay distinct. -/
theorem gallery_order_sample :
    (∃ result, moveRelation [⟨"first", 0⟩, ⟨"second", 4⟩] "second" (.before "first") = some result
      ∧ Moved [⟨"first", 0⟩, ⟨"second", 4⟩] "second" (.before "first") result)
    ∧ ∃ w, Reachable MediaCommand sampleGallery w ∧ PositionsDistinct w.data
      ∧ (w.data.gallery "listing").map RelationRow.placement
        = [⟨"first", 1⟩, ⟨"second", 0⟩] := by
  have hrun : Reachable MediaCommand sampleGallery
      ((List.replicate 10 0).foldl World.advance
        ((⟨sampleGallery, []⟩ : World GalleryData Row Outcome).started (placeMedia samplePlace))) :=
    (Reachable.started (.init _) (.place samplePlace)).schedule _
  refine ⟨gallery_order.1 _ _ _ (by decide) (by decide) (by decide) (by decide), _, hrun, ?_, ?_⟩
  · exact gallery_order.2 _ _ positionsDistinct_sampleGallery hrun
  · decide +kernel

end Gallery
