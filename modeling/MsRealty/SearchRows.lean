import MsRealty.SearchListings

/-!
# The rows of a search

What the rows that satisfy a search are: each comes from a document, its
eligible publication and its listing, so that a listing matches once and is
still published when it is shown. Their sort keys have short texts, and the
facet counts of the chosen types sum to the rows of those types.
-/

namespace Search

variable {db : Database} {tables : SearchTables} {search : NormalizedSearch} {now : Instant}

/-! ## Matching rows -/

/-- **What a matching row is**: a document in the locale of the search, with
its eligible publication and its listing. -/
theorem matchRow?_cases {doc : SearchDocument} {row : MatchRow}
    (h : matchRow? db tables search now doc = some row) :
    ∃ publication ∈ (tables.eligible search.locale).rows, ∃ listing ∈ tables.listings.rows,
      publication.listingId = doc.listingId ∧ listing.id = doc.listingId ∧
      doc.locale = search.locale ∧ row.listingId = doc.listingId ∧
      row.activatedAt = publication.activatedAt ∧
      (row.k1, row.k2)
        = sortKeys search ((plan db search now).rank doc) publication.activatedAt doc listing := by
  simp only [matchRow?, Option.bind_eq_bind, Option.bind_eq_some_iff] at h
  obtain ⟨publication, hpublication, listing, hlisting, hrow⟩ := h
  obtain ⟨hmem, hid⟩ := Table.get?_eq_some.mp hlisting
  have hsame := List.find?_some hpublication
  rw [decide_eq_true_eq] at hsame
  split_ifs at hrow with hwhere
  have hlocale : doc.locale = search.locale := by
    simp only [plan, Sql.holds_all, List.cons_append, List.all_cons, Bool.and_eq_true,
      Sql.holds_some, decide_eq_true_eq] at hwhere
    exact hwhere.1
  obtain rfl := Option.some.inj hrow
  exact ⟨publication, List.mem_of_find?_eq_some hpublication, listing, hmem, hsame.1, hid,
    hlocale, rfl, rfl, rfl⟩

theorem mem_matching {row : MatchRow} (h : row ∈ matching db tables search now) :
    ∃ doc ∈ tables.documents.rows, matchRow? db tables search now doc = some row :=
  List.mem_filterMap.mp h

/-- **A listing matches once**: it has one document in the locale. -/
theorem matching_nodup :
    ((matching db tables search now).map MatchRow.listingId).Nodup := by
  have hunique : tables.documents.rows.Pairwise
      (fun d d' => (d.listingId, d.locale) ≠ (d'.listingId, d'.locale)) :=
    List.pairwise_map.mp tables.documents.unique
  refine List.pairwise_map.mpr (hunique.filterMap _ ?_)
  intro d d' hne row hrow row' hrow' hsame
  obtain ⟨_, -, _, -, -, -, hlocale, hid, -, -⟩ := matchRow?_cases hrow
  obtain ⟨_, -, _, -, -, -, hlocale', hid', -, -⟩ := matchRow?_cases hrow'
  refine hne ?_
  rw [← hid, ← hid', hsame, hlocale, hlocale']

theorem mem_matching_of_mem_selectedRows {row : MatchRow}
    (h : row ∈ selectedRows db tables search now) : row ∈ matching db tables search now :=
  (List.mem_filter.mp h).1

theorem selectedRows_nodup :
    ((selectedRows db tables search now).map MatchRow.listingId).Nodup :=
  matching_nodup.sublist (List.filter_sublist.map _)

/-- Rows of different listings have different keys. -/
theorem selectedRows_key_nodup :
    ((selectedRows db tables search now).map MatchRow.key).Nodup := by
  refine List.Nodup.of_map (fun key : SortKey => (ofLex (ofLex key).snd).snd) ?_
  rw [List.map_map]
  exact selectedRows_nodup

/-- The listing of a matching row has a UUID. -/
theorem isUuid_of_mem_matching {row : MatchRow} (h : row ∈ matching db tables search now) :
    isUuid row.listingId.toList = true := by
  obtain ⟨doc, hdoc, hrow⟩ := mem_matching h
  obtain ⟨_, -, _, -, -, -, -, hid, -, -⟩ := matchRow?_cases hrow
  rw [hid]
  exact tables.uuid_listingId doc hdoc

/-- The activation of a matching row is one of an eligible publication. -/
theorem activatedAt_of_mem_matching {row : MatchRow}
    (h : row ∈ matching db tables search now) :
    ∃ p ∈ (tables.eligible search.locale).rows, p.activatedAt = row.activatedAt := by
  obtain ⟨doc, -, hrow⟩ := mem_matching h
  obtain ⟨p, hp, _, -, -, -, -, -, hactivated, -⟩ := matchRow?_cases hrow
  exact ⟨p, hp, hactivated.symm⟩

/-- **The rows of a page are still published.** -/
theorem mem_loadPublishedIds {rows : List MatchRow}
    (hrows : ∀ row ∈ rows, row ∈ matching db tables search now) {row : MatchRow}
    (h : row ∈ rows) :
    row.listingId ∈ loadPublishedIds tables search.locale (rows.map MatchRow.listingId) := by
  obtain ⟨doc, -, hrow⟩ := mem_matching (hrows row h)
  obtain ⟨p, hp, listing, hlisting, hpub, hid, -, hrowId, -, -⟩ := matchRow?_cases hrow
  refine List.mem_map.mpr ⟨p, List.mem_filter.mpr ⟨hp, ?_⟩, hpub.trans hrowId.symm⟩
  have hget : tables.listings.get? p.listingId = some listing :=
    Table.get?_eq_some.mpr ⟨hlisting, hid.trans hpub.symm⟩
  rw [decide_eq_true_eq, hget, hpub, ← hrowId]
  exact ⟨List.mem_map_of_mem h, rfl⟩

/-! ## Short keys -/

/-- A decimal whose text is short. -/
def ShortNumeric (n : Numeric) : Prop := n.scale ≤ 6 ∧ n.unscaled.natAbs < 10 ^ 19

theorem ShortNumeric.length_le {n : Numeric} (h : ShortNumeric n) : n.text.length ≤ 64 := by
  have hlarge : n.unscaled.natAbs < 10 ^ (19 + n.scale) :=
    lt_of_lt_of_le h.2 (Nat.pow_le_pow_right (by decide) (Nat.le_add_right 19 n.scale))
  have hlength := Numeric.length_text_le (by decide) hlarge
  have hscale := h.1
  omega

theorem ShortNumeric.neg {n : Numeric} (h : ShortNumeric n) : ShortNumeric (-n) := by
  refine ⟨h.1, ?_⟩
  show (-n.unscaled).natAbs < 10 ^ 19
  rw [Int.natAbs_neg]
  exact h.2

theorem shortNumeric_ofInt {n : ℤ} (h : Sql.fitsSigned 64 n = true) :
    ShortNumeric (Numeric.ofInt n) := by
  refine ⟨Nat.zero_le 6, ?_⟩
  show n.natAbs < 10 ^ 19
  simp only [Sql.fitsSigned, Bool.decide_and, Bool.and_eq_true, decide_eq_true_eq] at h
  omega

theorem shortNumeric_epoch {t : Instant} (h : IsoInstant.ValidTime t) :
    ShortNumeric (epoch t) := by
  refine ⟨le_refl 6, ?_⟩
  show (t * 1000).natAbs < 10 ^ 19
  unfold IsoInstant.ValidTime IsoInstant.maxTime at h
  omega

theorem rank_eq (db : Database) (search : NormalizedSearch) (now : Instant)
    (doc : SearchDocument) :
    (plan db search now).rank doc = 0 ∨ (plan db search now).rank doc = 1 := by
  simp only [plan, Sql.caseWhen]
  split_ifs <;> simp

/-- The amount that orders a row, or its negation, fits 64 bits. -/
theorem fitsSigned_comparableAmount (criteria : SearchCriteria) {doc : SearchDocument}
    (h : ∀ n, doc.priceAmountMinor = some n →
      Sql.fitsSigned 64 n = true ∧ Sql.fitsSigned 64 (-n) = true) :
    Sql.fitsSigned 64 (comparableAmount criteria doc) = true ∧
      Sql.fitsSigned 64 (-comparableAmount criteria doc) = true := by
  have hzero : Sql.fitsSigned 64 0 = true ∧ Sql.fitsSigned 64 (-0) = true := by decide
  unfold comparableAmount Sql.caseWhen
  split_ifs
  · cases hamount : doc.priceAmountMinor with
    | none => exact hzero
    | some n => exact h n hamount
  · exact hzero

/-- **The sort keys have short texts.** -/
theorem shortNumeric_sortKeys (search : NormalizedSearch) {rank : ℤ} (hrank : rank = 0 ∨ rank = 1)
    {activatedAt : Instant} (hactivated : IsoInstant.ValidTime activatedAt) {doc : SearchDocument}
    (hdoc : doc ∈ tables.documents.rows) {listing : ListingRow}
    (hlisting : listing ∈ tables.listings.rows) :
    ShortNumeric (sortKeys search rank activatedAt doc listing).fst ∧
      ShortNumeric (sortKeys search rank activatedAt doc listing).snd := by
  have hzero : ShortNumeric (Numeric.ofInt 0) := shortNumeric_ofInt (by decide)
  have hfirst : ∀ t : Sql.Truth, ShortNumeric (Numeric.ofInt (Sql.caseWhen t 0 1)) := by
    intro t
    refine shortNumeric_ofInt ?_
    unfold Sql.caseWhen
    split_ifs <;> decide
  obtain ⟨hamount, hneg⟩ := fitsSigned_comparableAmount search.criteria
    (tables.bigint_price doc hdoc)
  unfold sortKeys
  cases search.sort with
  | relevance =>
    refine ⟨?_, ShortNumeric.neg ?_⟩
    · obtain rfl | rfl := hrank
      · exact hzero
      · exact shortNumeric_ofInt (by decide)
    · cases hconfirmed : listing.availabilityConfirmedAt with
      | none => exact hzero
      | some t => exact shortNumeric_epoch (tables.valid_confirmedAt listing hlisting t hconfirmed)
  | newest => exact ⟨hzero, (shortNumeric_epoch hactivated).neg⟩
  | priceAsc => exact ⟨hfirst _, shortNumeric_ofInt hamount⟩
  | priceDesc => exact ⟨hfirst _, shortNumeric_ofInt hneg⟩

theorem shortNumeric_of_mem_matching {row : MatchRow}
    (h : row ∈ matching db tables search now) : ShortNumeric row.k1 ∧ ShortNumeric row.k2 := by
  obtain ⟨doc, hdoc, hrow⟩ := mem_matching h
  obtain ⟨p, hp, listing, hlisting, -, -, -, -, -, hkeys⟩ := matchRow?_cases hrow
  have hshort := shortNumeric_sortKeys search (rank_eq db search now doc)
    (tables.valid_activatedAt search.locale p hp) hdoc hlisting
  rw [← hkeys] at hshort
  exact hshort

/-! ## Counting -/

/-- The rows of one more type are those of that type and the others. -/
theorem countP_mem_cons {α β : Type*} [DecidableEq β] (f : α → β) (p : β → Bool) (t : β)
    (types : List β) (rows : List α) :
    rows.countP (fun r => f r ∈ t :: types ∧ p (f r))
      = (if p t then rows.countP (fun r => f r = t) else 0)
        + rows.countP (fun r => f r ∈ types.filter (fun u => !u == t) ∧ p (f r)) := by
  induction rows with
  | nil => simp
  | cons r rows ih =>
    rw [List.countP_cons, List.countP_cons, List.countP_cons, ih]
    by_cases ht : f r = t
    · by_cases hp : p t = true
      · simp only [ht, hp, List.mem_cons, true_or, and_self, decide_true, if_true]
        simp
        omega
      · simp [ht, hp]
    · by_cases hp : p t = true
      · simp [ht, hp]
        omega
      · simp [ht, hp]

/-- Counts of the types that are there, summed over the types with a property. -/
theorem foldl_counts {α β : Type*} [DecidableEq β] (f : α → β) (p : β → Bool) (rows : List α)
    (types : List β) (n : ℕ) :
    (types.eraseDups.map (fun t => (t, rows.countP (fun r => f r = t)))).foldl
        (fun n facet => if p facet.fst then n + facet.snd else n) n
      = n + rows.countP (fun r => f r ∈ types ∧ p (f r)) := by
  induction hlength : types.length using Nat.strong_induction_on generalizing types n with
  | _ length ih =>
    cases types with
    | nil => simp
    | cons t types =>
      have hshorter : (types.filter (fun u => !u == t)).length < length := by
        rw [← hlength]
        exact Nat.lt_succ_of_le (List.length_filter_le _ types)
      rw [List.eraseDups_cons, List.map_cons, List.foldl_cons, ih _ hshorter _ _ rfl,
        countP_mem_cons]
      dsimp only
      split_ifs <;> omega

/-- **The facets of the chosen types sum to the rows of those types.** -/
theorem totalOf_facetsOf (criteria : SearchCriteria) (rows : List MatchRow) :
    totalOf criteria (facetsOf rows) = min (exactCountLimit + 1)
      (rows.filter (fun row => selectedType criteria row.propertyType)).length := by
  unfold totalOf facetsOf
  rw [foldl_counts, Nat.zero_add, ← List.countP_eq_length_filter]
  refine congrArg (min _) (List.countP_congr (fun row hrow => ?_))
  simp only [List.mem_map_of_mem hrow, true_and, decide_eq_true_eq]

end Search
