import MsRealty.SearchRows

/-!
# Following the cursors of a search

A visitor who follows the cursor of each page sees every listing that
satisfies the search exactly once, in the order of the sort keys, as long as
the inventory does not change (`pagination_exact`).

A position in the order is the key of a row, and the cursor of a position
carries the texts of that row's keys. Exact decimals are read back from their
texts, so the page of a cursor is the page of its position, and the run of the
visitor is the run of the keyset over the selected rows.
-/

namespace Search

variable {host : Host} {db : Database} {tables : SearchTables} {search : NormalizedSearch}
  {now : Instant}

/-! ## Positions and cursors -/

/-- The cursor of a position: that of the row with this key. -/
def cursorAt (host : Host) (db : Database) (tables : SearchTables) (search : NormalizedSearch)
    (now : Instant) (position : SortKey) : Option Cursor :=
  ((selectedRows db tables search now).find? (fun row => row.key = position)).map (fun row =>
    cursorAfter (queryIdOf host search) row.k1 row.k2 row.listingId
      (totalOf search.criteria (facetsOf (matching db tables search now))) now)

/-- A position of the run: the start, or the key of a selected row. -/
def Reached (db : Database) (tables : SearchTables) (search : NormalizedSearch) (now : Instant)
    (position : Option SortKey) : Prop :=
  ∀ k, position = some k → ∃ row ∈ selectedRows db tables search now, row.key = k

theorem eq_of_key {row row' : MatchRow} (h : row ∈ selectedRows db tables search now)
    (h' : row' ∈ selectedRows db tables search now) (hkey : row.key = row'.key) : row = row' :=
  List.inj_on_of_nodup_map selectedRows_key_nodup h h' hkey

/-- The cursor of the key of a row is that of the row. -/
theorem cursorAt_key (host : Host) {row : MatchRow}
    (h : row ∈ selectedRows db tables search now) :
    cursorAt host db tables search now row.key
      = some (cursorAfter (queryIdOf host search) row.k1 row.k2 row.listingId
          (totalOf search.criteria (facetsOf (matching db tables search now))) now) := by
  unfold cursorAt
  cases hfind : (selectedRows db tables search now).find? (fun r => r.key = row.key) with
  | none => exact absurd (decide_eq_true rfl) (List.find?_eq_none.mp hfind row h)
  | some row' =>
    have hkey : row'.key = row.key := by simpa using List.find?_some hfind
    rw [eq_of_key (List.mem_of_find?_eq_some hfind) h hkey]
    rfl

/-- **The cursor after a row stands for its key**: decimals are read back from
their texts. -/
theorem position_cursorAfter (query : String) (row : MatchRow) (total : ℕ) (asOf : Instant) :
    (cursorAfter query row.k1 row.k2 row.listingId total asOf).position = row.key := by
  simp only [Cursor.position, cursorAfter, MatchRow.key, String.toList_ofList,
    Numeric.ofText?_text, Option.map_some, Option.getD_some]

/-- What the cursor of a position of the run is. -/
theorem Reached.exists_cursorAt (host : Host) {position : SortKey}
    (h : Reached db tables search now (some position)) :
    ∃ row ∈ selectedRows db tables search now, row.key = position ∧
      cursorAt host db tables search now position
        = some (cursorAfter (queryIdOf host search) row.k1 row.k2 row.listingId
            (totalOf search.criteria (facetsOf (matching db tables search now))) now) := by
  obtain ⟨row, hrow, rfl⟩ := h position rfl
  exact ⟨row, hrow, rfl, cursorAt_key host hrow⟩

theorem totalOf_le (criteria : SearchCriteria) (facets : List (PropertyType × ℕ)) :
    totalOf criteria facets ≤ exactCountLimit + 1 :=
  Nat.min_le_left _ _

/-- A query id is 24 plain characters. -/
theorem queryIdOf_plain (hhost : host.HexDigests) (search : NormalizedSearch) :
    (queryIdOf host search).toList.length = 24 ∧
      JsonText.PlainText (queryIdOf host search).toList := by
  obtain ⟨hlength, hdigits⟩ := hhost (JsonText.canonicalJson search.identity)
  unfold queryIdOf
  rw [String.toList_ofList]
  refine ⟨?_, fun c hc => ?_⟩
  · rw [List.length_take, hlength]
    rfl
  · refine isHexDigit_plain ?_
    obtain hdigit | ⟨hlow, hhigh⟩ := hdigits c (List.mem_of_mem_take hc)
    · simp [isHexDigit, hdigit]
    · simp [isHexDigit, hlow, hhigh]

section Position

variable {position : SortKey} {cursor : Cursor}

/-- **The text of a cursor of the run fits its field** and is not empty. -/
theorem Reached.length_encode (hhost : host.HexDigests) (hnow : IsoInstant.ValidTime now)
    (h : Reached db tables search now (some position))
    (hcursor : cursorAt host db tables search now position = some cursor) :
    utf16Length (encodeCursor cursor).toList ≤ 512 := by
  obtain ⟨row, hrow, -, hrowCursor⟩ := h.exists_cursorAt host
  obtain rfl := Option.some.inj (hrowCursor.symm.trans hcursor)
  have hmatch := mem_matching_of_mem_selectedRows hrow
  obtain ⟨hk1, hk2⟩ := shortNumeric_of_mem_matching hmatch
  obtain ⟨hlength, hplain⟩ := queryIdOf_plain hhost search
  refine utf16Length_encodeCursor_le hplain (le_of_eq hlength) hk1.length_le hk2.length_le
    (isUuid_of_mem_matching hmatch) ?_ hnow
  exact lt_of_le_of_lt (totalOf_le _ _) (by decide)

/-- **A cursor of the run passes its check.** -/
theorem Reached.decode (hnow : IsoInstant.ValidTime now)
    (h : Reached db tables search now (some position))
    (hcursor : cursorAt host db tables search now position = some cursor) :
    decodeCursor host (encodeCursor cursor) (queryIdOf host search) = .ok cursor := by
  obtain ⟨row, hrow, -, hrowCursor⟩ := h.exists_cursorAt host
  obtain rfl := Option.some.inj (hrowCursor.symm.trans hcursor)
  refine decodeCursor_encodeCursor host (cursorAfter_wellFormed ?_ ?_ hnow)
  · exact isUuid_of_mem_matching (mem_matching_of_mem_selectedRows hrow)
  · exact lt_of_le_of_lt (totalOf_le _ _) (by decide)

/-- A cursor that passes its check is not the empty text. -/
theorem encodeCursor_ne_empty (hnow : IsoInstant.ValidTime now)
    (h : Reached db tables search now (some position))
    (hcursor : cursorAt host db tables search now position = some cursor) :
    encodeCursor cursor ≠ "" := by
  intro hempty
  have hdecode := h.decode hnow hcursor
  have hinvalid : decodeCursor host "" (queryIdOf host search)
      = .error (cursorError "invalid") := rfl
  rw [hempty, hinvalid] at hdecode
  cases hdecode

end Position

/-! ## The response at a position -/

/-- The response at a position of the run. -/
def respondAt (host : Host) (db : Database) (tables : SearchTables) (search : NormalizedSearch)
    (now : Instant) (position : Option SortKey) : SearchResponse :=
  respond host db tables search now (position.bind (cursorAt host db tables search now))

/-- The text of the cursor of a position. -/
def cursorText (host : Host) (db : Database) (tables : SearchTables) (search : NormalizedSearch)
    (now : Instant) (position : SortKey) : String :=
  ((cursorAt host db tables search now position).map encodeCursor).getD ""

variable {position : Option SortKey}

/-- The cursor of a position stands for it. -/
theorem Reached.position_eq (h : Reached db tables search now position) :
    (position.bind (cursorAt host db tables search now)).map Cursor.position
      = position := by
  cases position with
  | none => rfl
  | some k =>
    obtain ⟨row, -, rfl, hcursor⟩ := h.exists_cursorAt host
    rw [Option.bind_some, hcursor, Option.map_some, position_cursorAfter]

/-- The page at a position. -/
def pageAt (db : Database) (tables : SearchTables) (search : NormalizedSearch)
    (now : Instant) (position : Option SortKey) : Keyset.Page MatchRow SortKey :=
  Keyset.page MatchRow.key search.pageSize (selectedRows db tables search now) position

theorem mem_pageAt {row : MatchRow} (h : row ∈ (pageAt db tables search now position).items) :
    row ∈ selectedRows db tables search now := by
  have hafter := List.mem_of_mem_take (List.mem_of_mem_take h)
  exact (List.mem_filter.mp ((Keyset.perm_ordered _).mem_iff.mp hafter)).1

/-- The rows of a page are still published. -/
theorem published_pageAt {row : MatchRow}
    (h : row ∈ (pageAt db tables search now position).items) :
    row.listingId ∈ loadPublishedIds tables search.locale
      ((pageAt db tables search now position).items.map MatchRow.listingId) :=
  mem_loadPublishedIds (fun _ hr => mem_matching_of_mem_selectedRows (mem_pageAt hr)) h

/-- What is shown of a row. -/
def MatchRow.item (row : MatchRow) : SearchResultItem :=
  ⟨row.listingId, row.rank = 0, row.unconfirmed⟩

/-- **Every row of a page is shown**, as it is still published. -/
theorem Reached.items_eq (h : Reached db tables search now position) :
    (respondAt host db tables search now position).items
      = (pageAt db tables search now position).items.map MatchRow.item := by
  have hitems : (respondAt host db tables search now position).items
      = (pageAt db tables search now position).items.filterMap (fun row =>
          if row.listingId ∈ loadPublishedIds tables search.locale
              ((pageAt db tables search now position).items.map MatchRow.listingId)
            then some row.item else none) := by
    unfold respondAt respond
    dsimp only
    rw [h.position_eq]
    rfl
  rw [hitems, List.filterMap_congr (g := fun row => some row.item)
    (fun row hrow => if_pos (published_pageAt hrow))]
  exact congrFun List.filterMap_eq_map' _

/-- **The count is that of the selected rows**, on every page. -/
theorem count_respondAt (position : Option SortKey) :
    (respondAt host db tables search now position).count
      = (min (selectedRows db tables search now).length exactCountLimit,
          if exactCountLimit < (selectedRows db tables search now).length then .estimated
          else .exact) := by
  unfold respondAt respond
  dsimp only
  rw [totalOf_facetsOf]
  show (min (min (exactCountLimit + 1) (selectedRows db tables search now).length) _,
    if _ < min (exactCountLimit + 1) (selectedRows db tables search now).length then _ else _) = _
  generalize (selectedRows db tables search now).length = n
  refine Prod.ext ?_ (if_congr ?_ rfl rfl)
  · dsimp only
    omega
  · omega

/-- The instant the first page was read at is read back. -/
theorem dateOf_asOf (host : Host) (hnow : IsoInstant.ValidTime now) :
    host.dateOf (.str (String.ofList (IsoInstant.toISOText now))) = some now := by
  show host.dateParse (String.ofList (IsoInstant.toISOText now)).toList = some now
  rw [String.toList_ofList]
  exact host.dateParse_toISOText hnow

/-- The host reads the texts of the activations as the instants they are, as
far as it takes them for dates. -/
def ReadsActivations (host : Host) (db : Database) (tables : SearchTables)
    (locale : PublicLocale) : Prop :=
  ∀ p ∈ (tables.eligible locale).rows, ∀ t,
    host.dateParse (db.timestampText p.activatedAt) = some t → t = p.activatedAt

/-- **Nothing was activated since the first page** if all was activated before it. -/
theorem activatedSince_eq_false (hnow : IsoInstant.ValidTime now)
    (hactivated : ∀ p ∈ (tables.eligible search.locale).rows, p.activatedAt ≤ now)
    (hreads : ReadsActivations host db tables search.locale) {row : MatchRow}
    (hrow : row ∈ selectedRows db tables search now) :
    activatedSince host db (selectedRows db tables search now)
      (.str (String.ofList (IsoInstant.toISOText now))) = false := by
  unfold activatedSince
  rw [dateOf_asOf host hnow]
  cases hmax : ((selectedRows db tables search now).map MatchRow.activatedAt).max? with
  | none =>
    have hnil := List.map_eq_nil_iff.mp (List.max?_eq_none_iff.mp hmax)
    rw [hnil] at hrow
    cases hrow
  | some latest =>
    obtain ⟨last, hlast, rfl⟩ := List.mem_map.mp (List.max?_mem hmax)
    obtain ⟨p, hp, hsame⟩ := activatedAt_of_mem_matching (mem_matching_of_mem_selectedRows hlast)
    dsimp only
    cases hread : host.dateParse (db.timestampText last.activatedAt) with
    | none => rfl
    | some t =>
      rw [← hsame] at hread
      obtain rfl := hreads p hp t hread
      exact decide_eq_false (not_lt.mpr (hactivated p hp))

/-- **No page is stale.** -/
theorem Reached.stale_eq_false (hnow : IsoInstant.ValidTime now)
    (hactivated : ∀ p ∈ (tables.eligible search.locale).rows, p.activatedAt ≤ now)
    (hreads : ReadsActivations host db tables search.locale)
    (h : Reached db tables search now position) :
    (respondAt host db tables search now position).stale = false := by
  have hitems : (respondAt host db tables search now position).items.length
      = (pageAt db tables search now position).items.length := by
    rw [h.items_eq, List.length_map]
  have hstale : (respondAt host db tables search now position).stale
      = (decide ((respondAt host db tables search now position).items.length
          ≠ (pageAt db tables search now position).items.length)
        || (position.bind (cursorAt host db tables search now)).any (fun cursor =>
          (totalOf search.criteria (facetsOf (matching db tables search now)) : ℚ) ≠ cursor.total
            || activatedSince host db (selectedRows db tables search now) cursor.asOf)) := by
    unfold respondAt respond
    dsimp only
    rw [h.position_eq]
    rfl
  rw [hstale, hitems, decide_eq_false (not_not_intro rfl), Bool.false_or]
  cases position with
  | none => rfl
  | some k =>
    obtain ⟨row, hrow, -, hcursor⟩ := h.exists_cursorAt host
    rw [Option.bind_some, hcursor, Option.any_some]
    exact Bool.or_eq_false_iff.mpr ⟨decide_eq_false (not_not_intro rfl),
      activatedSince_eq_false hnow hactivated hreads hrow⟩

/-- The position after a page is the key of a selected row. -/
theorem reached_next {k : SortKey}
    (h : (pageAt db tables search now position).next = some k) :
    Reached db tables search now (some k) := by
  unfold pageAt Keyset.page at h
  dsimp only at h
  split_ifs at h
  obtain ⟨row, hlast, rfl⟩ := Option.map_eq_some_iff.mp h
  rintro _ ⟨⟩
  have hmem : row ∈ (pageAt db tables search now position).items := List.mem_of_getLast? hlast
  exact ⟨row, mem_pageAt hmem, rfl⟩

/-- **The next cursor is that of the next position.** -/
theorem Reached.nextCursor_eq (h : Reached db tables search now position) :
    (respondAt host db tables search now position).nextCursor
      = (pageAt db tables search now position).next.map
          (cursorText host db tables search now) := by
  have hnext : (respondAt host db tables search now position).nextCursor
      = if search.pageSize < ((Keyset.after MatchRow.key position
            (selectedRows db tables search now)).take (search.pageSize + 1)).length then
          (pageAt db tables search now position).items.getLast?.map (fun last =>
            encodeCursor {
              query := queryIdOf host search
              key := (String.ofList last.k1.text, String.ofList last.k2.text, last.listingId)
              total := ((position.bind (cursorAt host db tables search now)).map
                Cursor.total).getD
                  (totalOf search.criteria (facetsOf (matching db tables search now)))
              asOf := ((position.bind (cursorAt host db tables search now)).map
                Cursor.asOf).getD (.str (String.ofList (IsoInstant.toISOText now))) })
        else none := by
    unfold respondAt respond
    dsimp only
    rw [h.position_eq]
    rfl
  rw [hnext]
  show _ = Option.map _ (if search.pageSize < ((Keyset.after MatchRow.key position
    (selectedRows db tables search now)).take (search.pageSize + 1)).length then
      (pageAt db tables search now position).items.getLast?.map MatchRow.key else none)
  split_ifs with hmore
  · rw [Option.map_map]
    refine Option.map_congr (fun last hlast => ?_)
    have hmem : last ∈ (pageAt db tables search now position).items :=
      List.mem_of_getLast? hlast
    show _ = ((cursorAt host db tables search now last.key).map encodeCursor).getD ""
    rw [cursorAt_key host (mem_pageAt hmem)]
    cases position with
    | none => rfl
    | some k =>
      obtain ⟨row, -, -, hcursor⟩ := h.exists_cursorAt host
      rw [Option.bind_some, hcursor]
      rfl
  · rfl

/-! ## The run -/

/-- **A search with another cursor** is the search but for the cursor. -/
theorem normalizeSearch_cursor {input : SearchInput}
    (h : normalizeSearch { input with cursor := none } = .ok search) (text : Option String)
    (htext : ∀ s, text = some s → utf16Length s.toList ≤ 512) :
    normalizeSearch { input with cursor := text } = .ok { search with cursor := text } := by
  obtain ⟨hissues, rfl⟩ := normalizeSearch_ok h
  have hfits : lengthIssues 512 "cursor" text = [] := by
    cases text with
    | none => rfl
    | some s => exact if_neg (not_lt.mpr (htext s rfl))
  have hnone : issues { input with cursor := text } = [] := by
    unfold issues at hissues ⊢
    simp only [List.append_eq_nil_iff] at hissues ⊢
    exact ⟨hissues.1, hfits⟩
  unfold normalizeSearch
  rw [hnone]
  rfl

theorem searchListings_first {input : SearchInput} (h : normalizeSearch input = .ok search)
    (hcursor : search.cursor = none) :
    searchListings host db tables input now = .ok (respond host db tables search now none) := by
  unfold searchListings
  rw [h]
  dsimp only [bind, Except.bind]
  rw [hcursor]
  rfl

/-- A cursor that passes its check is answered from there on. -/
theorem searchListings_next {input : SearchInput} (h : normalizeSearch input = .ok search)
    {text : String} (htext : search.cursor = some text) (hne : text ≠ "") {cursor : Cursor}
    (hdecode : decodeCursor host text (queryIdOf host search) = .ok cursor) :
    searchListings host db tables input now
      = .ok (respond host db tables search now (some cursor)) := by
  have hfilter : search.cursor.filter (fun text => text ≠ "") = some text := by
    rw [htext, Option.filter_some, if_pos (decide_eq_true hne)]
  unfold searchListings
  rw [h]
  dsimp only [bind, Except.bind]
  rw [hfilter]
  dsimp only
  rw [hdecode]
  rfl

/-- **Asking with the cursor of a position answers with its page.** -/
theorem searchListings_cursorText (hhost : host.HexDigests) {input : SearchInput}
    (hinput : normalizeSearch { input with cursor := none } = .ok search)
    (hnow : IsoInstant.ValidTime now) (h : Reached db tables search now position) :
    searchListings host db tables
        { input with cursor := position.map (cursorText host db tables search now) } now
      = .ok (respondAt host db tables search now position) := by
  cases position with
  | none =>
    have hnormal := normalizeSearch_cursor hinput none (fun _ h => nomatch h)
    rw [Option.map_none, searchListings_first hnormal rfl]
    rfl
  | some k =>
    obtain ⟨row, -, -, hcursor⟩ := h.exists_cursorAt host
    have htext : cursorText host db tables search now k = encodeCursor (cursorAfter
        (queryIdOf host search) row.k1 row.k2 row.listingId
        (totalOf search.criteria (facetsOf (matching db tables search now))) now) := by
      rw [cursorText, hcursor]
      rfl
    have hfits : utf16Length (cursorText host db tables search now k).toList ≤ 512 := by
      rw [htext]
      exact h.length_encode hhost hnow hcursor
    have hnormal := normalizeSearch_cursor hinput (some (cursorText host db tables search now k))
      (fun _ h => Option.some.inj h ▸ hfits)
    have hnonempty := encodeCursor_ne_empty hnow h hcursor
    have hdecode := h.decode hnow hcursor
    rw [← htext] at hnonempty hdecode
    rw [Option.map_some, searchListings_next hnormal rfl hnonempty hdecode]
    unfold respondAt
    rw [Option.bind_some, hcursor]
    rfl

/-- A page holds a listing at least. -/
theorem pageSize_pos {input : SearchInput} (h : normalizeSearch input = .ok search) :
    0 < search.pageSize := by
  obtain ⟨hissues, rfl⟩ := normalizeSearch_ok h
  dsimp only
  unfold issues at hissues
  simp only [List.append_eq_nil_iff] at hissues
  have hbound := hissues.1.2
  cases hsize : input.pageSize with
  | none => decide
  | some n =>
    rw [hsize, boundIssues, List.append_eq_nil_iff] at hbound
    rw [Option.map_some, Option.getD_some]
    have hlow : ¬ n < 1 := by
      intro hlow
      rw [if_pos hlow] at hbound
      exact absurd hbound.1 (List.cons_ne_nil _ _)
    omega

/-- Asks with a cursor, or for the first page. -/
def ask (host : Host) (db : Database) (tables : SearchTables) (input : SearchInput)
    (now : Instant) (cursor : Option String) : Except (AppError Unit) SearchResponse :=
  searchListings host db tables { input with cursor := cursor } now

/-- The cursor a reply gives. -/
def nextCursorOf (reply : Except (AppError Unit) SearchResponse) : Option String :=
  reply.toOption.bind SearchResponse.nextCursor

/-- **The run of a visitor is the run over the pages.** -/
theorem exists_follows_positions (db : Database) (tables : SearchTables)
    (hhost : host.HexDigests) {input : SearchInput}
    (hinput : normalizeSearch { input with cursor := none } = .ok search)
    (hnow : IsoInstant.ValidTime now) :
    ∃ positions : List (Option SortKey),
      (∀ position ∈ positions, Reached db tables search now position) ∧
      positions.flatMap (fun position => (pageAt db tables search now position).items)
        = Keyset.ordered MatchRow.key (selectedRows db tables search now) ∧
      Keyset.Follows (ask host db tables input now) nextCursorOf none
        (positions.map (fun position => .ok (respondAt host db tables search now position))) := by
  have hnodup : ((selectedRows db tables search now).map MatchRow.key).Nodup :=
    selectedRows_key_nodup
  obtain ⟨pages, hrun, hall⟩ := Keyset.exists_follows_pages (pageSize_pos hinput) hnodup none
  have hfollows : ∃ positions : List (Option SortKey),
      positions.map (pageAt db tables search now) = pages ∧
      (∀ position ∈ positions, Reached db tables search now position) ∧
      Keyset.Follows (ask host db tables input now) nextCursorOf
        (Option.map (cursorText host db tables search now) none)
        (positions.map (fun position =>
          .ok (respondAt host db tables search now position))) := by
    refine hrun.simulate ?_ ?_ ?_ (fun _ h => nomatch h)
    · exact fun position h => searchListings_cursorText hhost hinput hnow h
    · exact fun position h => h.nextCursor_eq
    · exact fun position k _ hnext => reached_next hnext
  obtain ⟨positions, rfl, hreached, hrun'⟩ := hfollows
  refine ⟨positions, hreached, ?_, hrun'⟩
  rw [← Keyset.after_none, ← hall, List.flatMap_map]

/-- **Keyset pagination is exact.** Over fixed tables and a fixed clock, a
visitor who follows every cursor from the first page on is never refused, comes
to a page without a next cursor, and is shown every listing that satisfies the
search exactly once, in the order of the sort keys and the listing. Every page
counts the listings alike and none is stale. -/
theorem pagination_exact (hhost : host.HexDigests) {input : SearchInput}
    (hinput : normalizeSearch { input with cursor := none } = .ok search)
    (hnow : IsoInstant.ValidTime now)
    (hactivated : ∀ p ∈ (tables.eligible search.locale).rows, p.activatedAt ≤ now)
    (hreads : ReadsActivations host db tables search.locale) :
    ∃ (responses : List SearchResponse) (visited : List MatchRow),
      Keyset.Follows (ask host db tables input now) nextCursorOf none
        (responses.map Except.ok) ∧
      responses.flatMap SearchResponse.items = visited.map MatchRow.item ∧
      visited.Perm (selectedRows db tables search now) ∧
      visited.Pairwise (fun a b => a.key < b.key) ∧
      (visited.map MatchRow.listingId).Nodup ∧
      ∀ response ∈ responses, response.stale = false ∧
        response.count = (min (selectedRows db tables search now).length exactCountLimit,
          if exactCountLimit < (selectedRows db tables search now).length then .estimated
          else .exact) := by
  obtain ⟨positions, hreached, hall, hrun⟩ :=
    exists_follows_positions db tables hhost hinput hnow
  refine ⟨positions.map (respondAt host db tables search now),
    Keyset.ordered MatchRow.key (selectedRows db tables search now), ?_, ?_,
    Keyset.perm_ordered _, Keyset.pairwise_ordered selectedRows_key_nodup, ?_, ?_⟩
  · rw [List.map_map]
    exact hrun
  · rw [← hall, List.map_flatMap, List.flatMap_map]
    exact List.flatMap_congr (fun position h => (hreached position h).items_eq)
  · exact ((Keyset.perm_ordered _).map _).nodup_iff.mpr selectedRows_nodup
  · intro response hresponse
    obtain ⟨position, hposition, rfl⟩ := List.mem_map.mp hresponse
    exact ⟨(hreached position hposition).stale_eq_false hnow hactivated hreads,
      count_respondAt position⟩

/-! ### Two listings on two pages -/

/-- A document of an apartment for sale of which nothing is known. -/
def bareDocument (listingId manifestId : Uuid) (reference : String) : SearchDocument where
  listingId := listingId
  locale := .bg
  manifestId := manifestId
  reference := reference
  purpose := .sale
  propertyType := .apartment
  placeIds := []
  priceState := .unknown
  priceAmountMinor := none
  priceCurrency := none
  pricePeriod := none
  priceBasis := none
  bedroomsState := .unknown
  bedrooms := none
  roomsState := .unknown
  rooms := none
  areaState := fun _ => .unknown
  area := fun _ => none
  features := fun _ => none
  searchText := reference

/-- Its listing. -/
def bareListing (id : Uuid) (reference : String) : ListingRow where
  id := id
  reference := reference
  purpose := .sale
  commercialState := .negotiating
  availabilityConfirmedAt := none
  freshnessState := .unknown
  reviewDueAt := none
  hasAvailabilityPolicySnapshot := false

/-- Two listings activated at the same instant. -/
def twoListings : SearchTables where
  documents := ⟨[bareDocument "5f0c8a52-7d1e-4b7a-9c3d-2f6e8b1a4c90"
      "6a1d9b63-8e2f-4c8b-8d4e-3a7f9c2b5da1" "MS-00100",
    bareDocument "2e9b7c41-6c0d-4a6f-8b2c-1e5d7a0f3b8f"
      "7b2eac74-9f30-4d9c-9e5f-4b80ad3c6eb2" "MS-00101"], by decide⟩
  listings := ⟨[bareListing "5f0c8a52-7d1e-4b7a-9c3d-2f6e8b1a4c90" "MS-00100",
    bareListing "2e9b7c41-6c0d-4a6f-8b2c-1e5d7a0f3b8f" "MS-00101"], by decide⟩
  eligible := fun _ => ⟨[⟨"5f0c8a52-7d1e-4b7a-9c3d-2f6e8b1a4c90",
      "6a1d9b63-8e2f-4c8b-8d4e-3a7f9c2b5da1", 1753000001000⟩,
    ⟨"2e9b7c41-6c0d-4a6f-8b2c-1e5d7a0f3b8f", "7b2eac74-9f30-4d9c-9e5f-4b80ad3c6eb2",
      1753000001000⟩], by decide⟩
  uuid_listingId := by decide +kernel
  bigint_price := by simp [bareDocument]
  valid_confirmedAt := by simp [bareListing]
  valid_activatedAt := by simp [IsoInstant.ValidTime, IsoInstant.maxTime]

/-- A search for the newest listings for sale, one on a page. -/
def newestInput : SearchInput where
  locale := .bg
  purpose := .sale
  propertyTypes := none
  placeIds := none
  availability := none
  price := none
  bedrooms := none
  rooms := none
  area := none
  mustHave := none
  includeUnconfirmed := none
  q := none
  sort := some .newest
  pageSize := some 1
  cursor := none

/-- The search as normalized. -/
def newestSearch : NormalizedSearch where
  locale := .bg
  criteria := criteriaOf newestInput
  q := none
  sort := .newest
  pageSize := 1
  cursor := none

theorem normalizeSearch_newestInput :
    normalizeSearch { newestInput with cursor := none } = .ok newestSearch := by
  have hissues : issues { newestInput with cursor := none } = [] := by decide +kernel
  unfold normalizeSearch
  rw [hissues]
  rfl

/-- A host with the digest of this query, which reads timestamps of whole
seconds in UTC. -/
def newestHost : Host where
  sha256Hex := fun _ =>
    "11fd1ada5d868a5a14b0ab6ce2903a40ab7a06880427abf0a3751a1d5cb471c0".toList
  parseOther := fun text => IsoInstant.parseISO
    (text.take 10 ++ 'T' :: ((text.drop 11).take 8 ++ ['.', '0', '0', '0', 'Z']))

/-- Both listings are shown, on a page each. -/
theorem pagination_exact_twoListings :
    (selectedRows utcDatabase twoListings newestSearch 1753000002000).length = 2 ∧
      ∃ (responses : List SearchResponse) (visited : List MatchRow),
        Keyset.Follows (ask newestHost utcDatabase twoListings newestInput 1753000002000)
          nextCursorOf none (responses.map Except.ok) ∧
        responses.flatMap SearchResponse.items = visited.map MatchRow.item ∧
        visited.Perm (selectedRows utcDatabase twoListings newestSearch 1753000002000) ∧
        visited.Pairwise (fun a b => a.key < b.key) ∧
        (visited.map MatchRow.listingId).Nodup ∧
        ∀ response ∈ responses, response.stale = false ∧ response.count
          = (min (selectedRows utcDatabase twoListings newestSearch 1753000002000).length
              exactCountLimit,
            if exactCountLimit
                < (selectedRows utcDatabase twoListings newestSearch 1753000002000).length
              then .estimated else .exact) := by
  refine ⟨by decide +kernel, pagination_exact ?_ normalizeSearch_newestInput ?_ ?_ ?_⟩
  · have hlength : (newestHost.sha256Hex []).length = 64 := by decide +kernel
    have hdigits : (newestHost.sha256Hex []).all (fun c =>
        c.isDigit || 'a' ≤ c && c ≤ 'f') = true := by decide +kernel
    refine fun _ => ⟨hlength, fun c hc => ?_⟩
    simpa only [Bool.or_eq_true, Bool.and_eq_true, decide_eq_true_eq]
      using List.all_eq_true.mp hdigits c hc
  · simp [IsoInstant.ValidTime, IsoInstant.maxTime]
  · simp [twoListings]
  · have hread : newestHost.dateParse (utcDatabase.timestampText 1753000001000)
        = some 1753000001000 := by decide +kernel
    intro p hp t ht
    have hactivated : p.activatedAt = 1753000001000 := by
      have hall : ∀ p ∈ (twoListings.eligible .bg).rows, p.activatedAt = 1753000001000 := by
        decide
      exact hall p hp
    rw [hactivated, hread] at ht
    rw [hactivated]
    exact (Option.some.inj ht).symm

end Search
