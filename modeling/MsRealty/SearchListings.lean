import Mathlib.Data.Prod.Lex
import Mathlib.Data.String.Basic
import MsRealty.Keyset
import MsRealty.SearchCursor
import MsRealty.SearchPlan
import MsRealty.Table

/-!
# Searching listings

The search itself (`searchListings` in `src/server/search/search.ts`): the
rows of the projection that join an eligible publication and satisfy the
query, their sort keys, one page of them in the order of the keys, the facet
counts and the total they sum to, the recheck of the listings shown, whether
the inventory changed since the first page, and the cursor of the next page.

The tables hold what their columns can hold: the ids a table generates are
UUIDs, amounts have 64 bits, and instants were written from a `Date`.
-/

namespace Search

/-! ## The tables -/

/-- A publication that is eligible in a locale. -/
structure EligiblePublication where
  listingId : Uuid
  manifestId : Uuid
  activatedAt : Instant

/-- **The tables a search reads.** -/
structure SearchTables where
  documents : Table (Uuid × PublicLocale) SearchDocument (fun d => (d.listingId, d.locale))
  listings : Table Uuid ListingRow ListingRow.id
  /-- The eligible publications of a locale, one for a listing at most. -/
  eligible : PublicLocale → Table Uuid EligiblePublication EligiblePublication.listingId
  uuid_listingId : ∀ d ∈ documents.rows, isUuid d.listingId.toList = true
  /-- A sort may negate an amount. -/
  bigint_price : ∀ d ∈ documents.rows, ∀ n, d.priceAmountMinor = some n →
    Sql.fitsSigned 64 n = true ∧ Sql.fitsSigned 64 (-n) = true
  valid_confirmedAt : ∀ l ∈ listings.rows, ∀ t, l.availabilityConfirmedAt = some t →
    IsoInstant.ValidTime t
  valid_activatedAt : ∀ locale, ∀ p ∈ (eligible locale).rows, IsoInstant.ValidTime p.activatedAt

/-! ## Sort keys -/

/-- `extract(epoch from t)`: seconds with six decimals. -/
def epoch (t : Instant) : Numeric := ⟨t * 1000, 6⟩

/-- The price of a row can be compared. -/
def comparablePrice (criteria : SearchCriteria) (row : SearchDocument) : Sql.Truth :=
  let currency := (criteria.price.map PriceRange.currency).getD .eur
  Sql.all [some (row.priceState = .known), Sql.isNotNull row.priceAmountMinor,
    Sql.compare (· = ·) row.pricePeriod (some (pricePeriodByPurpose criteria.purpose)),
    Sql.compare (· = ·) row.priceCurrency (some currency)]

/-- The amount of a row whose price can be compared, which is not null, or 0. -/
def comparableAmount (criteria : SearchCriteria) (row : SearchDocument) : ℤ :=
  (Sql.caseWhen (comparablePrice criteria row) row.priceAmountMinor (some 0)).getD 0

/-- **The two sort keys of a row.** -/
def sortKeys (search : NormalizedSearch) (rank : ℤ) (activatedAt : Instant)
    (row : SearchDocument) (listing : ListingRow) : Numeric × Numeric :=
  let comparableFirst := Numeric.ofInt (Sql.caseWhen (comparablePrice search.criteria row) 0 1)
  match search.sort with
  -- Exact criteria fit first, then the most recently confirmed availability.
  | .relevance => (Numeric.ofInt rank,
      -Sql.coalesce (listing.availabilityConfirmedAt.map epoch) (Numeric.ofInt 0))
  | .newest => (Numeric.ofInt 0, -epoch activatedAt)
  -- Prices that cannot be compared sort last.
  | .priceAsc => (comparableFirst, Numeric.ofInt (comparableAmount search.criteria row))
  | .priceDesc => (comparableFirst, Numeric.ofInt (-comparableAmount search.criteria row))

/-! ## Matching rows -/

/-- A row that satisfies a search, whatever its property type. -/
structure MatchRow where
  listingId : Uuid
  propertyType : PropertyType
  activatedAt : Instant
  k1 : Numeric
  k2 : Numeric
  rank : ℤ
  unconfirmed : List String

/-- What rows are ordered by: two numbers and the listing. -/
abbrev SortKey := ℚ ×ₗ ℚ ×ₗ String

/-- The key of a row. -/
def MatchRow.key (row : MatchRow) : SortKey :=
  toLex (row.k1.value, toLex (row.k2.value, row.listingId))

/-- The match of a document: its eligible publication of the same manifest and
its listing, if it satisfies the search. -/
def matchRow? (db : Database) (tables : SearchTables) (search : NormalizedSearch) (now : Instant)
    (doc : SearchDocument) : Option MatchRow := do
  let publication ← (tables.eligible search.locale).rows.find? (fun p =>
    p.listingId = doc.listingId ∧ p.manifestId = doc.manifestId)
  let listing ← tables.listings.get? doc.listingId
  if Sql.holds ((plan db search now).whereClause true doc listing) then
    let rank := (plan db search now).rank doc
    let keys := sortKeys search rank publication.activatedAt doc listing
    some {
      listingId := doc.listingId
      propertyType := doc.propertyType
      activatedAt := publication.activatedAt
      k1 := keys.fst
      k2 := keys.snd
      rank := rank
      unconfirmed := (plan db search now).unconfirmed doc }
  else none

/-- The rows that satisfy a search, of any property type. -/
def matching (db : Database) (tables : SearchTables) (search : NormalizedSearch)
    (now : Instant) : List MatchRow :=
  tables.documents.rows.filterMap (matchRow? db tables search now)

/-- A property type that was asked for. -/
def selectedType (criteria : SearchCriteria) (type : PropertyType) : Bool :=
  criteria.propertyTypes.all (fun types => type ∈ types)

/-- **The rows of a search.** -/
def selectedRows (db : Database) (tables : SearchTables) (search : NormalizedSearch)
    (now : Instant) : List MatchRow :=
  (matching db tables search now).filter (fun row => selectedType search.criteria row.propertyType)

/-! ## The response -/

/-- Counts above this are reported as a lower bound. -/
def exactCountLimit : ℕ := 10000

/-- How many rows there are of each property type. -/
def facetsOf (rows : List MatchRow) : List (PropertyType × ℕ) :=
  (rows.map MatchRow.propertyType).eraseDups.map (fun type =>
    (type, rows.countP (fun row => row.propertyType = type)))

/-- The rows of the selected types, up to one above the limit. -/
def totalOf (criteria : SearchCriteria) (facets : List (PropertyType × ℕ)) : ℕ :=
  min (exactCountLimit + 1) (facets.foldl (fun n facet =>
    if selectedType criteria facet.fst then n + facet.snd else n) 0)

/-- A listing shown. -/
structure SearchResultItem where
  listingId : Uuid
  /-- Needs confirmation only where unconfirmed listings are included. -/
  isMatch : Bool
  unconfirmed : List String

/-- What a count is. -/
inductive CountType where
  | exact
  | estimated

/-- **The response of a search.** -/
structure SearchResponse where
  queryId : String
  locale : PublicLocale
  criteria : SearchCriteria
  q : Option String
  sort : SearchSort
  pageSize : ℕ
  items : List SearchResultItem
  /-- None on the last page. -/
  nextCursor : Option String
  count : ℕ × CountType
  facets : List (PropertyType × ℕ)
  sourceTimestamp : String
  /-- The inventory changed since the first page. -/
  stale : Bool

/-- The position a cursor stands for. -/
def Cursor.position (cursor : Cursor) : SortKey :=
  let number (text : String) : ℚ := ((Numeric.ofText? text.toList).map Numeric.value).getD 0
  toLex (number cursor.key.fst, toLex (number cursor.key.snd.fst, cursor.key.snd.snd))

/-- The published listings among some ids. -/
def loadPublishedIds (tables : SearchTables) (locale : PublicLocale) (ids : List Uuid) :
    List Uuid :=
  ((tables.eligible locale).rows.filter (fun p =>
    p.listingId ∈ ids ∧ (tables.listings.get? p.listingId).isSome)).map
      EligiblePublication.listingId

/-- `a > b` on dates: false where one is not a date. -/
def laterThan (a b : Option Instant) : Bool := 
  (a.bind (fun a => b.map (fun b => decide (b < a)))).getD false

/-- Whether something was activated since the first page was read. -/
def activatedSince (host : Host) (db : Database) (rows : List MatchRow) (asOf : JsonValue) : Bool :=
  let latestAt := (rows.map MatchRow.activatedAt).max?
  laterThan (match latestAt with
    | some t => host.dateParse (db.timestampText t)
    | none => some 0) (host.dateOf asOf)

/-- The response to a search from a cursor on. -/
def respond (host : Host) (db : Database) (tables : SearchTables) (search : NormalizedSearch)
    (now : Instant) (cursor : Option Cursor) : SearchResponse :=
  let queryId := queryIdOf host search
  let base := matching db tables search now
  let selected := selectedRows db tables search now
  let rows := (Keyset.after MatchRow.key (cursor.map Cursor.position) selected).take
    (search.pageSize + 1)
  let facets := facetsOf base
  let total := totalOf search.criteria facets
  let page := rows.take search.pageSize
  let published := loadPublishedIds tables search.locale (page.map MatchRow.listingId)
  -- A listing withdrawn between the two reads is left out, and the page flagged stale.
  let items := page.filterMap (fun row =>
    if row.listingId ∈ published then some ⟨row.listingId, row.rank = 0, row.unconfirmed⟩ else none)
  let changed := cursor.any (fun cursor =>
    (total : ℚ) ≠ cursor.total || activatedSince host db selected cursor.asOf)
  { queryId := queryId
    locale := search.locale
    criteria := search.criteria
    q := search.q
    sort := search.sort
    pageSize := search.pageSize
    items := items
    nextCursor :=
      if search.pageSize < rows.length then
        page.getLast?.map (fun last => encodeCursor {
          query := queryId
          key := (String.ofList last.k1.text, String.ofList last.k2.text, last.listingId)
          total := (cursor.map Cursor.total).getD total
          asOf := (cursor.map Cursor.asOf).getD
            (.str (String.ofList (IsoInstant.toISOText now))) })
      else none
    count := (min total exactCountLimit, if exactCountLimit < total then .estimated else .exact)
    facets := facets.insertionSort (fun a b => a.fst.name ≤ b.fst.name)
    sourceTimestamp := String.ofList (IsoInstant.toISOText now)
    stale := items.length ≠ page.length || changed }

/-- **Searches listings.** -/
def searchListings (host : Host) (db : Database) (tables : SearchTables) (input : SearchInput)
    (now : Instant) : Except (AppError Unit) SearchResponse := do
  let search ← normalizeSearch input
  let cursor ← match search.cursor.filter (fun text => text ≠ "") with
    | none => Except.ok none
    | some text => (decodeCursor host text (queryIdOf host search)).map some
  return respond host db tables search now cursor

end Search
