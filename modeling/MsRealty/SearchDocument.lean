import MsRealty.SearchInput
import MsRealty.Sql

/-!
# The search document of a listing

A published listing as a visitor's request loads it
(`src/server/publication/presentation.ts`), what the filters see of it
(`src/server/cases/matching.ts`), and the typed row that stands for it in the
search projection (`src/server/search/projection.ts`), one per listing and
locale. Availability is not projected.

Maps and records are their lookups. A fact never recorded is unknown.
-/

namespace Search

/-! ## Published listings -/

/-- A row of the listings, as far as a search reads it. -/
structure ListingRow where
  id : Uuid
  reference : String
  purpose : ListingPurpose
  commercialState : CommercialState
  availabilityConfirmedAt : Option Instant
  freshnessState : FreshnessState
  reviewDueAt : Option Instant
  /-- `availability_policy_snapshot` is not null. -/
  hasAvailabilityPolicySnapshot : Bool

/-- A place in the gazetteer. -/
structure PlaceNode where
  id : Uuid
  nameNative : String
  nameLatin : String

/-- The public facts a search knows, by key. -/
structure PublicFacts where
  /-- `price`. -/
  price : Option (MaterialFact Money)
  /-- `bedrooms`. -/
  bedrooms : Option (MaterialFact ℤ)
  /-- `rooms`. -/
  rooms : Option (MaterialFact ℤ)
  /-- `area.<basis>`. -/
  area : AreaBasis → Option (MaterialFact Area)
  /-- `feature.<key>`. -/
  feature : String → Option (MaterialFact JsonValue)

/-- What the active manifest binds, besides the listing. -/
structure ManifestContent where
  manifestId : Uuid
  locale : PublicLocale
  propertyType : PropertyType
  /-- The listing's place and all of its ancestors. -/
  placeChain : List PlaceNode
  placeAliases : List String
  title : Option String
  facts : PublicFacts

/-- **A published listing.** -/
structure PublishedListing where
  listingId : Uuid
  reference : String
  locale : PublicLocale
  purpose : ListingPurpose
  propertyType : PropertyType
  manifestId : Uuid
  commercialState : CommercialState
  availabilityConfirmedAt : Option Instant
  recordedAvailabilityReviewDueAt : Option Instant
  hasRecordedAvailabilityPolicy : Bool
  freshnessConflicting : Bool
  placeChain : List PlaceNode
  placeAliases : List String
  facts : PublicFacts
  title : Option String

/-- The published listing of a row and its active manifest. -/
def publishedListing (row : ListingRow) (content : ManifestContent) : PublishedListing where
  listingId := row.id
  reference := row.reference
  locale := content.locale
  purpose := row.purpose
  propertyType := content.propertyType
  manifestId := content.manifestId
  commercialState := row.commercialState
  availabilityConfirmedAt := row.availabilityConfirmedAt
  recordedAvailabilityReviewDueAt := row.reviewDueAt
  hasRecordedAvailabilityPolicy := row.hasAvailabilityPolicySnapshot
  freshnessConflicting := row.freshnessState = .conflicting
  placeChain := content.placeChain
  placeAliases := content.placeAliases
  facts := content.facts
  title := content.title

/-- How fresh the availability of a published listing is. -/
def freshnessOf (listing : PublishedListing) (now : Instant) : FreshnessState :=
  (assessFreshness {
    purpose := listing.purpose
    lastConfirmedAt := listing.availabilityConfirmedAt
    conflicting := listing.freshnessConflicting
    now := now
    intervalDays := none
    recordedReviewDueAt :=
      if listing.hasRecordedAvailabilityPolicy then some listing.recordedAvailabilityReviewDueAt
      else none }).fst

/-- The availability a published listing presents. -/
def availabilityOf (listing : PublishedListing) (now : Instant) : CommercialState :=
  presentedAvailability listing.commercialState (freshnessOf listing now)

/-- The fact of something that was never recorded. -/
def notRecorded {α : Type*} : MaterialFact α := .absent .unknown

/-- **What the filters see of a published listing**: its presented
availability, and of its areas and features those that can be asked for. -/
def searchView (listing : PublishedListing) (criteria : SearchCriteria) (now : Instant) :
    ListingSearchView where
  purpose := listing.purpose
  propertyType := listing.propertyType
  placeIds := listing.placeChain.map PlaceNode.id
  commercial := availabilityOf listing now
  price := listing.facts.price.getD notRecorded
  bedrooms := listing.facts.bedrooms.getD notRecorded
  rooms := listing.facts.rooms.getD notRecorded
  areas basis := if basis ∈ [.living, .built, .total, .land] then listing.facts.area basis else none
  features key := if key ∈ criteria.mustHave.getD [] then listing.facts.feature key else none

/-! ## The projection -/

/-- **A search document**: the values an activation writes, and the row they
are stored as. Every filterable fact has its state next to its value; the
columns of the four area bases are indexed by the basis. -/
structure SearchDocument where
  listingId : Uuid
  locale : PublicLocale
  manifestId : Uuid
  reference : String
  purpose : ListingPurpose
  propertyType : PropertyType
  placeIds : List Uuid
  priceState : FactState
  priceAmountMinor : Option ℤ
  priceCurrency : Option CurrencyCode
  pricePeriod : Option PricePeriod
  priceBasis : Option PriceBasis
  bedroomsState : FactState
  bedrooms : Option ℤ
  roomsState : FactState
  rooms : Option ℤ
  areaState : SearchableAreaBasis → FactState
  area : SearchableAreaBasis → Option ℚ
  /-- Feature key to fact state, with known booleans as `true` and `false`. -/
  features : String → Option String
  searchText : String

/-- The value of a known fact. -/
def knownValue {α : Type*} : Option (MaterialFact α) → Option α
  | some (.known value) => some value
  | _ => none

theorem knownValue_eq_some {α : Type*} {fact : Option (MaterialFact α)} {value : α} :
    knownValue fact = some value ↔ fact = some (.known value) := by
  unfold knownValue
  split <;> simp_all

/-- The state of a fact; one never recorded is unknown. -/
def stateOf {α : Type*} (fact : Option (MaterialFact α)) : FactState :=
  (fact.map MaterialFact.state).getD .unknown

/-- The name a feature fact is projected to. -/
def featureState (fact : MaterialFact JsonValue) : String :=
  match fact with
  | .known (.bool b) => if b then "true" else "false"
  | .known _ => "known"
  | fact => fact.state.name

/-- What is found by its text: the reference, the names and aliases of the
places and the title. -/
def searchTextOf (listing : PublishedListing) : String :=
  " ".intercalate (([listing.reference]
    ++ listing.placeChain.flatMap (fun p => [p.nameNative, p.nameLatin])
    ++ listing.placeAliases ++ [listing.title.getD ""]).filter (fun text => text ≠ ""))

/-- **The search document of a published listing.** -/
def buildSearchDocument (listing : PublishedListing) : SearchDocument :=
  let price := listing.facts.price
  let area basis := listing.facts.area (SearchableAreaBasis.basis basis)
  { listingId := listing.listingId
    locale := listing.locale
    manifestId := listing.manifestId
    reference := listing.reference
    purpose := listing.purpose
    propertyType := listing.propertyType
    placeIds := listing.placeChain.map PlaceNode.id
    priceState := stateOf price
    priceAmountMinor := (knownValue price).map Money.amountMinor
    priceCurrency := (knownValue price).map Money.currency
    pricePeriod := (knownValue price).map Money.period
    priceBasis := (knownValue price).map Money.basis
    bedroomsState := stateOf listing.facts.bedrooms
    bedrooms := knownValue listing.facts.bedrooms
    roomsState := stateOf listing.facts.rooms
    rooms := knownValue listing.facts.rooms
    areaState := fun basis => stateOf (area basis)
    area := fun basis => (knownValue (area basis)).map Area.value
    features := fun key => (listing.facts.feature key).map featureState
    searchText := searchTextOf listing }

/-- A nullable column stores null as it is. -/
def nullable {α : Type*} (column : α → Option α) : Option α → Option (Option α)
  | none => some none
  | some value => (column value).map some

/-- **The row a document is stored as**, if every column takes its value:
whole counts, amounts of 64 bits, areas rounded to two decimals. -/
def SearchDocument.store (doc : SearchDocument) : Option SearchDocument := do
  let amount ← nullable Sql.bigint doc.priceAmountMinor
  let bedrooms ← nullable Sql.integer doc.bedrooms
  let rooms ← nullable Sql.integer doc.rooms
  let living ← nullable (Sql.numeric 10 2) (doc.area .living)
  let built ← nullable (Sql.numeric 10 2) (doc.area .built)
  let total ← nullable (Sql.numeric 10 2) (doc.area .total)
  let land ← nullable (Sql.numeric 12 2) (doc.area .land)
  let area : SearchableAreaBasis → Option ℚ
    | .living => living
    | .built => built
    | .total => total
    | .land => land
  return { doc with priceAmountMinor := amount, bedrooms := bedrooms, rooms := rooms, area := area }

/-! ## What is stored is what was built -/

/-- The areas of a listing have at most two decimals. -/
def TwoDecimals (facts : PublicFacts) : Prop :=
  ∀ basis area, facts.area basis = some (.known area) → ∃ n : ℤ, area.value = n / 10 ^ 2

theorem nullable_eq {α : Type*} {column : α → Option α} {value stored : Option α}
    (h : nullable column value = some stored)
    (hcolumn : ∀ v w, value = some v → column v = some w → w = v) : stored = value := by
  cases value with
  | none => exact (Option.some.inj h).symm
  | some v =>
    obtain ⟨w, hw, rfl⟩ := Option.map_eq_some_iff.mp h
    rw [hcolumn v w rfl hw]

/-- **The stored row is the document**, if the areas have no more decimals
than their columns. -/
theorem store_buildSearchDocument {listing : PublishedListing} {row : SearchDocument}
    (harea : TwoDecimals listing.facts) (h : (buildSearchDocument listing).store = some row) :
    row = buildSearchDocument listing := by
  have hdecimals : ∀ precision basis (v w : ℚ), (buildSearchDocument listing).area basis = some v →
      Sql.numeric precision 2 v = some w → w = v := by
    intro precision basis v w hv hw
    obtain ⟨area, hknown, rfl⟩ := Option.map_eq_some_iff.mp hv
    obtain ⟨n, hn⟩ := harea _ _ (knownValue_eq_some.mp hknown)
    exact Sql.numeric_eq_some n hn hw
  simp only [SearchDocument.store, Option.bind_eq_bind, Option.bind_eq_some_iff] at h
  obtain ⟨amount, hamount, bedrooms, hbedrooms, rooms, hrooms, living, hliving, built, hbuilt,
    total, htotal, land, hland, hrow⟩ := h
  rw [← Option.some.inj hrow, nullable_eq hamount (fun _ _ _ => Sql.bigint_eq_some),
    nullable_eq hbedrooms (fun _ _ _ => Sql.integer_eq_some),
    nullable_eq hrooms (fun _ _ _ => Sql.integer_eq_some),
    nullable_eq hliving (hdecimals 10 .living), nullable_eq hbuilt (hdecimals 10 .built),
    nullable_eq htotal (hdecimals 10 .total), nullable_eq hland (hdecimals 12 .land)]
  congr 1
  funext basis
  cases basis <;> rfl

end Search
