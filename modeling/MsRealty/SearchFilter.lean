import MsRealty.JsonValue
import MsRealty.Listing

/-!
# Search filters

The filters of a search as predicates over what a search sees of a listing
(`src/domain/search/filters.ts`). A filter is a disjunction inside a category
and a conjunction across them. A value that is not known never satisfies a
constraint: it makes the listing need confirmation.
-/

namespace Search

/-- The area bases a search can ask for. -/
inductive SearchableAreaBasis where
  | living
  | built
  | total
  | land

/-- A searchable basis among the bases of areas. -/
def SearchableAreaBasis.basis : SearchableAreaBasis → AreaBasis
  | .living => .living
  | .built => .built
  | .total => .total
  | .land => .land

/-- A range of numbers, open where it has no bound. -/
structure Range (α : Type*) where
  min : Option α
  max : Option α

/-- The range asked of a price: minor units of a currency, for the purpose's
price period. -/
structure PriceRange extends Range ℤ where
  currency : CurrencyCode

/-- The range asked of an area. -/
structure AreaRange extends Range ℚ where
  basis : SearchableAreaBasis

/-- **What a search asks of a listing.** -/
structure SearchCriteria where
  purpose : ListingPurpose
  propertyTypes : Option (List PropertyType)
  placeIds : Option (List Uuid)
  availability : Option (List CommercialState)
  price : Option PriceRange
  bedrooms : Option (Range ℤ)
  rooms : Option (Range ℤ)
  area : Option AreaRange
  /-- Feature keys that must be known to be true. -/
  mustHave : Option (List String)
  /-- Listings that need confirmation are included. -/
  includeNeedsConfirmation : Bool

/-- **What a search sees of a listing.** A feature's value is whatever was
recorded for it. -/
structure ListingSearchView where
  purpose : ListingPurpose
  propertyType : PropertyType
  /-- The listing's place and every ancestor. -/
  placeIds : List Uuid
  commercial : CommercialState
  price : MaterialFact Money
  bedrooms : MaterialFact ℤ
  rooms : MaterialFact ℤ
  areas : AreaBasis → Option (MaterialFact Area)
  features : String → Option (MaterialFact JsonValue)

/-- How a listing answers a criterion, or all of them. -/
inductive FilterResult where
  | matched
  | needsConfirmation
  | noMatch
  deriving DecidableEq

/-- The outcome of a search for a listing. -/
structure FilterEvaluation where
  result : FilterResult
  /-- The criteria that known facts contradict. -/
  violated : List String
  /-- The criteria the listing could not be shown to satisfy. -/
  unconfirmed : List String

/-! ## The criteria -/

/-- Whether a condition is a match. -/
def FilterResult.ofBool (b : Bool) : FilterResult := if b then .matched else .noMatch

/-- Nothing selected, or the value is. -/
def anyOf {α : Type*} [DecidableEq α] (selected : Option (List α)) (value : α) :
    FilterResult :=
  match selected with
  | none => .matched
  | some values => .ofBool (values.isEmpty ∨ value ∈ values)

/-- Whether a value lies in a range. -/
def inRange {α : Type*} [LE α] [DecidableLE α] (value : α) (range : Range α) : Bool :=
  range.min.all (fun bound => bound ≤ value) && range.max.all (fun bound => value ≤ bound)

/-- How a fact without a value answers a criterion: not applicable is a known
absence, never a match. -/
def absentCheck (state : FactState) : FilterResult :=
  if state = .notApplicable then .noMatch else .needsConfirmation

/-- A number against a range. -/
def factInRange {α : Type*} [LE α] [DecidableLE α] (fact : MaterialFact α)
    (range : Range α) : FilterResult :=
  match fact with
  | .known value => .ofBool (inRange value range)
  | fact => absentCheck fact.state

/-- A price against a range: no other period or currency is reinterpreted. -/
def priceCheck (price : MaterialFact Money) (criteria : PriceRange)
    (purpose : ListingPurpose) : FilterResult :=
  match price with
  | .known money =>
    if money.period ≠ pricePeriodByPurpose purpose then .needsConfirmation
    else if money.currency ≠ criteria.currency then .needsConfirmation
    else .ofBool (inRange money.amountMinor criteria.toRange)
  | fact => absentCheck fact.state

/-- An area against a range, on the basis that was asked for. -/
def areaCheck (view : ListingSearchView) (criteria : AreaRange) : FilterResult :=
  match view.areas criteria.basis.basis with
  | none => .needsConfirmation
  | some (.known area) => .ofBool (inRange area.value criteria.toRange)
  | some fact => absentCheck fact.state

/-- A feature: any value that counts as true is a match. -/
def featureCheck (fact : Option (MaterialFact JsonValue)) : FilterResult :=
  match fact with
  | none => .needsConfirmation
  | some (.known value) => .ofBool value.truthy
  | some fact => absentCheck fact.state

/-- The criteria that are about the listing itself. -/
def baseChecks (view : ListingSearchView) (criteria : SearchCriteria) :
    List (String × FilterResult) :=
  [("purpose", .ofBool (view.purpose = criteria.purpose)),
    ("propertyType", anyOf criteria.propertyTypes view.propertyType),
    ("place", .ofBool (criteria.placeIds.all (fun ids => ids.isEmpty
      || ids.any (fun id => id ∈ view.placeIds)))),
    ("availability", anyOf criteria.availability view.commercial)]

/-- The criteria that are about its facts. -/
def factCriteria (view : ListingSearchView) (criteria : SearchCriteria) :
    List (String × FilterResult) :=
  (criteria.price.map (fun price =>
      ("price", priceCheck view.price price criteria.purpose))).toList
    ++ (criteria.bedrooms.map (fun range =>
      ("bedrooms", factInRange view.bedrooms range))).toList
    ++ (criteria.rooms.map (fun range => ("rooms", factInRange view.rooms range))).toList
    ++ (criteria.area.map (fun area =>
      ("area." ++ area.basis.basis.name, areaCheck view area))).toList
    ++ (criteria.mustHave.getD []).map (fun key =>
      ("feature." ++ key, featureCheck (view.features key)))

/-- The names of the checks with a result. -/
def namesOf (result : FilterResult) (checks : List (String × FilterResult)) : List String :=
  (checks.filter (fun check => check.snd = result)).map Prod.fst

/-- **How a listing answers a search.** -/
def evaluateListing (view : ListingSearchView) (criteria : SearchCriteria) :
    FilterEvaluation :=
  let checks := baseChecks view criteria ++ factCriteria view criteria
  let violated := namesOf .noMatch checks
  if violated ≠ [] then ⟨.noMatch, violated, []⟩
  else
    let unconfirmed := namesOf .needsConfirmation checks
    ⟨if unconfirmed ≠ [] then .needsConfirmation else .matched, violated, unconfirmed⟩

/-- Whether a search returns a listing. -/
def matchesSearch (view : ListingSearchView) (criteria : SearchCriteria) : Bool :=
  let result := (evaluateListing view criteria).result
  result = .matched || result = .needsConfirmation && criteria.includeNeedsConfirmation

end Search
