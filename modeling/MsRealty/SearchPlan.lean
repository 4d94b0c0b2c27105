import MsRealty.IsoInstant
import MsRealty.SearchDocument

/-!
# The query of a search

The conditions a search asks of a row of the projection, joined to its
listing (`plan` and its parts in `src/server/search/search.ts`), with the
meaning SQL gives them. A criterion about a fact is a check of 2 (match),
1 (needs confirmation) or 0 (no match).

Enumerations stand for their texts, and UUIDs are the canonical texts of
their column. Adding days to an instant and the text of an instant, which
depend on the time zone of the session, and matching free text are the
database's.
-/

namespace Search

/-- What the database does. -/
structure Database where
  /-- `t + make_interval(days => n)`. -/
  addDays : Instant → ℕ → Instant
  /-- Whether the text of a row matches a query. -/
  textMatches : String → SearchDocument → Sql.Truth
  /-- `t::text`. -/
  timestampText : Instant → List Char

/-- A database session in UTC that matches no text, with the texts of whole seconds. -/
def utcDatabase : Database where
  addDays t n := t + n * dayMs
  textMatches _ _ := some false
  timestampText t :=
    (IsoInstant.toISOText t).take 10
      ++ ' ' :: ((IsoInstant.toISOText t).drop 11).take 8 ++ ['+', '0', '0']

/-- The check of a match. -/
def MATCH : ℤ := 2

/-- The check of what needs confirmation. -/
def UNCONFIRMED : ℤ := 1

/-- When the review of a listing's availability falls due: as recorded with a
bound policy, else after the default interval. -/
def dueSql (db : Database) (listing : ListingRow) : Option Instant :=
  Sql.caseWhen (some listing.hasAvailabilityPolicySnapshot) listing.reviewDueAt
    (listing.availabilityConfirmedAt.map (fun t =>
      db.addDays t (availabilityReviewIntervalDays listing.purpose)))

/-- Whether the availability is confirmed and its review not due. -/
def freshSql (db : Database) (now : Instant) (listing : ListingRow) : Bool :=
  Sql.coalesce (Sql.all [Sql.isNotNull listing.availabilityConfirmedAt,
    some (listing.freshnessState ≠ .conflicting),
    Sql.compare (fun due t => t < due) (dueSql db listing) listing.availabilityConfirmedAt,
    Sql.compare (fun due t => t < due) (dueSql db listing) (some now)]) false

/-- **The availability a visitor is shown**, as SQL. -/
def presentedAvailabilitySql (db : Database) (now : Instant) (listing : ListingRow) :
    CommercialState :=
  Sql.caseWhen (Sql.conj (some (listing.commercialState = .available))
      (Sql.neg (some (freshSql db now listing))))
    .confirmationRequired listing.commercialState

/-- A column lies in a range. -/
def columnInRange {α : Type*} [LE α] [DecidableLE α] (column : Option α) (range : Range α) :
    Sql.Truth :=
  Sql.conj
    (match range.min with
      | none => some true
      | some bound => Sql.compare (fun v b => b ≤ v) column (some bound))
    (match range.max with
      | none => some true
      | some bound => Sql.compare (fun v b => v ≤ b) column (some bound))

/-- The check of a numeric fact. -/
def numberCheck {α : Type*} [LE α] [DecidableLE α] (state : FactState) (value : Option α)
    (range : Range α) : ℤ :=
  Sql.caseWhen (Sql.conj (some (state = .known)) (Sql.isNotNull value))
    (Sql.caseWhen (columnInRange value range) MATCH 0)
    (Sql.caseWhen (some (state = .notApplicable)) 0 UNCONFIRMED)

/-- The check of a price: no period or currency is reinterpreted. -/
def priceCheckSql (row : SearchDocument) (price : PriceRange) (purpose : ListingPurpose) : ℤ :=
  Sql.caseWhen (Sql.conj (some (row.priceState = .known)) (Sql.isNotNull row.priceAmountMinor))
    (Sql.caseWhen
      (Sql.disj
        (Sql.compare (· ≠ ·) row.pricePeriod (some (pricePeriodByPurpose purpose)))
        (Sql.compare (· ≠ ·) row.priceCurrency (some price.currency)))
      UNCONFIRMED
      (Sql.caseWhen (columnInRange row.priceAmountMinor price.toRange) MATCH 0))
    (Sql.caseWhen (some (row.priceState = .notApplicable)) 0 UNCONFIRMED)

/-- The check of a feature: only a known true satisfies a must-have. -/
def featureCheckSql (row : SearchDocument) (key : String) : ℤ :=
  match row.features key with
  | some "true" => MATCH
  | some "false" => 0
  | some "not_applicable" => 0
  | _ => UNCONFIRMED

/-- **The criteria that can be unknown**, each with its check. -/
def factChecks (criteria : SearchCriteria) (row : SearchDocument) : List (String × ℤ) :=
  (criteria.price.map (fun price =>
      ("price", priceCheckSql row price criteria.purpose))).toList
    ++ (criteria.bedrooms.map (fun range =>
      ("bedrooms", numberCheck row.bedroomsState row.bedrooms range))).toList
    ++ (criteria.rooms.map (fun range =>
      ("rooms", numberCheck row.roomsState row.rooms range))).toList
    ++ (criteria.area.map (fun area =>
      ("area." ++ area.basis.basis.name,
        numberCheck (row.areaState area.basis) (row.area area.basis) area.toRange))).toList
    ++ (criteria.mustHave.getD []).map (fun key => ("feature." ++ key, featureCheckSql row key))

/-- The upper case of a character, where it can be part of a listing
reference: the letters of ASCII and the long s. -/
def upper (c : Char) : Char := if c = 'ſ' then 'S' else c.toUpper

/-- The listing reference a text is, if it is one. -/
def listingReference? (value : String) : Option String :=
  let normalized := (trim value).toList.map upper
  let digits := normalized.drop 3
  if normalized.take 3 = ['M', 'S', '-'] ∧ 5 ≤ digits.length ∧ digits.all Char.isDigit then
    some (String.ofList normalized)
  else none

/-- The condition of a free text: an exact reference wins over any text match. -/
def textCondition (db : Database) (q : Option String) (row : SearchDocument) :
    Option Sql.Truth :=
  q.map (fun q =>
    match listingReference? q with
    | some reference => some (row.reference = reference)
    | none => db.textMatches q row)

/-- **What a search asks.** -/
structure Plan where
  /-- The condition on a row and its listing, with or without the choice of
  property types. -/
  whereClause : Bool → SearchDocument → ListingRow → Sql.Truth
  /-- 0 for a match, 1 for what needs confirmation. -/
  rank : SearchDocument → ℤ
  /-- The names of the criteria that need confirmation. -/
  unconfirmed : SearchDocument → List String

/-- **The plan of a search.** -/
def plan (db : Database) (search : NormalizedSearch) (now : Instant) : Plan :=
  let criteria := search.criteria
  let checks := factChecks criteria
  let availability := criteria.availability.getD offeredStates
  { whereClause := fun withoutPropertyTypes row listing =>
      Sql.all (
        ([some (row.locale = search.locale), some (row.purpose = criteria.purpose)] :
            List Sql.Truth)
          ++ (if withoutPropertyTypes then []
            else (criteria.propertyTypes.map (Sql.isIn row.propertyType)).toList)
          ++ (criteria.placeIds.map (fun ids =>
            some (row.placeIds.any (fun id => id ∈ ids)))).toList
          ++ [Sql.isIn (presentedAvailabilitySql db now listing) availability]
          ++ (textCondition db search.q row).toList
          ++ (checks row).map (fun check =>
            (some (if criteria.includeNeedsConfirmation then 0 < check.snd
              else check.snd = MATCH) : Sql.Truth)))
    rank := fun row =>
      if checks row = [] then 0
      else Sql.caseWhen
        (Sql.compare (· = ·) (Sql.least ((checks row).map (fun check => some check.snd)))
          (some MATCH)) 0 1
    unconfirmed := fun row =>
      Sql.arrayRemoveNull ((checks row).map (fun check =>
        Sql.caseWhen (some (check.snd = UNCONFIRMED)) (some check.fst) none)) }

end Search
