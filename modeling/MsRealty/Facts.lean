import Mathlib.Data.Rat.Defs

/-!
# Facts

Facts with explicit states, money and area (`src/domain/facts.ts`). A
material fact is known, or in one of the absent states; `false` is a known
value, and no absent state is ever collapsed into null, zero or false.

Numbers of the source are the rationals they denote.
-/

/-- The states of a fact. -/
inductive FactState where
  | known
  | unknown
  | notSupplied
  | notApplicable
  | withheld
  | conflicting
  deriving DecidableEq

/-- The name of a fact state in the database. -/
def FactState.name : FactState → String
  | .known => "known"
  | .unknown => "unknown"
  | .notSupplied => "not_supplied"
  | .notApplicable => "not_applicable"
  | .withheld => "withheld"
  | .conflicting => "conflicting"

/-- Every fact state. -/
def FactState.all : List FactState :=
  [.known, .unknown, .notSupplied, .notApplicable, .withheld, .conflicting]

/-- Where the evidence of a fact comes from. -/
inductive SourceClass where
  | sourceSupplied
  | ownerConfirmed
  | agencyObserved
  | documentReviewed
  | professionallyReviewed
  | systemCalculated
  | legacyImport
  deriving DecidableEq

/-- The name of a source class in the database. -/
def SourceClass.name : SourceClass → String
  | .sourceSupplied => "source_supplied"
  | .ownerConfirmed => "owner_confirmed"
  | .agencyObserved => "agency_observed"
  | .documentReviewed => "document_reviewed"
  | .professionallyReviewed => "professionally_reviewed"
  | .systemCalculated => "system_calculated"
  | .legacyImport => "legacy_import"

/-- Every source class. -/
def SourceClass.all : List SourceClass :=
  [.sourceSupplied, .ownerConfirmed, .agencyObserved, .documentReviewed, .professionallyReviewed,
    .systemCalculated, .legacyImport]

/-- The states in which a fact says nothing about its value. -/
inductive AbsentState where
  | unknown
  | notSupplied
  | notApplicable
  | withheld

/-- An absent state as a fact state. -/
def AbsentState.state : AbsentState → FactState
  | .unknown => .unknown
  | .notSupplied => .notSupplied
  | .notApplicable => .notApplicable
  | .withheld => .withheld

/-- **A material fact**: only a known one has a value. -/
inductive MaterialFact (α : Type*) where
  /-- The value is known. -/
  | known (value : α)
  /-- Sources disagree; the candidates are evidence, none of them is the value. -/
  | conflicting (candidates : List α)
  /-- There is no value. -/
  | absent (state : AbsentState)

/-- The state of a fact. -/
def MaterialFact.state {α : Type*} : MaterialFact α → FactState
  | .known _ => .known
  | .conflicting _ => .conflicting
  | .absent s => s.state

theorem AbsentState.state_ne_known (s : AbsentState) : s.state ≠ .known := by
  cases s <;> decide

/-- What a listing is offered for. -/
inductive ListingPurpose where
  | sale
  | longTermRent
  deriving DecidableEq

/-- The name of a purpose in the database. -/
def ListingPurpose.name : ListingPurpose → String
  | .sale => "sale"
  | .longTermRent => "long_term_rent"

/-- What a price is paid for. -/
inductive PricePeriod where
  | total
  | month
  deriving DecidableEq

/-- The name of a price period. -/
def PricePeriod.name : PricePeriod → String
  | .total => "total"
  | .month => "month"

/-- What a price is a statement of. -/
inductive PriceBasis where
  | asking
  | negotiable
  | fixed
  | indicative

/-- The name of a price basis. -/
def PriceBasis.name : PriceBasis → String
  | .asking => "asking"
  | .negotiable => "negotiable"
  | .fixed => "fixed"
  | .indicative => "indicative"

/-- Every price basis. -/
def PriceBasis.all : List PriceBasis := [.asking, .negotiable, .fixed, .indicative]

/-- The only price period each purpose carries. -/
def pricePeriodByPurpose : ListingPurpose → PricePeriod
  | .sale => .total
  | .longTermRent => .month

/-- The currencies. -/
inductive CurrencyCode where
  | eur
  | bgn
  | usd
  | gbp
  deriving DecidableEq

/-- The name of a currency. -/
def CurrencyCode.name : CurrencyCode → String
  | .eur => "EUR"
  | .bgn => "BGN"
  | .usd => "USD"
  | .gbp => "GBP"

/-- **An amount of money**, in minor units of its currency. -/
structure Money where
  /-- Whole minor units (cents). -/
  amountMinor : ℤ
  currency : CurrencyCode
  period : PricePeriod
  basis : PriceBasis

/-- What an area measures. Bases are never substituted for each other. -/
inductive AreaBasis where
  | living
  | usable
  | built
  | grossFloor
  | total
  | land
  deriving DecidableEq

/-- The name of an area basis. -/
def AreaBasis.name : AreaBasis → String
  | .living => "living"
  | .usable => "usable"
  | .built => "built"
  | .grossFloor => "gross_floor"
  | .total => "total"
  | .land => "land"

/-- Every area basis. -/
def AreaBasis.all : List AreaBasis := [.living, .usable, .built, .grossFloor, .total, .land]

/-- An area in square metres. -/
structure Area where
  value : ℚ
  basis : AreaBasis

/-- The property types. -/
inductive PropertyType where
  | apartment
  | house
  | plot
  | commercial
  | hotel
  | development
  | other
  deriving DecidableEq

/-- The name of a property type in the database. -/
def PropertyType.name : PropertyType → String
  | .apartment => "apartment"
  | .house => "house"
  | .plot => "plot"
  | .commercial => "commercial"
  | .hotel => "hotel"
  | .development => "development"
  | .other => "other"
