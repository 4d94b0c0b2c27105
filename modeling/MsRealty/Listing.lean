import MsRealty.Capabilities
import MsRealty.Facts

/-!
# Listings

The independent dimensions of a listing's life (`src/domain/listing.ts`).
Publication never establishes availability.
-/

/-- Commercial availability. -/
inductive CommercialState where
  | available
  | confirmationRequired
  | negotiating
  | reservedWithRecordedBasis
  | sold
  | letOut
  | withdrawn
  deriving DecidableEq

/-- The name of a commercial state in the database. -/
def CommercialState.name : CommercialState → String
  | .available => "available"
  | .confirmationRequired => "confirmation_required"
  | .negotiating => "negotiating"
  | .reservedWithRecordedBasis => "reserved_with_recorded_basis"
  | .sold => "sold"
  | .letOut => "let"
  | .withdrawn => "withdrawn"

/-! ## Freshness -/

/-- How current the availability of a listing is. -/
inductive FreshnessState where
  | currentUnderPolicy
  | reviewDue
  | conflicting
  | unknown
  deriving DecidableEq

/-- The days after which an availability is reviewed by default. -/
def availabilityReviewIntervalDays : ListingPurpose → ℕ
  | .sale => 14
  | .longTermRent => 7

/-- The milliseconds of a day. -/
def dayMs : ℤ := 86400000

/-- What freshness is assessed on. -/
structure FreshnessInput where
  purpose : ListingPurpose
  /-- The last human confirmation of the availability, if there was one. -/
  lastConfirmedAt : Option Instant
  /-- A known conflict is recorded. -/
  conflicting : Bool
  now : Instant
  intervalDays : Option ℕ
  /-- The review an explicitly bound confirmation recorded: if one is bound
  but says nothing, the default interval does not stand in for it. -/
  recordedReviewDueAt : Option (Option Instant)

/-- When the review of an availability confirmed at `confirmedAt` falls due. -/
def FreshnessInput.due (input : FreshnessInput) (confirmedAt : Instant) : Option Instant :=
  input.recordedReviewDueAt.getD (some (confirmedAt
    + input.intervalDays.getD (availabilityReviewIntervalDays input.purpose) * dayMs))

/-- **Freshness under policy**, and when the next review falls due. -/
def assessFreshness (input : FreshnessInput) : FreshnessState × Option Instant :=
  let unsettled := if input.conflicting then FreshnessState.conflicting else .unknown
  match input.lastConfirmedAt with
  | none => (unsettled, none)
  | some confirmedAt =>
    match input.due confirmedAt with
    | none => (unsettled, none)
    | some due =>
      if due ≤ confirmedAt then (unsettled, none)
      else if input.conflicting then (.conflicting, some due)
      else if due ≤ input.now then (.reviewDue, some due)
      else (.currentUnderPolicy, some due)

/-- **The availability a visitor sees**: one whose confirmation expired or was
never given reads as confirmation required. -/
def presentedAvailability (commercial : CommercialState) (freshness : FreshnessState) :
    CommercialState :=
  if commercial = .available ∧ freshness ≠ .currentUnderPolicy then .confirmationRequired
  else commercial

/-- An availability is current exactly if it was confirmed without a conflict
and its review falls due after the confirmation and after now. -/
theorem assessFreshness_current (input : FreshnessInput) :
    (assessFreshness input).fst = .currentUnderPolicy ↔
      ∃ confirmedAt due, input.lastConfirmedAt = some confirmedAt ∧
        input.due confirmedAt = some due ∧ input.conflicting = false ∧
        confirmedAt < due ∧ input.now < due := by
  unfold assessFreshness
  cases input.lastConfirmedAt with
  | none => cases input.conflicting <;> simp
  | some confirmedAt =>
    cases hdue : input.due confirmedAt with
    | none => cases input.conflicting <;> simp [hdue]
    | some due =>
      by_cases hlater : due ≤ confirmedAt
      · cases input.conflicting <;> simp [hdue, hlater, Int.not_lt.mpr hlater]
      · cases input.conflicting with
        | true => simp [hdue, hlater]
        | false =>
          by_cases hnow : due ≤ input.now
          · simp [hdue, hlater, hnow]
          · simp [hdue, hlater, hnow, Int.not_le.mp hlater, Int.not_le.mp hnow]
