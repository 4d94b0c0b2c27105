import MsRealty.Publication
import MsRealty.SearchAgreement

/-!
# The public presentation of a listing

What a visitor is shown of a published listing (`derivePublicPresentation` in
`src/domain/publication.ts`, `presentationOf` and the availability of `toCard`
in `src/server/publication/presentation.ts`), and that a search reads the same
availability: the query and the card never disagree about a listing.
-/

/-! ## The presentation -/

/-- What a visitor is invited to do. -/
inductive PrimaryAction where
  | requestViewing
  | askQuestion
  | viewSimilar
  deriving DecidableEq

/-- What is served at the address of a listing: restricted and withdrawn
listings keep a truthful unavailable surface. -/
inductive Surface where
  | listing
  | unavailable
  | notFound

/-- The public presentation of a listing. -/
structure PublicPresentation where
  visible : Bool
  indexable : Bool
  surface : Surface
  availability : CommercialState
  primaryAction : PrimaryAction

/-- The action an availability invites to. -/
def primaryActionFor : CommercialState → PrimaryAction
  | .available => .requestViewing
  | .confirmationRequired => .askQuestion
  | .negotiating => .askQuestion
  | .reservedWithRecordedBasis => .askQuestion
  | .sold => .viewSimilar
  | .letOut => .viewSimilar
  | .withdrawn => .viewSimilar

/-- **One presentation** for pages, interfaces and feeds. -/
def derivePublicPresentation (pointer : Option PointerState) (commercial : CommercialState)
    (freshness : FreshnessState) (localeIndexable : Bool) : PublicPresentation :=
  let visible := pointer = some .active
  let availability := presentedAvailability commercial freshness
  { visible := visible
    indexable := visible && localeIndexable
    surface := if visible then .listing else if pointer = none then .notFound else .unavailable
    availability := availability
    primaryAction := primaryActionFor availability }

namespace Search

/-- The presentation of an eligible listing. Which locales are indexable is
recorded by approvals. -/
def presentationOf (indexable : PublicLocale → Bool) (listing : PublishedListing) (now : Instant) :
    PublicPresentation :=
  derivePublicPresentation (some .active) listing.commercialState (freshnessOf listing now)
    (indexable listing.locale)

/-- What a card shows of the availability. -/
structure CardAvailability where
  presented : CommercialState
  freshness : FreshnessState
  confirmedAt : Option Instant
  primaryAction : PrimaryAction

/-- **The availability on the card** of a published listing. -/
def cardAvailability (indexable : PublicLocale → Bool) (listing : PublishedListing)
    (now : Instant) : CardAvailability :=
  let shown := presentationOf indexable listing now
  { presented := shown.availability
    freshness := freshnessOf listing now
    confirmedAt := listing.availabilityConfirmedAt
    primaryAction := shown.primaryAction }

/-! ## The query and the card -/

variable {db : Database}

theorem presented_cardAvailability (indexable : PublicLocale → Bool) (listing : PublishedListing)
    (now : Instant) :
    (cardAvailability indexable listing now).presented = availabilityOf listing now := rfl

/-- A row that a query finds has one of the availabilities asked for, as the
query computes it. -/
theorem presentedAvailabilitySql_mem {search : NormalizedSearch} {now : Instant}
    {withoutPropertyTypes : Bool} {doc : SearchDocument} {row : ListingRow}
    (h : Sql.holds ((plan db search now).whereClause withoutPropertyTypes doc row) = true) :
    presentedAvailabilitySql db now row ∈ search.criteria.availability.getD offeredStates := by
  simp only [plan, Sql.holds_all, List.all_append, Bool.and_eq_true] at h
  obtain ⟨⟨⟨-, havailability⟩, -⟩, -⟩ := h
  simpa [Sql.isIn] using havailability

/-- **The query and the card show one availability.** For every row of a
listing and every instant, in a session whose time zone is UTC, the
availability the query computes is the one on the card, so that a listing is
found only under the availability its card shows. -/
theorem card_shows_queried_availability (hdays : AddsWholeDays db)
    (indexable : PublicLocale → Bool) (row : ListingRow) (content : ManifestContent)
    (now : Instant) :
    presentedAvailabilitySql db now row
        = (cardAvailability indexable (publishedListing row content) now).presented ∧
      ∀ (search : NormalizedSearch) (withoutPropertyTypes : Bool) (doc : SearchDocument),
        Sql.holds ((plan db search now).whereClause withoutPropertyTypes doc row) = true →
        (cardAvailability indexable (publishedListing row content) now).presented
          ∈ search.criteria.availability.getD offeredStates := by
  have hsame : presentedAvailabilitySql db now row
      = (cardAvailability indexable (publishedListing row content) now).presented := by
    rw [presented_cardAvailability]
    exact presentedAvailabilitySql_eq hdays now row content
  refine ⟨hsame, fun search withoutPropertyTypes doc h => ?_⟩
  rw [← hsame]
  exact presentedAvailabilitySql_mem h

/-- The two at the instant a review falls due: the card asks for a
confirmation. -/
theorem card_shows_queried_availability_heated :
    presentedAvailabilitySql utcDatabase (14 * dayMs) heatedRow
        = (cardAvailability (fun locale => locale = .bg)
            (publishedListing heatedRow heatedContent) (14 * dayMs)).presented ∧
      ∀ (search : NormalizedSearch) (withoutPropertyTypes : Bool) (doc : SearchDocument),
        Sql.holds ((plan utcDatabase search (14 * dayMs)).whereClause withoutPropertyTypes doc
          heatedRow) = true →
        (cardAvailability (fun locale => locale = .bg)
            (publishedListing heatedRow heatedContent) (14 * dayMs)).presented
          ∈ search.criteria.availability.getD offeredStates :=
  card_shows_queried_availability (fun _ _ => rfl) (fun locale => locale = .bg) heatedRow
    heatedContent (14 * dayMs)

end Search
