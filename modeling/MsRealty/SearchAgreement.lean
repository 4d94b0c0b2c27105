import MsRealty.SearchPlan

/-!
# The query agrees with the filters

The two implementations of a search: the query over the projection and the
predicates over the facts. Both go through the same criteria in the same
order, so they are compared criterion by criterion: a *reading* is a
criterion with the answer of the filters, and whether the projection misreads
it. It misreads a feature that is known with a value that is not a boolean –
the filters take any value for what it counts as, the projection knows only
`true` and `false` – and nothing else (`factChecks_eq`).

Hence the exact condition under which a search treats a listing alike
(`agrees_iff_readsAlike`): it has no misread must-have, or the misreading changes
nothing, because something else decides.
-/

namespace Search

/-! ## Readings -/

/-- Whether the projection misreads a feature. -/
def misread : Option (MaterialFact JsonValue) → Bool
  | some (.known (.bool _)) => false
  | some (.known _) => true
  | _ => false

/-- The check of an answer. -/
def FilterResult.check : FilterResult → ℤ
  | .matched => MATCH
  | .needsConfirmation => UNCONFIRMED
  | .noMatch => 0

/-- **A reading of a criterion about a fact.** -/
structure Reading where
  name : String
  /-- What the filters answer. -/
  answer : FilterResult
  /-- Whether the projection misreads the fact. -/
  misread : Bool

/-- The check of a reading: what is misread needs confirmation. -/
def Reading.check (r : Reading) : ℤ := if r.misread then UNCONFIRMED else r.answer.check

/-- The readings of the criteria about facts. -/
def readings (view : ListingSearchView) (criteria : SearchCriteria) : List Reading :=
  (criteria.price.map (fun price =>
      ⟨"price", priceCheck view.price price criteria.purpose, false⟩)).toList
    ++ (criteria.bedrooms.map (fun range =>
      ⟨"bedrooms", factInRange view.bedrooms range, false⟩)).toList
    ++ (criteria.rooms.map (fun range => ⟨"rooms", factInRange view.rooms range, false⟩)).toList
    ++ (criteria.area.map (fun area =>
      ⟨"area." ++ area.basis.basis.name, areaCheck view area, false⟩)).toList
    ++ (criteria.mustHave.getD []).map (fun key =>
      ⟨"feature." ++ key, featureCheck (view.features key), misread (view.features key)⟩)

/-- The filters answer the readings. -/
theorem factCriteria_eq (view : ListingSearchView) (criteria : SearchCriteria) :
    factCriteria view criteria
      = (readings view criteria).map (fun r => (r.name, r.answer)) := by
  unfold factCriteria readings
  simp only [List.map_append, Option.toList_map, List.map_map, Function.comp_def]

/-- A misread feature is known, so it needs no confirmation. -/
theorem answer_of_misread {view : ListingSearchView} {criteria : SearchCriteria} {r : Reading}
    (hr : r ∈ readings view criteria) (hmis : r.misread = true) :
    r.answer ≠ .needsConfirmation := by
  simp only [readings, List.mem_append, Option.mem_toList, Option.map_eq_some_iff,
    List.mem_map] at hr
  obtain (((⟨_, -, rfl⟩ | ⟨_, -, rfl⟩) | ⟨_, -, rfl⟩) | ⟨_, -, rfl⟩) | ⟨key, -, rfl⟩ := hr
  · cases hmis
  · cases hmis
  · cases hmis
  · cases hmis
  · show featureCheck (view.features key) ≠ _
    replace hmis : misread (view.features key) = true := hmis
    unfold misread at hmis
    split at hmis
    · cases hmis
    · rename_i value _ hfact
      rw [hfact]
      show FilterResult.ofBool value.truthy ≠ _
      cases value.truthy <;> decide
    · cases hmis

/-! ## The checks of the projection -/

theorem check_ofBool (b : Bool) :
    (FilterResult.ofBool b).check = if b then MATCH else 0 := by
  cases b <;> rfl

theorem check_absent {state : FactState} (h : state ≠ .known) (value : ℤ) :
    Sql.caseWhen (Sql.conj (some (state = .known)) (some false)) value
      (Sql.caseWhen (some (state = .notApplicable)) 0 UNCONFIRMED)
      = (absentCheck state).check := by
  cases state with
  | known => exact absurd rfl h
  | _ => rfl

@[simp] theorem holds_columnInRange {α : Type*} [LE α] [DecidableLE α] (value : α)
    (range : Range α) : Sql.holds (columnInRange (some value) range) = inRange value range := by
  unfold columnInRange inRange
  rw [Sql.holds_conj]
  cases range.min <;> cases range.max <;> rfl

/-- **The projection reads a numeric fact as the filters do.** -/
theorem numberCheck_eq {α : Type*} [LE α] [DecidableLE α] (fact : Option (MaterialFact α))
    (range : Range α) :
    numberCheck (stateOf fact) (knownValue fact) range
      = (factInRange (fact.getD notRecorded) range).check := by
  cases fact with
  | none => rfl
  | some fact =>
    cases fact with
    | known value =>
      show Sql.caseWhen (columnInRange (some value) range) MATCH 0 = _
      rw [Sql.caseWhen, holds_columnInRange]
      exact (check_ofBool _).symm
    | conflicting candidates => rfl
    | absent state => exact check_absent state.state_ne_known _

/-- The projection reads a price as the filters do. -/
theorem priceCheckSql_eq (listing : PublishedListing) (price : PriceRange)
    (purpose : ListingPurpose) :
    priceCheckSql (buildSearchDocument listing) price purpose
      = (priceCheck (listing.facts.price.getD notRecorded) price purpose).check := by
  have hstate : (buildSearchDocument listing).priceState = stateOf listing.facts.price := rfl
  have hamount : (buildSearchDocument listing).priceAmountMinor
      = (knownValue listing.facts.price).map Money.amountMinor := rfl
  have hperiod : (buildSearchDocument listing).pricePeriod
      = (knownValue listing.facts.price).map Money.period := rfl
  have hcurrency : (buildSearchDocument listing).priceCurrency
      = (knownValue listing.facts.price).map Money.currency := rfl
  unfold priceCheckSql
  rw [hstate, hamount, hperiod, hcurrency]
  cases listing.facts.price with
  | none => rfl
  | some fact =>
    cases fact with
    | known money =>
      simp only [knownValue, Option.map_some, stateOf, MaterialFact.state, Option.getD_some,
        priceCheck]
      by_cases hperiod : money.period = pricePeriodByPurpose purpose
      · by_cases hcurrency : money.currency = price.currency
        · simp [hperiod, hcurrency, Sql.caseWhen, check_ofBool]
        · simp [hperiod, hcurrency, Sql.caseWhen, FilterResult.check]
      · simp [hperiod, Sql.caseWhen, FilterResult.check]
    | conflicting candidates => rfl
    | absent state => exact check_absent state.state_ne_known _

/-- The projection reads an area as the filters do, on the basis asked for. -/
theorem areaCheckSql_eq (listing : PublishedListing) (criteria : SearchCriteria) (now : Instant)
    (area : AreaRange) :
    numberCheck ((buildSearchDocument listing).areaState area.basis)
        ((buildSearchDocument listing).area area.basis) area.toRange
      = (areaCheck (searchView listing criteria now) area).check := by
  have hview : (searchView listing criteria now).areas area.basis.basis
      = listing.facts.area area.basis.basis := by
    cases area.basis <;> rfl
  have hstate : (buildSearchDocument listing).areaState area.basis
      = stateOf (listing.facts.area area.basis.basis) := rfl
  have harea : (buildSearchDocument listing).area area.basis
      = (knownValue (listing.facts.area area.basis.basis)).map Area.value := rfl
  unfold areaCheck
  rw [hview, hstate, harea]
  cases listing.facts.area area.basis.basis with
  | none => rfl
  | some fact =>
    cases fact with
    | known value => exact numberCheck_eq (some (.known value.value)) area.toRange
    | conflicting candidates => rfl
    | absent state => exact numberCheck_eq (some (.absent state)) area.toRange

/-- **The projection reads a feature as the filters do, or misreads it.** -/
theorem featureCheckSql_eq (listing : PublishedListing) (key : String) :
    featureCheckSql (buildSearchDocument listing) key
      = if misread (listing.facts.feature key) then UNCONFIRMED
        else (featureCheck (listing.facts.feature key)).check := by
  have hfeatures : (buildSearchDocument listing).features key
      = (listing.facts.feature key).map featureState := rfl
  unfold featureCheckSql
  rw [hfeatures]
  cases listing.facts.feature key with
  | none => rfl
  | some fact =>
    cases fact with
    | known value =>
      cases value with
      | bool b => cases b <;> rfl
      | null => rfl
      | num n => rfl
      | str s => rfl
      | arr items => rfl
      | obj members => rfl
    | conflicting candidates => rfl
    | absent state => cases state <;> rfl

/-- **The projection reads every criterion as the filters do, or misreads it.** -/
theorem factChecks_eq (listing : PublishedListing) (criteria : SearchCriteria) (now : Instant) :
    factChecks criteria (buildSearchDocument listing)
      = (readings (searchView listing criteria now) criteria).map
          (fun r => (r.name, r.check)) := by
  unfold factChecks readings
  simp only [List.map_append, Option.toList_map, List.map_map, Function.comp_def]
  congr 1
  · congr 1
    · congr 1
      · congr 1
        · refine List.map_congr_left (fun price _ => ?_)
          rw [priceCheckSql_eq]
          rfl
        · refine List.map_congr_left (fun range _ => ?_)
          exact congrArg _ (numberCheck_eq listing.facts.bedrooms range)
      · refine List.map_congr_left (fun range _ => ?_)
        exact congrArg _ (numberCheck_eq listing.facts.rooms range)
    · refine List.map_congr_left (fun area _ => ?_)
      rw [areaCheckSql_eq listing criteria now]
      rfl
  · refine List.map_congr_left (fun key hkey => ?_)
    have hview : (searchView listing criteria now).features key = listing.facts.feature key :=
      if_pos hkey
    rw [featureCheckSql_eq, hview]
    rfl

/-! ## The presented availability -/

/-- The session adds days as the code does: a day has 24 hours, as it has in
a session whose time zone is UTC. -/
def AddsWholeDays (db : Database) : Prop := ∀ t n, db.addDays t n = t + n * dayMs

/-- What the freshness of a published listing is assessed on. -/
def freshnessInput (listing : PublishedListing) (now : Instant) : FreshnessInput where
  purpose := listing.purpose
  lastConfirmedAt := listing.availabilityConfirmedAt
  conflicting := listing.freshnessConflicting
  now := now
  intervalDays := none
  recordedReviewDueAt :=
    if listing.hasRecordedAvailabilityPolicy then some listing.recordedAvailabilityReviewDueAt
    else none

/-- The review of a confirmed availability falls due at the same instant. -/
theorem dueSql_eq {db : Database} (hdays : AddsWholeDays db) {row : ListingRow}
    {confirmedAt : Instant} (hconfirmed : row.availabilityConfirmedAt = some confirmedAt)
    (content : ManifestContent) (now : Instant) :
    dueSql db row = (freshnessInput (publishedListing row content) now).due confirmedAt := by
  unfold dueSql
  rw [hconfirmed, Option.map_some, hdays]
  show _ = Option.getD (if row.hasAvailabilityPolicySnapshot then some row.reviewDueAt else none) _
  cases row.hasAvailabilityPolicySnapshot <;> rfl

/-- The query takes an availability for fresh exactly if it is current. -/
theorem freshSql_iff {db : Database} (hdays : AddsWholeDays db) (row : ListingRow)
    (content : ManifestContent) (now : Instant) :
    freshSql db now row = true ↔
      freshnessOf (publishedListing row content) now = .currentUnderPolicy := by
  rw [show freshnessOf (publishedListing row content) now
      = (assessFreshness (freshnessInput (publishedListing row content) now)).fst from rfl,
    assessFreshness_current, freshSql, Sql.coalesce_false, Sql.holds_all,
    show (freshnessInput (publishedListing row content) now).lastConfirmedAt
      = row.availabilityConfirmedAt from rfl,
    show (freshnessInput (publishedListing row content) now).conflicting
      = decide (row.freshnessState = .conflicting) from rfl,
    show (freshnessInput (publishedListing row content) now).now = now from rfl]
  cases hconfirmed : row.availabilityConfirmedAt with
  | none => simp
  | some confirmedAt =>
    rw [dueSql_eq hdays hconfirmed content now]
    cases hdue : (freshnessInput (publishedListing row content) now).due confirmedAt <;>
      simp [hdue]

/-- **The query presents the availability the code presents.** -/
theorem presentedAvailabilitySql_eq {db : Database} (hdays : AddsWholeDays db) (now : Instant)
    (row : ListingRow) (content : ManifestContent) :
    presentedAvailabilitySql db now row = availabilityOf (publishedListing row content) now := by
  have hfresh := freshSql_iff hdays row content now
  have hstate : (publishedListing row content).commercialState = row.commercialState := rfl
  unfold presentedAvailabilitySql availabilityOf presentedAvailability
  rw [hstate]
  by_cases hcurrent : freshnessOf (publishedListing row content) now = .currentUnderPolicy
  · rw [hfresh.mpr hcurrent]
    simp [hcurrent, Sql.caseWhen]
  · rw [Bool.eq_false_iff.mpr (fun h => hcurrent (hfresh.mp h))]
    by_cases havailable : row.commercialState = .available <;>
      simp [hcurrent, havailable, Sql.caseWhen]

/-! ## The two outcomes -/

/-- No choice among the criteria is empty. -/
structure ChoicesNonempty (criteria : SearchCriteria) : Prop where
  propertyTypes : ∀ types, criteria.propertyTypes = some types → types ≠ []
  placeIds : ∀ ids, criteria.placeIds = some ids → ids ≠ []
  availability : ∃ states, criteria.availability = some states ∧ states ≠ []

/-- **A normalized search has no empty choice.** -/
theorem criteriaOf_nonempty (input : SearchInput) : ChoicesNonempty (criteriaOf input) where
  propertyTypes _ h := sortedUnique_ne_nil h
  placeIds _ h := sortedUnique_ne_nil h
  availability := by
    refine ⟨_, rfl, ?_⟩
    cases hstates : sortedUnique CommercialState.name input.availability with
    | none => exact List.ne_nil_of_mem ((List.mem_insertionSort _).mpr List.mem_cons_self)
    | some states => exact sortedUnique_ne_nil hstates

/-- Whether every criterion about the listing itself is a match. -/
def baseMatches (view : ListingSearchView) (criteria : SearchCriteria) : Bool :=
  (baseChecks view criteria).all (fun check => check.snd = .matched)

/-- Whether the query accepts a reading. -/
def Reading.accepted (includeUnconfirmed : Bool) (r : Reading) : Bool :=
  if includeUnconfirmed then 0 < r.check else r.check = MATCH

/-- Whether the filters accept a reading. -/
def Reading.satisfied (includeUnconfirmed : Bool) (r : Reading) : Bool :=
  if includeUnconfirmed then r.answer ≠ .noMatch else r.answer = .matched

theorem decide_ofBool (b : Bool) : decide (FilterResult.ofBool b = .matched) = b := by
  cases b <;> rfl

/-- A choice that is not empty is a list of alternatives on both sides. -/
theorem all_isIn {α : Type*} [DecidableEq α] {selected : Option (List α)} (value : α)
    (h : ∀ values, selected = some values → values ≠ []) :
    ((selected.map (Sql.isIn value)).toList).all Sql.holds
      = decide (anyOf selected value = .matched) := by
  cases selected with
  | none => rfl
  | some values =>
    have hne : values.isEmpty = false := List.isEmpty_eq_false_iff.mpr (h values rfl)
    simp [anyOf, Sql.isIn, hne, decide_ofBool]

/-- Places overlap in either direction. -/
theorem all_overlaps {selected : Option (List Uuid)} (places : List Uuid)
    (h : ∀ ids, selected = some ids → ids ≠ []) :
    ((selected.map (fun ids => some (places.any (fun id => id ∈ ids)))).toList).all Sql.holds
      = decide (FilterResult.ofBool (selected.all (fun ids => ids.isEmpty
          || ids.any (fun id => id ∈ places))) = .matched) := by
  cases selected with
  | none => rfl
  | some ids =>
    have hne := h ids rfl
    rw [Option.map_some, Option.toList_some, List.all_cons, List.all_nil, Bool.and_true,
      Sql.holds_some, Option.all_some, List.isEmpty_eq_false_iff.mpr hne, Bool.false_or,
      decide_ofBool, Bool.eq_iff_iff, List.any_eq_true, List.any_eq_true]
    simp only [decide_eq_true_iff]
    exact exists_congr (fun id => and_comm)

/-- **What the query accepts**, criterion by criterion. -/
theorem holds_whereClause {db : Database} (hdays : AddsWholeDays db) {search : NormalizedSearch}
    (hq : search.q = none) (hchoices : ChoicesNonempty search.criteria) {row : ListingRow}
    {content : ManifestContent} (hlocale : content.locale = search.locale) (now : Instant) :
    Sql.holds ((plan db search now).whereClause false
        (buildSearchDocument (publishedListing row content)) row)
      = (baseMatches (searchView (publishedListing row content) search.criteria now)
            search.criteria
          && (readings (searchView (publishedListing row content) search.criteria now)
              search.criteria).all
            (Reading.accepted search.criteria.includeNeedsConfirmation)) := by
  simp only [plan, Sql.holds_all, List.all_append, List.all_map, factChecks_eq _ _ now]
  congr 1
  have hstates : search.criteria.availability
      = some (search.criteria.availability.getD offeredStates) := by
    obtain ⟨states, hstates, -⟩ := hchoices.availability
    rw [hstates, Option.getD_some]
  have hnonempty : ∀ values, search.criteria.availability = some values → values ≠ [] := by
    obtain ⟨states, hstates, hne⟩ := hchoices.availability
    exact fun values h => Option.some.inj (hstates.symm.trans h) ▸ hne
  have havailability := all_isIn (presentedAvailabilitySql db now row) hnonempty
  rw [hstates, Option.map_some, Option.toList_some, List.all_cons, List.all_nil, Bool.and_true,
    presentedAvailabilitySql_eq hdays now row content, ← hstates] at havailability
  have htypes := all_isIn content.propertyType hchoices.propertyTypes
  have hplaces := all_overlaps (content.placeChain.map PlaceNode.id) hchoices.placeIds
  have htext : ((textCondition db search.q
      (buildSearchDocument (publishedListing row content))).toList).all Sql.holds = true := by
    rw [hq]
    rfl
  unfold baseMatches baseChecks
  simp only [List.all_cons, List.all_nil, Bool.and_true, htext, Sql.holds_some,
    show (buildSearchDocument (publishedListing row content)).locale = search.locale from hlocale,
    presentedAvailabilitySql_eq hdays now row content, decide_true, Bool.true_and, Bool.and_assoc,
    Bool.false_eq_true, if_false, decide_ofBool]
  exact congrArg _
    (congrArg₂ _ htypes (congrArg₂ _ (hplaces.trans (decide_ofBool _)) havailability))

theorem namesOf_eq_nil {result : FilterResult} {checks : List (String × FilterResult)} :
    namesOf result checks = [] ↔ ∀ check ∈ checks, check.snd ≠ result := by
  simp [namesOf, List.filter_eq_nil_iff]

/-- A criterion about the listing itself never needs confirmation. -/
theorem baseChecks_ne (view : ListingSearchView) (criteria : SearchCriteria) :
    ∀ check ∈ baseChecks view criteria, check.snd ≠ .needsConfirmation := by
  have hofBool : ∀ b, FilterResult.ofBool b ≠ .needsConfirmation := by decide
  have hanyOf : ∀ {α : Type} [DecidableEq α] (selected : Option (List α)) (value : α),
      anyOf selected value ≠ .needsConfirmation := by
    intro α _ selected value
    cases selected with
    | none => exact hofBool true
    | some values => exact hofBool _
  simp only [baseChecks, List.forall_mem_cons]
  exact ⟨hofBool _, hanyOf _ _, hofBool _, hanyOf _ _, fun _ h => nomatch h⟩

/-- The names of the readings the filters need confirmed. -/
def unconfirmedNames (rs : List Reading) : List String :=
  (rs.filter (fun r => r.answer = .needsConfirmation)).map Reading.name

/-- Nothing contradicts the listing. -/
def Uncontradicted (view : ListingSearchView) (criteria : SearchCriteria) : Prop :=
  baseMatches view criteria = true ∧ ∀ r ∈ readings view criteria, r.answer ≠ .noMatch

theorem violated_eq_nil {view : ListingSearchView} {criteria : SearchCriteria} :
    namesOf .noMatch (baseChecks view criteria ++ factCriteria view criteria) = [] ↔
      Uncontradicted view criteria := by
  rw [namesOf_eq_nil, List.forall_mem_append, factCriteria_eq, List.forall_mem_map]
  refine and_congr ?_ Iff.rfl
  rw [baseMatches, List.all_eq_true]
  refine forall₂_congr (fun check hcheck => ?_)
  have hne := baseChecks_ne view criteria check hcheck
  rw [decide_eq_true_iff]
  cases hresult : check.snd <;> simp_all

/-- **What the filters answer** for a listing nothing contradicts. -/
theorem evaluateListing_of_uncontradicted {view : ListingSearchView} {criteria : SearchCriteria}
    (h : Uncontradicted view criteria) :
    evaluateListing view criteria
      = ⟨if unconfirmedNames (readings view criteria) ≠ [] then .needsConfirmation else .matched,
          [], unconfirmedNames (readings view criteria)⟩ := by
  have hbase : namesOf .needsConfirmation (baseChecks view criteria) = [] :=
    namesOf_eq_nil.mpr (baseChecks_ne view criteria)
  have hnames : namesOf .needsConfirmation (baseChecks view criteria ++ factCriteria view criteria)
      = unconfirmedNames (readings view criteria) := by
    rw [namesOf, List.filter_append, List.map_append]
    show namesOf _ (baseChecks view criteria) ++ namesOf _ (factCriteria view criteria) = _
    rw [hbase, List.nil_append, factCriteria_eq, namesOf, List.filter_map, List.map_map]
    rfl
  unfold evaluateListing
  dsimp only
  rw [violated_eq_nil.mpr h, hnames, if_neg (fun hnot => hnot rfl)]

theorem evaluateListing_of_contradicted {view : ListingSearchView} {criteria : SearchCriteria}
    (h : ¬ Uncontradicted view criteria) : (evaluateListing view criteria).result = .noMatch := by
  unfold evaluateListing
  dsimp only
  rw [if_pos (fun hnil => h (violated_eq_nil.mp hnil))]

theorem unconfirmedNames_eq_nil {rs : List Reading} :
    unconfirmedNames rs = [] ↔ ∀ r ∈ rs, r.answer ≠ .needsConfirmation := by
  simp [unconfirmedNames, List.filter_eq_nil_iff]

theorem ne_noMatch_of_satisfied {includeUnconfirmed : Bool} {r : Reading}
    (h : r.satisfied includeUnconfirmed = true) : r.answer ≠ .noMatch := by
  cases includeUnconfirmed with
  | false => exact fun hno => by simp [Reading.satisfied, hno] at h
  | true => exact of_decide_eq_true h

/-- **What the filters accept**, criterion by criterion. -/
theorem matchesSearch_eq (view : ListingSearchView) (criteria : SearchCriteria) :
    matchesSearch view criteria = (baseMatches view criteria
      && (readings view criteria).all
          (Reading.satisfied criteria.includeNeedsConfirmation)) := by
  rw [Bool.eq_iff_iff, Bool.and_eq_true, List.all_eq_true]
  unfold matchesSearch
  by_cases h : Uncontradicted view criteria
  · rw [evaluateListing_of_uncontradicted h]
    by_cases hnames : unconfirmedNames (readings view criteria) = []
    · have hall : ∀ r ∈ readings view criteria, r.answer = .matched := by
        intro r hr
        have hno := h.2 r hr
        have hneeds := unconfirmedNames_eq_nil.mp hnames r hr
        cases hr : r.answer <;> simp_all
      simp only [hnames, ne_eq, not_true_eq_false, if_false, decide_true, Bool.true_or, true_iff]
      refine ⟨h.1, fun r hr => ?_⟩
      cases criteria.includeNeedsConfirmation <;> simp [Reading.satisfied, hall r hr]
    · obtain ⟨r, hr, hneeds⟩ : ∃ r ∈ readings view criteria, r.answer = .needsConfirmation := by
        simpa [unconfirmedNames_eq_nil] using hnames
      simp only [ne_eq, hnames, not_false_eq_true, if_true, reduceCtorEq, decide_false,
        Bool.false_or, decide_true, Bool.true_and]
      cases criteria.includeNeedsConfirmation with
      | true => exact ⟨fun _ => ⟨h.1, fun r hr => decide_eq_true (h.2 r hr)⟩, fun _ => rfl⟩
      | false =>
        refine ⟨fun hfalse => (Bool.false_ne_true hfalse).elim, fun ⟨_, hall⟩ => ?_⟩
        have hmatches : r.answer = .matched := of_decide_eq_true (hall r hr)
        rw [hneeds] at hmatches
        cases hmatches
  · rw [evaluateListing_of_contradicted h]
    refine ⟨fun hfalse => by simp at hfalse, fun ⟨hbase, hall⟩ => ?_⟩
    exact absurd ⟨hbase, fun r hr => ne_noMatch_of_satisfied (hall r hr)⟩ h

/-! ## Rank and the list of unconfirmed criteria -/

theorem check_le (r : Reading) : r.check ≤ MATCH := by
  unfold Reading.check
  cases r.misread <;> cases r.answer <;> decide

/-- **A row ranks first exactly if every check is a match.** -/
theorem rank_eq_zero (db : Database) (search : NormalizedSearch) (listing : PublishedListing)
    (now : Instant) :
    (plan db search now).rank (buildSearchDocument listing) = 0 ↔
      ∀ r ∈ readings (searchView listing search.criteria now) search.criteria,
        r.check = MATCH := by
  simp only [plan, factChecks_eq _ _ now, List.map_map, List.map_eq_nil_iff]
  generalize readings (searchView listing search.criteria now) search.criteria = rs
  by_cases hnil : rs = []
  · simp [hnil]
  · rw [if_neg hnil, ← List.forall_mem_map (f := Reading.check) (P := fun v => v = MATCH),
      ← Sql.least_eq_bound (by simpa using hnil)
        (List.forall_mem_map.mpr (fun r _ => check_le r)),
      List.map_map]
    show Sql.caseWhen (Sql.compare _ (Sql.least (rs.map (some ∘ Reading.check))) _) 0 1 = 0 ↔ _
    cases Sql.least (rs.map (some ∘ Reading.check)) with
    | none => simp [Sql.caseWhen]
    | some least => simp [Sql.caseWhen]

/-- **The unconfirmed criteria of a row** are those whose check says so. -/
theorem unconfirmed_eq (db : Database) (search : NormalizedSearch) (listing : PublishedListing)
    (now : Instant) :
    (plan db search now).unconfirmed (buildSearchDocument listing)
      = ((readings (searchView listing search.criteria now) search.criteria).filter
          (fun r => r.check = UNCONFIRMED)).map Reading.name := by
  simp only [plan, factChecks_eq _ _ now, List.map_map]
  generalize readings (searchView listing search.criteria now) search.criteria = rs
  unfold Sql.arrayRemoveNull List.reduceOption
  rw [List.filterMap_map]
  induction rs with
  | nil => rfl
  | cons r rs ih =>
    by_cases hr : r.check = UNCONFIRMED
    · rw [List.filter_cons_of_pos
        (p := fun r : Reading => decide (r.check = UNCONFIRMED)) (decide_eq_true hr),
        List.map_cons, ← ih]
      exact List.filterMap_cons_some (by simp [Sql.caseWhen, hr])
    · rw [List.filter_cons_of_neg
        (p := fun r : Reading => decide (r.check = UNCONFIRMED)) (by simpa using hr), ← ih]
      exact List.filterMap_cons_none (by simp [Sql.caseWhen, hr])

/-! ## Agreement -/

/-- **The query agrees with the filters** on a row: it accepts the row exactly
if they accept the listing, and of a row it accepts it says what they say. -/
structure Agrees (plan : Plan) (doc : SearchDocument) (row : ListingRow)
    (view : ListingSearchView) (criteria : SearchCriteria) : Prop where
  accepted : Sql.holds (plan.whereClause false doc row) = true ↔
    matchesSearch view criteria = true
  rank : Sql.holds (plan.whereClause false doc row) = true →
    (plan.rank doc = 0 ↔ (evaluateListing view criteria).result = .matched)
  unconfirmed : Sql.holds (plan.whereClause false doc row) = true →
    plan.unconfirmed doc = (evaluateListing view criteria).unconfirmed

/-- Something else than a misread must-have decides: a criterion about the
listing itself or a fact read rightly contradicts the listing; or only full
matches are asked for, and a misread value counts as false or a fact read
rightly is not known. -/
def DecidedElsewhere (view : ListingSearchView) (criteria : SearchCriteria) : Prop :=
  baseMatches view criteria = false
    ∨ (∃ r ∈ readings view criteria, r.misread = false ∧ r.answer = .noMatch)
    ∨ criteria.includeNeedsConfirmation = false
      ∧ ∃ r ∈ readings view criteria,
        if r.misread then r.answer = .noMatch else r.answer = .needsConfirmation

/-- **A search reads a listing alike**: no must-have feature is known with a
value that is not a boolean, or something else decides. -/
def ReadsAlike (view : ListingSearchView) (criteria : SearchCriteria) : Prop :=
  (∀ key ∈ criteria.mustHave.getD [], misread (view.features key) = false)
    ∨ DecidedElsewhere view criteria

/-- No must-have is misread exactly if no reading is. -/
theorem readings_misread (view : ListingSearchView) (criteria : SearchCriteria) :
    (∀ key ∈ criteria.mustHave.getD [], misread (view.features key) = false) ↔
      ∀ r ∈ readings view criteria, r.misread = false := by
  have hoption : ∀ {α : Type} (o : Option α) (f : α → Reading),
      (∀ a, (f a).misread = false) → ∀ r ∈ (o.map f).toList, r.misread = false := by
    intro α o f hf r hr
    obtain ⟨a, -, rfl⟩ := Option.map_eq_some_iff.mp (Option.mem_toList.mp hr)
    exact hf a
  simp only [readings, List.forall_mem_append, List.forall_mem_map]
  exact ⟨fun h => ⟨⟨⟨⟨hoption _ _ (fun _ => rfl), hoption _ _ (fun _ => rfl)⟩,
    hoption _ _ (fun _ => rfl)⟩, hoption _ _ (fun _ => rfl)⟩, h⟩, And.right⟩

/-- A reading that is read rightly is accepted by both or by neither. -/
theorem accepted_eq_satisfied {r : Reading} (h : r.misread = false) (includeUnconfirmed : Bool) :
    r.accepted includeUnconfirmed = r.satisfied includeUnconfirmed := by
  unfold Reading.accepted Reading.satisfied Reading.check
  rw [h]
  cases includeUnconfirmed <;> cases r.answer <;> decide

/-- What is misread is accepted only where unconfirmed listings are included. -/
theorem accepted_of_misread {r : Reading} (h : r.misread = true) (includeUnconfirmed : Bool) :
    r.accepted includeUnconfirmed = includeUnconfirmed := by
  unfold Reading.accepted Reading.check
  rw [h]
  cases includeUnconfirmed <;> rfl

/-- **A plan goes through the readings**: it accepts a row if it accepts every
reading, ranks it by their checks and lists those that need confirmation. -/
structure GoesThrough (plan : Plan) (doc : SearchDocument) (row : ListingRow)
    (view : ListingSearchView) (criteria : SearchCriteria) : Prop where
  accepts : Sql.holds (plan.whereClause false doc row) = true ↔
    baseMatches view criteria = true ∧
      ∀ r ∈ readings view criteria, r.accepted criteria.includeNeedsConfirmation = true
  ranks : plan.rank doc = 0 ↔ ∀ r ∈ readings view criteria, r.check = MATCH
  lists : plan.unconfirmed doc
    = ((readings view criteria).filter (fun r => r.check = UNCONFIRMED)).map Reading.name

section GoesThrough

variable {plan : Plan} {doc : SearchDocument} {row : ListingRow} {view : ListingSearchView}
variable {criteria : SearchCriteria}

theorem matchesSearch_iff : matchesSearch view criteria = true ↔
    baseMatches view criteria = true ∧
      ∀ r ∈ readings view criteria, r.satisfied criteria.includeNeedsConfirmation = true := by
  rw [matchesSearch_eq, Bool.and_eq_true, List.all_eq_true]

theorem uncontradicted_of_matchesSearch (h : matchesSearch view criteria = true) :
    Uncontradicted view criteria :=
  ⟨(matchesSearch_iff.mp h).1, fun r hr =>
    ne_noMatch_of_satisfied ((matchesSearch_iff.mp h).2 r hr)⟩

/-- Where something else decides, both reject. -/
theorem rejected_of_decidedElsewhere (hplan : GoesThrough plan doc row view criteria)
    (h : DecidedElsewhere view criteria) :
    ¬ Sql.holds (plan.whereClause false doc row) = true ∧ ¬ matchesSearch view criteria = true := by
  rw [hplan.accepts, matchesSearch_iff]
  obtain hbase | ⟨r, hr, hread, hno⟩ | ⟨hinclude, r, hr, hmis⟩ := h
  · exact ⟨fun h => by simp [hbase] at h, fun h => by simp [hbase] at h⟩
  · have hsatisfied : ¬ r.satisfied criteria.includeNeedsConfirmation = true := fun h =>
      ne_noMatch_of_satisfied h hno
    exact ⟨fun h => hsatisfied (accepted_eq_satisfied hread _ ▸ h.2 r hr),
      fun h => hsatisfied (h.2 r hr)⟩
  · rw [hinclude]
    cases hread : r.misread with
    | true =>
      rw [hread, if_pos rfl] at hmis
      refine ⟨fun h => ?_, fun h => ne_noMatch_of_satisfied (h.2 r hr) hmis⟩
      have haccepted := h.2 r hr
      rw [accepted_of_misread hread] at haccepted
      cases haccepted
    | false =>
      rw [hread, if_neg Bool.false_ne_true] at hmis
      have hsatisfied : ¬ r.satisfied false = true := by simp [Reading.satisfied, hmis]
      exact ⟨fun h => hsatisfied (accepted_eq_satisfied hread _ ▸ h.2 r hr),
        fun h => hsatisfied (h.2 r hr)⟩

/-- Where nothing is misread, the query and the filters agree. -/
theorem agrees_of_not_misread (hplan : GoesThrough plan doc row view criteria)
    (h : ∀ r ∈ readings view criteria, r.misread = false) :
    Agrees plan doc row view criteria := by
  have hcheck : ∀ r ∈ readings view criteria, r.check = r.answer.check := fun r hr => by
    rw [Reading.check, h r hr, if_neg Bool.false_ne_true]
  have haccepted : Sql.holds (plan.whereClause false doc row) = true ↔
      matchesSearch view criteria = true := by
    rw [hplan.accepts, matchesSearch_iff]
    refine and_congr Iff.rfl (forall₂_congr (fun r hr => ?_))
    rw [accepted_eq_satisfied (h r hr)]
  refine ⟨haccepted, fun hholds => ?_, fun hholds => ?_⟩
  · have hun := uncontradicted_of_matchesSearch (haccepted.mp hholds)
    rw [hplan.ranks, evaluateListing_of_uncontradicted hun]
    have hresult : ((if unconfirmedNames (readings view criteria) ≠ [] then
        FilterResult.needsConfirmation else .matched) = .matched) ↔
        unconfirmedNames (readings view criteria) = [] := by
      split_ifs with hnames <;> simp_all
    rw [hresult, unconfirmedNames_eq_nil]
    refine forall₂_congr (fun r hr => ?_)
    rw [hcheck r hr]
    have hno := hun.2 r hr
    cases hanswer : r.answer with
    | matched => simp [FilterResult.check]
    | needsConfirmation => simp [FilterResult.check, MATCH, UNCONFIRMED]
    | noMatch => exact absurd hanswer hno
  · rw [hplan.lists,
      evaluateListing_of_uncontradicted (uncontradicted_of_matchesSearch (haccepted.mp hholds))]
    refine congrArg _ (List.filter_congr (fun r hr => ?_))
    rw [hcheck r hr]
    cases r.answer <;> decide

/-- What the filters need confirmed, the query lists, and it lists a misread
reading besides. -/
theorem length_unconfirmed_lt {m : Reading} (hm : m ∈ readings view criteria)
    (hmis : m.misread = true) :
    (unconfirmedNames (readings view criteria)).length
      < (((readings view criteria).filter (fun r => r.check = UNCONFIRMED)).map
          Reading.name).length := by
  have hsub : (readings view criteria).filter (fun r => r.answer = .needsConfirmation)
      = ((readings view criteria).filter (fun r => r.check = UNCONFIRMED)).filter
          (fun r => r.answer = .needsConfirmation) := by
    rw [List.filter_filter]
    refine List.filter_congr (fun r hr => ?_)
    cases hread : r.misread with
    | true => simp [answer_of_misread hr hread]
    | false =>
      simp only [Reading.check, hread]
      cases r.answer <;> decide
  unfold unconfirmedNames
  rw [List.length_map, List.length_map, hsub, List.length_filter_lt_length_iff_exists]
  refine ⟨m, List.mem_filter.mpr ⟨hm, ?_⟩, ?_⟩
  · simp [Reading.check, hmis]
  · simpa using answer_of_misread hm hmis

/-- Where a must-have is misread and nothing else decides, they disagree. -/
theorem not_agrees_of_misread (hplan : GoesThrough plan doc row view criteria) {m : Reading}
    (hm : m ∈ readings view criteria) (hmis : m.misread = true)
    (helse : ¬ DecidedElsewhere view criteria) : ¬ Agrees plan doc row view criteria := by
  intro hagrees
  have hbase : baseMatches view criteria = true := by
    by_contra hbase
    exact helse (Or.inl (Bool.eq_false_iff.mpr hbase))
  have hread : ∀ r ∈ readings view criteria, r.misread = false → r.answer ≠ .noMatch :=
    fun r hr hread hno => helse (Or.inr (Or.inl ⟨r, hr, hread, hno⟩))
  cases hinclude : criteria.includeNeedsConfirmation with
  | false =>
    -- Every answer is a match, so the filters accept; the query rejects what is misread.
    have hall : ∀ r ∈ readings view criteria, r.answer = .matched := by
      intro r hr
      by_contra hne
      refine helse (Or.inr (Or.inr ⟨hinclude, r, hr, ?_⟩))
      cases hrm : r.misread with
      | true =>
        have hneeds := answer_of_misread hr hrm
        cases hanswer : r.answer <;> simp_all
      | false =>
        have hno := hread r hr hrm
        cases hanswer : r.answer <;> simp_all
    have hfilters : matchesSearch view criteria = true := by
      refine matchesSearch_iff.mpr ⟨hbase, fun r hr => ?_⟩
      rw [hinclude]
      exact decide_eq_true (hall r hr)
    have hquery := (hplan.accepts.mp (hagrees.accepted.mpr hfilters)).2 m hm
    rw [hinclude, accepted_of_misread hmis] at hquery
    cases hquery
  | true =>
    -- The query accepts, and lists more than the filters do.
    have hquery : Sql.holds (plan.whereClause false doc row) = true := by
      refine hplan.accepts.mpr ⟨hbase, fun r hr => ?_⟩
      rw [hinclude]
      cases hrm : r.misread with
      | true => exact accepted_of_misread hrm true
      | false =>
        rw [accepted_eq_satisfied hrm]
        exact decide_eq_true (hread r hr hrm)
    have hlists := hagrees.unconfirmed hquery
    rw [hplan.lists, evaluateListing_of_uncontradicted
      (uncontradicted_of_matchesSearch (hagrees.accepted.mp hquery))] at hlists
    exact absurd (congrArg List.length hlists) (length_unconfirmed_lt hm hmis).ne'

/-- **The query agrees with the filters exactly where it reads alike.** -/
theorem agrees_iff_of_goesThrough (hplan : GoesThrough plan doc row view criteria) :
    Agrees plan doc row view criteria ↔ ReadsAlike view criteria := by
  rw [ReadsAlike, readings_misread]
  refine ⟨fun hagrees => ?_, fun h => ?_⟩
  · by_contra hnot
    rw [not_or, not_forall₂] at hnot
    obtain ⟨⟨m, hm, hmis⟩, helse⟩ := hnot
    exact not_agrees_of_misread hplan hm (by simpa using hmis) helse hagrees
  · obtain hread | helse := h
    · exact agrees_of_not_misread hplan hread
    · obtain ⟨hquery, hfilters⟩ := rejected_of_decidedElsewhere hplan helse
      exact ⟨iff_of_false hquery hfilters, fun h => absurd h hquery, fun h => absurd h hquery⟩

end GoesThrough

/-! ## The search of a published listing -/

section Published

variable {db : Database} {search : NormalizedSearch} {row : ListingRow}
variable {content : ManifestContent}

/-- **The plan of a search goes through the readings** of a published listing
in its locale, if it has no free text. -/
theorem goesThrough_plan (hdays : AddsWholeDays db) (hq : search.q = none)
    (hchoices : ChoicesNonempty search.criteria) (hlocale : content.locale = search.locale)
    (now : Instant) :
    GoesThrough (plan db search now) (buildSearchDocument (publishedListing row content)) row
      (searchView (publishedListing row content) search.criteria now) search.criteria where
  accepts := by
    rw [holds_whereClause hdays hq hchoices hlocale now, Bool.and_eq_true, List.all_eq_true]
  ranks := rank_eq_zero db search _ now
  lists := unconfirmed_eq db search _ now

/-- **SQL search agrees with the pure filter exactly where it reads a listing
alike.** For every published listing, the row its document is stored as, every
normalized search without free text and every instant. -/
theorem agrees_iff_readsAlike (hdays : AddsWholeDays db) {input : SearchInput}
    (hnormal : normalizeSearch input = .ok search) (hq : search.q = none)
    (hlocale : content.locale = search.locale) (harea : TwoDecimals content.facts)
    {doc : SearchDocument}
    (hstore : (buildSearchDocument (publishedListing row content)).store = some doc)
    (now : Instant) :
    Agrees (plan db search now) doc row
        (searchView (publishedListing row content) search.criteria now) search.criteria ↔
      ReadsAlike (searchView (publishedListing row content) search.criteria now)
        search.criteria := by
  have hchoices : ChoicesNonempty search.criteria := by
    rw [(normalizeSearch_ok hnormal).2]
    exact criteriaOf_nonempty input
  have hdoc : doc = buildSearchDocument (publishedListing row content) :=
    store_buildSearchDocument harea hstore
  rw [hdoc]
  exact agrees_iff_of_goesThrough (goesThrough_plan hdays hq hchoices hlocale now)

end Published

/-! ### A must-have that is not a boolean -/

/-- An available listing for sale. -/
def heatedRow : ListingRow where
  id := "5f0c8a52-7d1e-4b7a-9c3d-2f6e8b1a4c90"
  reference := "MS-00100"
  purpose := .sale
  commercialState := .available
  availabilityConfirmedAt := some 0
  freshnessState := .currentUnderPolicy
  reviewDueAt := none
  hasAvailabilityPolicySnapshot := false

/-- Its manifest: the heating is known to be gas. -/
def heatedContent : ManifestContent where
  manifestId := "6a1d9b63-8e2f-4c8b-8d4e-3a7f9c2b5da1"
  locale := .bg
  propertyType := .apartment
  placeChain := []
  placeAliases := []
  title := none
  facts := {
    price := none
    bedrooms := none
    rooms := none
    area := fun _ => none
    feature := fun key => if key = "heating" then some (.known (.str "gas")) else none }

/-- A search for what has a heating. -/
def heatingInput : SearchInput where
  locale := .bg
  purpose := .sale
  propertyTypes := none
  placeIds := none
  availability := none
  price := none
  bedrooms := none
  rooms := none
  area := none
  mustHave := some ["heating"]
  includeUnconfirmed := none
  q := none
  sort := none
  pageSize := none
  cursor := none

/-- The search as normalized. -/
def heatingSearch : NormalizedSearch where
  locale := .bg
  criteria := criteriaOf heatingInput
  q := none
  sort := .relevance
  pageSize := 24
  cursor := none

theorem normalizeSearch_heatingInput : normalizeSearch heatingInput = .ok heatingSearch := by
  have hissues : issues heatingInput = [] := by decide +kernel
  unfold normalizeSearch
  rw [hissues]
  rfl

theorem heatedContent_twoDecimals : TwoDecimals heatedContent.facts :=
  fun _ _ h => nomatch h

theorem store_heated : (buildSearchDocument (publishedListing heatedRow heatedContent)).store
    = some (buildSearchDocument (publishedListing heatedRow heatedContent)) := by
  refine congrArg some (congrArg (fun area =>
    { buildSearchDocument (publishedListing heatedRow heatedContent) with area := area }) ?_)
  funext basis
  cases basis <;> rfl

/-- The condition at this search: it does not read the listing alike, and so
does not agree with the filters. -/
theorem agrees_iff_heated :
    Agrees (plan utcDatabase heatingSearch 0)
        (buildSearchDocument (publishedListing heatedRow heatedContent)) heatedRow
        (searchView (publishedListing heatedRow heatedContent) heatingSearch.criteria 0)
        heatingSearch.criteria ↔
      ReadsAlike
        (searchView (publishedListing heatedRow heatedContent) heatingSearch.criteria 0)
        heatingSearch.criteria :=
  agrees_iff_readsAlike (fun _ _ => rfl) normalizeSearch_heatingInput rfl rfl
    heatedContent_twoDecimals store_heated 0

/-- **A heating that is not a boolean splits the two**: the filters accept the
listing, and the query does not find it. -/
theorem not_agrees_heated :
    normalizeSearch heatingInput = .ok heatingSearch ∧
      (buildSearchDocument (publishedListing heatedRow heatedContent)).store
        = some (buildSearchDocument (publishedListing heatedRow heatedContent)) ∧
      matchesSearch
        (searchView (publishedListing heatedRow heatedContent) heatingSearch.criteria 0)
        heatingSearch.criteria = true ∧
      ¬ Agrees (plan utcDatabase heatingSearch 0)
        (buildSearchDocument (publishedListing heatedRow heatedContent)) heatedRow
        (searchView (publishedListing heatedRow heatedContent) heatingSearch.criteria 0)
        heatingSearch.criteria := by
  have hfilters : matchesSearch
      (searchView (publishedListing heatedRow heatedContent) heatingSearch.criteria 0)
      heatingSearch.criteria = true := by decide +kernel
  have hquery : Sql.holds ((plan utcDatabase heatingSearch 0).whereClause false
      (buildSearchDocument (publishedListing heatedRow heatedContent)) heatedRow) = false := by
    decide +kernel
  refine ⟨normalizeSearch_heatingInput, store_heated, hfilters, fun hagrees => ?_⟩
  have hfound := hagrees.accepted.mpr hfilters
  rw [hquery] at hfound
  cases hfound

end Search
