import Mathlib.Data.List.AList
import MsRealty.JsonRoundTrip
import MsRealty.OperatingPolicy
import MsRealty.StaffedMeasure

/-!
# Staffed durations of a report

A report asks for many staffed durations (`src/server/reports/staffed-response.ts`). Its
reader keeps the policies it has parsed, by their JSON text, and with each policy the full
UTC days it has read; a budget bounds how many slices a report may read. An interval is
split at UTC midnights, after its two ends were looked at.

The reader gives what the plain one gives, or says that the budget is spent – except for
an interval that begins within an hour of a day without windows and ends behind the
calendar: the plain reader refuses its range, this one reports the day.
-/

namespace OperatingPolicy

open Instants Schema

/-! ## The reader -/

/-- A JSON value, whose numbers are finite decimals. -/
abbrev PlainValue := { v : JsonValue // JsonText.Plain v }

/-- A query: a snapshot, or nothing, and two dates, which may have no time. -/
structure Query where
  value : Option PlainValue
  start : Option ℤ
  stop : Option ℤ

/-- The value of a query. -/
def Query.json (q : Query) : Option JsonValue := q.value.map Subtype.val

/-- What the reader of a report answers: a staffed duration, or `calculation_limit`. -/
inductive Duration where
  | of (duration : StaffedDuration)
  | calculationLimit
  deriving DecidableEq

/-- The days that were read under a policy, by their first instant. -/
abbrev Days := AList (fun _ : ℤ => StaffedDuration)

/-- A policy that was parsed, and its days. -/
structure PolicyEntry where
  snapshot : Option ApprovedSnapshot
  days : Days

/-- **The state of a reader.** -/
structure ReaderState where
  policies : AList (fun _ : List Char => PolicyEntry)
  slices : ℕ

/-- A reader that was asked nothing. -/
def ReaderState.initial : ReaderState := ⟨∅, 0⟩

/-- `JSON.stringify(value) ?? "undefined"`. -/
def keyOf : Option PlainValue → List Char
  | some v => JsonText.stringify v.val
  | none => "undefined".toList

/-- The milliseconds of a day. -/
def dayMs : ℤ := 86400000

/-- The days and the slices, while a query is read. -/
structure Cache where
  days : Days
  slices : ℕ

/-- The budget is spent; no number at all is no bound. -/
def reached (limit : Option ℚ) (slices : ℕ) : Bool :=
  limit.any (fun m : ℚ => decide (m ≤ slices))

/-- Reads one piece of an interval, if the budget allows; a full day is kept. -/
def readPiece (sofia : SofiaClock) (limit : Option ℚ) (snapshot : ApprovedSnapshot)
    (cursor next : ℤ) (cache : Cache) : Cache × Option StaffedDuration :=
  let fullDay : Bool := decide (cursor % dayMs = 0 ∧ next - cursor = dayMs)
  match (if fullDay then cache.days.lookup cursor else none) with
  | some result => (cache, some result)
  | none =>
    if reached limit cache.slices then (cache, none)
    else
      let result := staffedDuration sofia (some snapshot.toJson) (some cursor) (some next)
      ({ days := if fullDay then cache.days.insert cursor result else cache.days
         slices := cache.slices + 1 }, some result)

/-- Where the piece that begins at an instant ends. -/
def nextMidnight (till cursor : ℤ) : ℤ := min till ((cursor / dayMs + 1) * dayMs)

/-- How many pieces are left. -/
def passes (till cursor : ℤ) : ℕ := ((till - 1) / dayMs - cursor / dayMs + 1).toNat

/-- **The loop** over the pieces; the first argument counts them. -/
def dayLoop (sofia : SofiaClock) (limit : Option ℚ) (snapshot : ApprovedSnapshot) (till : ℤ) :
    ℕ → ℤ → ℤ → Cache → Cache × Duration
  | 0, _, ms, cache => (cache, .of (snapshot.label (.known ms)))
  | n + 1, cursor, ms, cache =>
    if till ≤ cursor then (cache, .of (snapshot.label (.known ms)))
    else
      let next := nextMidnight till cursor
      let (cache, result) := readPiece sofia limit snapshot cursor next cache
      match result with
      | none => (cache, .calculationLimit)
      | some (.unknown reason) => (cache, .of (.unknown reason))
      | some (.known m _ _) => dayLoop sofia limit snapshot till n next (ms + m) cache

/-- The two ends of an interval, each as an interval of its own: what the first unknown
one of them says. -/
def checkEnds (sofia : SofiaClock) (snapshot : ApprovedSnapshot) (since till : ℤ) :
    Option UnknownReason :=
  [since, till - 1].findSome? (fun instant =>
    match staffedDuration sofia (some snapshot.toJson) (some instant) (some instant) with
    | .unknown reason => some reason
    | .known _ _ _ => none)

/-- What is read of an interval under a policy. -/
def readInterval (sofia : SofiaClock) (limit : Option ℚ) (snapshot : ApprovedSnapshot)
    (start stop : Option ℤ) (cache : Cache) : Cache × Duration :=
  match start, stop with
  | some since, some till =>
    if till ≤ since ∨ maxInterval < till - since then
      (cache, .of (staffedDuration sofia (some snapshot.toJson) start stop))
    else
      match checkEnds sofia snapshot since till with
      | some reason => (cache, .of (.unknown reason))
      | none => dayLoop sofia limit snapshot till (passes till since) since 0 cache
  | _, _ => (cache, .of (staffedDuration sofia (some snapshot.toJson) start stop))

/-- The policy that is kept for a value, or a new one. -/
def ReaderState.entry (s : ReaderState) (value : Option PlainValue) : PolicyEntry :=
  (s.policies.lookup (keyOf value)).getD
    ⟨readOperatingPolicySnapshot (value.map Subtype.val), ∅⟩

/-- **A query of the reader** that `createReportStaffedDurationReader` makes. -/
def read (sofia : SofiaClock) (limit : Option ℚ) (s : ReaderState) (q : Query) :
    ReaderState × Duration :=
  let entry := s.entry q.value
  match entry.snapshot with
  | none => ({ s with policies := s.policies.insert (keyOf q.value) entry },
      .of (.unknown .noReviewedPolicy))
  | some snapshot =>
    let (cache, answer) := readInterval sofia limit snapshot q.start q.stop ⟨entry.days, s.slices⟩
    ({ policies := s.policies.insert (keyOf q.value) { entry with days := cache.days }
       slices := cache.slices }, answer)

/-- What the plain reader gives for a query. -/
def plainly (sofia : SofiaClock) (q : Query) : StaffedDuration :=
  staffedDuration sofia q.json q.start q.stop

/-! ## The keys of values -/

theorem parse_undefined : JsonText.parse "undefined".toList = none := by decide +kernel

/-- **One text, one value.** -/
theorem keyOf_injective : Function.Injective keyOf := by
  intro v w h
  cases v with
  | none =>
    cases w with
    | none => rfl
    | some w =>
      have hparse := JsonText.parse_stringify w.property
      rw [← show keyOf none = JsonText.stringify w.val from h] at hparse
      exact absurd (parse_undefined.symm.trans hparse) (by simp)
  | some v =>
    have hv := JsonText.parse_stringify v.property
    cases w with
    | none =>
      rw [show JsonText.stringify v.val = keyOf none from h] at hv
      exact absurd (parse_undefined.symm.trans hv) (by simp)
    | some w =>
      have hw := JsonText.parse_stringify w.property
      rw [show JsonText.stringify v.val = JsonText.stringify w.val from h] at hv
      exact congrArg some (Subtype.ext (Option.some.inj (hv.symm.trans hw)))

/-! ## Reading a snapshot again -/

section policy

variable {sofia : SofiaClock} {value : Option JsonValue} {snapshot : ApprovedSnapshot}

/-- A snapshot that was made of a value stands for it. -/
theorem staffedDuration_toJson (h : readOperatingPolicySnapshot value = some snapshot)
    (start stop : Option ℤ) :
    staffedDuration sofia (some snapshot.toJson) start stop
      = staffedDuration sofia value start stop := by
  rw [staffedDuration, stable_readOperatingPolicySnapshot _ _ h, staffedDuration, h]

/-- The calendar of a snapshot was read. -/
theorem exists_serviceCalendar (h : readOperatingPolicySnapshot value = some snapshot) :
    ∃ v, serviceCalendar v = some snapshot.document.serviceCalendar := by
  simp only [readOperatingPolicySnapshot, Option.bind_eq_bind, Option.bind_eq_some_iff] at h
  obtain ⟨_, -, _, -, _, -, _, -, _, -, document, hdocument, hend⟩ := h
  obtain rfl := Option.some.inj hend
  simp only [operatingPolicySchema, Option.bind_eq_bind, Option.bind_eq_some_iff] at hdocument
  obtain ⟨_, -, calendar, hcalendar, _, -, _, -, _, -, _, -, _, -, _, -, _, -, _, -, hend⟩ := hdocument
  obtain rfl := Option.some.inj hend
  exact ⟨_, hcalendar⟩

/-- **The staffed duration under a calendar.** -/
theorem staffedDuration_eq (h : readOperatingPolicySnapshot value = some snapshot)
    {calendar : ServiceCalendar} (hcalendar : snapshot.document.serviceCalendar = some calendar)
    (x y : ℤ) :
    staffedDuration sofia value (some x) (some y)
      = snapshot.label (durationBetween sofia calendar x y) := by
  obtain ⟨v, hv⟩ := exists_serviceCalendar h
  have hread := stable_serviceCalendar v _ hv
  rw [hcalendar] at hread
  have hschema : serviceCalendarSchema (some calendar.toJson) = some calendar := by
    have hmap : (serviceCalendarSchema (some calendar.toJson)).map some = some (some calendar) :=
      hread
    obtain ⟨c, hc, heq⟩ := Option.map_eq_some_iff.mp hmap
    rw [hc, Option.some.inj heq]
  rw [staffedDuration, h]
  show snapshot.label (calendarStaffedDuration sofia
    (some (writeCalendar snapshot.document.serviceCalendar)) (some x) (some y)) = _
  rw [hcalendar]
  exact congrArg snapshot.label (congrFun (congrFun (calendarStaffedDuration_eq hschema) x) y)

/-- Without a calendar everything is unknown. -/
theorem staffedDuration_of_none (h : readOperatingPolicySnapshot value = some snapshot)
    (hcalendar : snapshot.document.serviceCalendar = none) (start stop : Option ℤ) :
    staffedDuration sofia value start stop = .unknown .calendarUnknown := by
  rw [staffedDuration, h]
  show snapshot.label (calendarStaffedDuration sofia
    (some (writeCalendar snapshot.document.serviceCalendar)) start stop) = _
  rw [hcalendar]
  rfl

/-! ## Pieces -/

/-- **The days that are kept are right.** -/
def DaysRight (sofia : SofiaClock) (snapshot : ApprovedSnapshot) (days : Days) : Prop :=
  ∀ cursor result, days.lookup cursor = some result →
    result = staffedDuration sofia (some snapshot.toJson) (some cursor) (some (cursor + dayMs))

/-- **What is read of a piece** is what the plain reader says of it. -/
theorem readPiece_spec (limit : Option ℚ) (cursor next : ℤ) {cache : Cache}
    (hdays : DaysRight sofia snapshot cache.days) :
    DaysRight sofia snapshot (readPiece sofia limit snapshot cursor next cache).1.days ∧
      ((readPiece sofia limit snapshot cursor next cache).2 = none ∨
        (readPiece sofia limit snapshot cursor next cache).2
          = some (staffedDuration sofia (some snapshot.toJson) (some cursor) (some next))) := by
  unfold readPiece
  dsimp only
  split
  · next result hfound =>
    refine ⟨hdays, .inr (congrArg some ?_)⟩
    split at hfound
    · next hfull =>
      have hnext := (of_decide_eq_true hfull).2
      rw [hdays cursor result hfound, show cursor + dayMs = next by omega]
    · cases hfound
  · split
    · exact ⟨hdays, .inl rfl⟩
    · refine ⟨?_, .inr rfl⟩
      split
      · next hfull =>
        have hnext := (of_decide_eq_true hfull).2
        intro c r hlookup
        dsimp only at hlookup
        by_cases hc : c = cursor
        · rw [hc, AList.lookup_insert] at hlookup
          rw [← Option.some.inj hlookup, hc, show cursor + dayMs = next by omega]
        · rw [AList.lookup_insert_ne hc] at hlookup
          exact hdays c r hlookup
      · exact hdays

theorem lt_nextMidnight {till cursor : ℤ} (h : cursor < till) : cursor < nextMidnight till cursor := by
  unfold nextMidnight dayMs
  omega

theorem nextMidnight_le (till cursor : ℤ) : nextMidnight till cursor ≤ till := min_le_left _ _

theorem nextMidnight_sub_le {till cursor : ℤ} : nextMidnight till cursor - cursor ≤ maxInterval := by
  unfold nextMidnight dayMs maxInterval hourMs
  omega

/-- Every pass leaves one piece less. -/
theorem passes_next {till cursor : ℤ} {n : ℕ} (hn : passes till cursor ≤ n + 1)
    (hmore : nextMidnight till cursor < till) : passes till (nextMidnight till cursor) ≤ n := by
  have hnext : nextMidnight till cursor = (cursor / dayMs + 1) * dayMs :=
    min_eq_right (not_le.mp fun hle => absurd hmore (not_lt.mpr (le_of_eq (min_eq_left hle).symm))).le
  unfold passes at hn ⊢
  rw [hnext, Int.mul_ediv_cancel _ (show dayMs ≠ 0 by decide)]
  omega

theorem passes_pos {till cursor : ℤ} (h : cursor < till) : 0 < passes till cursor := by
  have hle : cursor / dayMs ≤ (till - 1) / dayMs := Int.ediv_le_ediv (by decide) (by omega)
  unfold passes
  omega

open Classical in
/-- What is known of an interval in which nothing is refused. -/
noncomputable def unrefused (sofia : SofiaClock) (snapshot : ApprovedSnapshot)
    (calendar : ServiceCalendar) (ms since till : ℤ) : StaffedDuration :=
  if HasUnknownDay sofia calendar since till then .unknown .unknownDay
  else snapshot.label (.known (ms + length (staffedByText sofia calendar) since till))

theorem unrefused_self (calendar : ServiceCalendar) (ms till : ℤ) :
    unrefused sofia snapshot calendar ms till till = snapshot.label (.known ms) := by
  unfold unrefused
  rw [if_neg (fun ⟨t, hle, hlt, _⟩ => absurd hlt (not_lt.mpr hle)), length_of_le le_rfl]
  exact congrArg (fun m => snapshot.label (.known m)) (add_zero ms)

/-- What is known of a first part without unknown days adds up. -/
theorem unrefused_split {calendar : ServiceCalendar} {ms since middle till : ℤ}
    (hle : since ≤ middle) (hle' : middle ≤ till) (h : ¬HasUnknownDay sofia calendar since middle) :
    unrefused sofia snapshot calendar ms since till
      = unrefused sofia snapshot calendar
        (ms + length (staffedByText sofia calendar) since middle) middle till := by
  have hiff : HasUnknownDay sofia calendar since till ↔ HasUnknownDay sofia calendar middle till :=
    (hasUnknownDay_split hle hle').trans (or_iff_right h)
  unfold unrefused
  by_cases hrest : HasUnknownDay sofia calendar middle till
  · rw [if_pos hrest, if_pos (hiff.mpr hrest)]
  · rw [if_neg hrest, if_neg (fun h => hrest (hiff.mp h)), length_split hle hle', Nat.cast_add,
      add_assoc]

/-- The loop keeps the days right. -/
theorem daysRight_dayLoop {limit : Option ℚ} {till : ℤ} {n : ℕ} {cursor ms : ℤ} {cache : Cache}
    (hdays : DaysRight sofia snapshot cache.days) :
    DaysRight sofia snapshot (dayLoop sofia limit snapshot till n cursor ms cache).1.days := by
  induction n generalizing cursor ms cache with
  | zero => exact hdays
  | succ n ih =>
    rw [dayLoop]
    split_ifs
    · exact hdays
    · have hdays' := (readPiece_spec limit cursor (nextMidnight till cursor) hdays).1
      cases hread : readPiece sofia limit snapshot cursor (nextMidnight till cursor) cache with
      | mk cache' result =>
      rw [hread] at hdays'
      simp only [hread]
      split
      · exact hdays'
      · exact hdays'
      · exact ih hdays'

/-- **The loop** gives what is known of the whole, or says that the budget is spent. -/
theorem dayLoop_spec (limit : Option ℚ) {calendar : ServiceCalendar} {till : ℤ}
    (hread : ∀ x y, staffedDuration sofia (some snapshot.toJson) (some x) (some y)
      = snapshot.label (durationBetween sofia calendar x y))
    {n : ℕ} {cursor : ℤ} (ms : ℤ) {cache : Cache} (hcursor : cursor ≤ till)
    (hn : cursor < till → passes till cursor ≤ n)
    (hrefused : ∀ x y, cursor ≤ x → x < y → y ≤ till → ¬Refused sofia calendar x y)
    (hdays : DaysRight sofia snapshot cache.days) :
    (dayLoop sofia limit snapshot till n cursor ms cache).2 = .calculationLimit ∨
      (dayLoop sofia limit snapshot till n cursor ms cache).2
        = .of (unrefused sofia snapshot calendar ms cursor till) := by
  induction n generalizing cursor ms cache with
  | zero =>
    have hend : cursor = till := le_antisymm hcursor (not_lt.mp fun hlt =>
      absurd (passes_pos hlt) (not_lt.mpr (hn hlt)))
    rw [hend, unrefused_self]
    exact .inr rfl
  | succ n ih =>
    rw [dayLoop]
    split_ifs with hdone
    · rw [le_antisymm hcursor hdone, unrefused_self]
      exact .inr rfl
    · have hcursor := not_le.mp hdone
      have hlt := lt_nextMidnight hcursor
      have hle := nextMidnight_le till cursor
      obtain ⟨hdays', hpiece⟩ := readPiece_spec limit cursor (nextMidnight till cursor) hdays
      rw [hread, durationBetween_eq hlt nextMidnight_sub_le,
        if_neg (hrefused cursor (nextMidnight till cursor) le_rfl hlt hle)] at hpiece
      cases hread' : readPiece sofia limit snapshot cursor (nextMidnight till cursor) cache with
      | mk cache' result =>
      rw [hread'] at hdays' hpiece
      dsimp only at hdays' hpiece
      simp only [hread']
      rcases hpiece with rfl | rfl
      · exact .inl rfl
      · split_ifs with hunknown
        · refine .inr (congrArg Duration.of (if_pos ?_).symm)
          exact (hasUnknownDay_split hlt.le hle).mpr (.inl hunknown)
        · rw [unrefused_split hlt.le hle hunknown]
          exact ih _ hle (fun hmore => passes_next (hn hcursor) hmore)
            (fun x y hx hxy hy => hrefused x y (hlt.le.trans hx) hxy hy) hdays'

/-! ## The ends -/

/-- The text of a date is outside the calendar. -/
def Outside (sofia : SofiaClock) (calendar : ServiceCalendar) (t : ℤ) : Prop :=
  localDate (parts sofia t) < calendar.validFrom.text ∨
    calendar.validUntil.text < localDate (parts sofia t)

instance (calendar : ServiceCalendar) (t : ℤ) : Decidable (Outside sofia calendar t) :=
  inferInstanceAs (Decidable (_ ∨ _))

/-- An instant within an hour of a day without windows. -/
def InUnknownHour (sofia : SofiaClock) (calendar : ServiceCalendar) (t : ℤ) : Prop :=
  t % hourMs ≠ 0 ∧ windowsAt calendar (parts sofia t) = none

theorem hourStarts_self (t : ℤ) :
    ∀ hour, hour ∈ hourStarts t t ↔ t % hourMs ≠ 0 ∧ hour = t / hourMs * hourMs := by
  intro hour
  rw [mem_hourStarts]
  unfold hourMs
  constructor
  · rintro ⟨k, rfl, hle, hlt⟩
    omega
  · rintro ⟨hne, rfl⟩
    exact ⟨t / 3600000, rfl, le_rfl, by omega⟩

open Classical in
/-- **An interval without length** is read at its instant: its range first, and, within an
hour, its windows. -/
theorem durationBetween_self (sofia : SofiaClock) (calendar : ServiceCalendar) (t : ℤ) :
    ∃ m, durationBetween sofia calendar t t
      = if Outside sofia calendar t then .unknown .outsideReviewedCalendar
        else if InUnknownHour sofia calendar t then .unknown .unknownDay
        else .known m := by
  have hwhole : ∀ hour ∈ hourStarts t t, ∃ k, hour = k * hourMs := fun hour hmem => by
    obtain ⟨k, hk, -, -⟩ := mem_hourStarts.mp hmem
    exact ⟨k, hk⟩
  have hwindows : (∀ hour ∈ hourStarts t t, windowsAt calendar (parts sofia hour) ≠ none) ↔
      ¬InUnknownHour sofia calendar t := by
    simp only [hourStarts_self, InUnknownHour]
    constructor
    · rintro hall ⟨hne, hnone⟩
      refine hall _ ⟨hne, rfl⟩ ?_
      rwa [parts_hourStart]
    · rintro hnot hour ⟨hne, rfl⟩ hnone
      rw [parts_hourStart] at hnone
      exact hnot ⟨hne, hnone⟩
  rw [durationBetween, if_neg (lt_irrefl t), if_neg (by rw [sub_self]; decide),
    max_eq_left (by omega : t - 1 ≤ t), walk_eq _ _ _ _ _ _ hwhole, if_congr hwindows rfl rfl,
    ite_not]
  exact ⟨_, rfl⟩

/-- **What the ends say**: the first of them that is outside, or within an hour of a day
without windows. -/
theorem checkEnds_eq {calendar : ServiceCalendar}
    (hread : ∀ x y, staffedDuration sofia (some snapshot.toJson) (some x) (some y)
      = snapshot.label (durationBetween sofia calendar x y)) (since till : ℤ) :
    (Outside sofia calendar since ∧
        checkEnds sofia snapshot since till = some .outsideReviewedCalendar) ∨
      (¬Outside sofia calendar since ∧ InUnknownHour sofia calendar since ∧
        checkEnds sofia snapshot since till = some .unknownDay) ∨
      (¬Outside sofia calendar since ∧ ¬InUnknownHour sofia calendar since ∧
        Outside sofia calendar (till - 1) ∧
        checkEnds sofia snapshot since till = some .outsideReviewedCalendar) ∨
      (¬Outside sofia calendar since ∧ ¬Outside sofia calendar (till - 1) ∧
        InUnknownHour sofia calendar (till - 1) ∧
        checkEnds sofia snapshot since till = some .unknownDay) ∨
      (¬Outside sofia calendar since ∧ ¬Outside sofia calendar (till - 1) ∧
        checkEnds sofia snapshot since till = none) := by
  obtain ⟨m, hfirst⟩ := durationBetween_self sofia calendar since
  obtain ⟨m', hlast⟩ := durationBetween_self sofia calendar (till - 1)
  unfold checkEnds
  simp only [List.findSome?_cons, List.findSome?_nil, hread, hfirst, hlast]
  by_cases h₁ : Outside sofia calendar since
  · simp [h₁, ApprovedSnapshot.label]
  · by_cases h₂ : InUnknownHour sofia calendar since
    · simp [h₁, h₂, ApprovedSnapshot.label]
    · by_cases h₃ : Outside sofia calendar (till - 1)
      · simp [h₁, h₂, h₃, ApprovedSnapshot.label]
      · by_cases h₄ : InUnknownHour sofia calendar (till - 1)
        · simp [h₁, h₂, h₃, h₄, ApprovedSnapshot.label]
        · simp [h₁, h₂, h₃, h₄, ApprovedSnapshot.label]

/-! ## One query -/

/-- The texts of the dates of an interval are in order, as they are while years have four
digits. -/
def DatesInOrder (sofia : SofiaClock) (since till : ℤ) : Prop :=
  ∀ t u, since ≤ t → t ≤ u → u < till →
    ¬localDate (parts sofia u) < localDate (parts sofia t)

theorem datesInOrder_of_fourDigits {since till : ℤ}
    (h : ∀ t, since ≤ t → t < till → FourDigits sofia t) : DatesInOrder sofia since till := by
  intro t u hst htu hut
  have ht := h t hst (htu.trans_lt hut)
  have hu := h u (hst.trans htu) hut
  rw [localDate_eq ht, localDate_eq hu, isoText_lt_iff hu.shortYear ht.shortYear, days_date,
    days_date, not_lt]
  exact wallDay_mono htu

/-- **What the reader misreports**: an interval that begins within an hour of a day without
windows, of which the calendar says nothing at its end. -/
def Misread (sofia : SofiaClock) (calendar : ServiceCalendar) (since till : ℤ) : Prop :=
  ¬Outside sofia calendar since ∧ InUnknownHour sofia calendar since ∧
    Outside sofia calendar (till - 1)

theorem not_refused_of_ends {calendar : ServiceCalendar} {since till : ℤ}
    (horder : DatesInOrder sofia since till) (hfirst : ¬Outside sofia calendar since)
    (hlast : ¬Outside sofia calendar (till - 1)) :
    ∀ x y, since ≤ x → x < y → y ≤ till → ¬Refused sofia calendar x y := by
  intro x y hx hxy hy hr
  unfold Outside at hfirst hlast
  rw [not_or, not_lt, not_lt] at hfirst hlast
  have hbefore := not_lt.mp (horder since x le_rfl hx (by omega))
  have hafter := not_lt.mp (horder (y - 1) (till - 1) (by omega) (by omega) (by omega))
  rcases hr with h | h
  · exact absurd (hfirst.1.trans hbefore) (not_le.mpr h)
  · exact absurd (hafter.trans hlast.2) (not_le.mpr h)

/-- In order, an interval is refused when one of its ends is outside. -/
theorem refused_iff (calendar : ServiceCalendar) {since till : ℤ} (hlt : since < till)
    (horder : DatesInOrder sofia since till) :
    Refused sofia calendar since till ↔
      Outside sofia calendar since ∨ Outside sofia calendar (till - 1) := by
  have hends := not_lt.mp (horder since (till - 1) le_rfl (by omega) (by omega))
  constructor
  · rintro (h | h)
    · exact .inl (.inl h)
    · exact .inr (.inr h)
  · rintro ((h | h) | h | h)
    · exact .inl h
    · exact .inr (h.trans_le hends)
    · exact .inl (hends.trans_lt h)
    · exact .inr h

theorem hasUnknownDay_of_end {calendar : ServiceCalendar} {since till t : ℤ} (hle : since ≤ t)
    (hlt : t < till) (h : InUnknownHour sofia calendar t) : HasUnknownDay sofia calendar since till :=
  ⟨t, hle, hlt, h.2⟩

/-- Reading an interval keeps the days right. -/
theorem daysRight_readInterval (limit : Option ℚ) (start stop : Option ℤ) (cache : Cache)
    (hdays : DaysRight sofia snapshot cache.days) :
    DaysRight sofia snapshot (readInterval sofia limit snapshot start stop cache).1.days := by
  unfold readInterval
  split
  · split_ifs
    · exact hdays
    · split
      · exact hdays
      · exact daysRight_dayLoop hdays
  · exact hdays

/-- What cannot be read as an interval is left to the plain reader. -/
theorem readInterval_improper {start stop : Option ℤ} (limit : Option ℚ) (cache : Cache)
    (h : ∀ since till, start = some since → stop = some till →
      till ≤ since ∨ maxInterval < till - since) :
    (readInterval sofia limit snapshot start stop cache).2
      = .of (staffedDuration sofia (some snapshot.toJson) start stop) := by
  unfold readInterval
  split
  · next since till => rw [if_pos (h since till rfl rfl)]
  · rfl

/-- Without a calendar both ends say so, as the plain reader does. -/
theorem readInterval_of_none {since till : ℤ} (limit : Option ℚ) (cache : Cache)
    (hnone : ∀ start stop, staffedDuration sofia (some snapshot.toJson) start stop
      = .unknown .calendarUnknown) :
    (readInterval sofia limit snapshot (some since) (some till) cache).2
      = .of (.unknown .calendarUnknown) := by
  unfold readInterval checkEnds
  dsimp only
  rw [hnone, List.findSome?_cons, hnone]
  split_ifs <;> rfl

/-- **One interval**, under a calendar: the answer is that of the plain reader or that the
budget is spent, unless the interval is misread; then it is neither. -/
theorem readInterval_spec {calendar : ServiceCalendar} {since till : ℤ} (hlt : since < till)
    (hshort : till - since ≤ maxInterval)
    (hread : ∀ x y, staffedDuration sofia (some snapshot.toJson) (some x) (some y)
      = snapshot.label (durationBetween sofia calendar x y))
    (horder : DatesInOrder sofia since till) (limit : Option ℚ) {cache : Cache}
    (hdays : DaysRight sofia snapshot cache.days) :
    ((readInterval sofia limit snapshot (some since) (some till) cache).2 = .calculationLimit ∨
      (readInterval sofia limit snapshot (some since) (some till) cache).2
        = .of (staffedDuration sofia (some snapshot.toJson) (some since) (some till))) ↔
      ¬Misread sofia calendar since till := by
  have hplain := hread since till
  rw [durationBetween_eq hlt hshort] at hplain
  have hproper : ¬(till ≤ since ∨ maxInterval < till - since) := by
    rw [not_or, not_le, not_lt]
    exact ⟨hlt, hshort⟩
  have hrefused := refused_iff calendar hlt horder
  unfold readInterval
  dsimp only
  rw [if_neg hproper, hplain]
  rcases checkEnds_eq hread since till with ⟨h₁, heq⟩ | ⟨h₁, h₂, heq⟩ | ⟨h₁, h₂, h₃, heq⟩
    | ⟨h₁, h₃, h₄, heq⟩ | ⟨h₁, h₃, heq⟩
  · rw [heq, if_pos (hrefused.mpr (.inl h₁))]
    exact iff_of_true (.inr rfl) (fun h => h.1 h₁)
  · rw [heq]
    by_cases h₃ : Outside sofia calendar (till - 1)
    · rw [if_pos (hrefused.mpr (.inr h₃))]
      refine iff_of_false ?_ (fun h => h ⟨h₁, h₂, h₃⟩)
      exact fun h => h.elim (fun h => Duration.noConfusion h)
        (fun h => by simp [ApprovedSnapshot.label] at h)
    · rw [if_neg (fun h => (hrefused.mp h).elim h₁ h₃),
        if_pos (hasUnknownDay_of_end le_rfl hlt h₂)]
      exact iff_of_true (.inr rfl) (fun h => h₃ h.2.2)
  · rw [heq, if_pos (hrefused.mpr (.inr h₃))]
    exact iff_of_true (.inr rfl) (fun h => h₂ h.2.1)
  · rw [heq, if_neg (fun h => (hrefused.mp h).elim h₁ h₃),
      if_pos (hasUnknownDay_of_end (by omega) (by omega) h₄)]
    exact iff_of_true (.inr rfl) (fun h => h₃ h.2.2)
  · rw [heq, if_neg (fun h => (hrefused.mp h).elim h₁ h₃)]
    have hloop := dayLoop_spec limit hread 0 hlt.le (fun _ => le_rfl)
      (not_refused_of_ends horder h₁ h₃) hdays
    refine iff_of_true (hloop.imp_right fun h => h.trans (congrArg Duration.of ?_))
      (fun h => h₃ h.2.2)
    unfold unrefused
    rw [zero_add]
    split_ifs <;> rfl

end policy

/-! ## Every sequence of queries -/

/-- **What a reader knows is right**: the policies it keeps are those of their values, and
so are their days. -/
def Sound (sofia : SofiaClock) (s : ReaderState) : Prop :=
  ∀ value entry, s.policies.lookup (keyOf value) = some entry →
    entry.snapshot = readOperatingPolicySnapshot (value.map Subtype.val) ∧
      ∀ snapshot, entry.snapshot = some snapshot → DaysRight sofia snapshot entry.days

/-- The dates of a query, if it asks for an interval that can be read, are in order. -/
def Query.InOrder (sofia : SofiaClock) (q : Query) : Prop :=
  ∀ since till, q.start = some since → q.stop = some till → since < till →
    till - since ≤ maxInterval → DatesInOrder sofia since till

/-- A query is misread: its interval can be read, and begins within an hour of a day
without windows, and ends where the calendar says nothing. -/
def Query.Misread (sofia : SofiaClock) (q : Query) : Prop :=
  ∃ snapshot calendar since till, readOperatingPolicySnapshot q.json = some snapshot ∧
    snapshot.document.serviceCalendar = some calendar ∧ q.start = some since ∧
    q.stop = some till ∧ since < till ∧ till - since ≤ maxInterval ∧
    OperatingPolicy.Misread sofia calendar since till

/-- **The answer of a reader is right**: that of the plain reader, or that the budget is
spent. -/
def Agrees (sofia : SofiaClock) (q : Query) (answer : Duration) : Prop :=
  answer = .calculationLimit ∨ answer = .of (plainly sofia q)

/-- The policy that a query finds is that of its value. -/
theorem entry_spec {sofia : SofiaClock} {s : ReaderState} (hs : Sound sofia s)
    (value : Option PlainValue) :
    (s.entry value).snapshot = readOperatingPolicySnapshot (value.map Subtype.val) ∧
      ∀ snapshot, (s.entry value).snapshot = some snapshot →
        DaysRight sofia snapshot (s.entry value).days := by
  unfold ReaderState.entry
  cases hlookup : s.policies.lookup (keyOf value) with
  | some entry => exact hs value entry hlookup
  | none =>
    refine ⟨rfl, fun snapshot _ cursor result h => ?_⟩
    rw [Option.getD_none, AList.lookup_empty] at h
    cases h

/-- Keeping what is right of a value keeps everything right. -/
theorem sound_insert {sofia : SofiaClock} {s : ReaderState} (hs : Sound sofia s)
    {value : Option PlainValue} (entry : PolicyEntry)
    (hentry : entry.snapshot = readOperatingPolicySnapshot (value.map Subtype.val) ∧
      ∀ snapshot, entry.snapshot = some snapshot → DaysRight sofia snapshot entry.days)
    (slices : ℕ) : Sound sofia ⟨s.policies.insert (keyOf value) entry, slices⟩ := by
  intro value' entry' h
  by_cases hkey : value' = value
  · rw [hkey, AList.lookup_insert] at h
    rw [← Option.some.inj h, hkey]
    exact hentry
  · rw [AList.lookup_insert_ne (fun heq => hkey (keyOf_injective heq))] at h
    exact hs value' entry' h

/-- A query keeps what the reader knows right. -/
theorem sound_read {sofia : SofiaClock} (limit : Option ℚ) {s : ReaderState} (hs : Sound sofia s)
    (q : Query) : Sound sofia (read sofia limit s q).1 := by
  have hentry := entry_spec hs q.value
  unfold read
  dsimp only
  split
  · exact sound_insert hs _ hentry _
  · next snapshot hsnapshot =>
    have hdays := daysRight_readInterval limit q.start q.stop ⟨_, s.slices⟩
      (hentry.2 snapshot hsnapshot)
    refine sound_insert hs ⟨(s.entry q.value).snapshot, (readInterval sofia limit snapshot
      q.start q.stop ⟨(s.entry q.value).days, s.slices⟩).1.days⟩ ⟨hentry.1, fun other h => ?_⟩ _
    obtain rfl := Option.some.inj (hsnapshot.symm.trans h)
    exact hdays

/-- **One query** is answered right exactly when it is not misread. -/
theorem agrees_read_iff {sofia : SofiaClock} (limit : Option ℚ) {s : ReaderState}
    (hs : Sound sofia s) {q : Query} (horder : q.InOrder sofia) :
    Agrees sofia q (read sofia limit s q).2 ↔ ¬q.Misread sofia := by
  obtain ⟨hsnapshot, hdays⟩ := entry_spec hs q.value
  unfold read
  dsimp only
  cases hentry : (s.entry q.value).snapshot with
  | none =>
    have hnone : readOperatingPolicySnapshot q.json = none := hsnapshot.symm.trans hentry
    refine iff_of_true (.inr ?_) ?_
    · rw [plainly, staffedDuration, hnone]
    · rintro ⟨snapshot, -, -, -, h, -⟩
      exact absurd (hnone.symm.trans h) (by simp)
  | some snapshot =>
    have hvalue : readOperatingPolicySnapshot q.json = some snapshot := hsnapshot.symm.trans hentry
    have hplain : ∀ start stop, staffedDuration sofia (some snapshot.toJson) start stop
        = staffedDuration sofia q.json start stop := staffedDuration_toJson hvalue
    show (readInterval sofia limit snapshot q.start q.stop _).2 = _ ∨
      (readInterval sofia limit snapshot q.start q.stop _).2 = _ ↔ _
    rw [plainly, ← hplain]
    by_cases hproper : ∃ since till, q.start = some since ∧ q.stop = some till ∧ since < till ∧
        till - since ≤ maxInterval
    · obtain ⟨since, till, hstart, hstop, hlt, hshort⟩ := hproper
      rw [hstart, hstop]
      cases hcalendar : snapshot.document.serviceCalendar with
      | none =>
        have hnone := fun start stop =>
          (hplain start stop).trans (staffedDuration_of_none hvalue hcalendar start stop)
        rw [hnone]
        refine iff_of_true (.inr (readInterval_of_none limit _ hnone)) ?_
        rintro ⟨snapshot', calendar, -, -, h, hsome, -⟩
        obtain rfl := Option.some.inj (hvalue.symm.trans h)
        exact absurd (hcalendar.symm.trans hsome) (by simp)
      | some calendar =>
        have hread := fun x y => (hplain (some x) (some y)).trans
          (staffedDuration_eq hvalue hcalendar x y)
        rw [readInterval_spec hlt hshort hread (horder since till hstart hstop hlt hshort) limit
          (hdays snapshot hentry)]
        refine not_congr ⟨fun h => ?_, ?_⟩
        · exact ⟨snapshot, calendar, since, till, hvalue, hcalendar, hstart, hstop, hlt, hshort, h⟩
        · rintro ⟨snapshot', calendar', since', till', h, hsome, hstart', hstop', -, -, hmisread⟩
          obtain rfl := Option.some.inj (hvalue.symm.trans h)
          obtain rfl := Option.some.inj (hcalendar.symm.trans hsome)
          obtain rfl := Option.some.inj (hstart.symm.trans hstart')
          obtain rfl := Option.some.inj (hstop.symm.trans hstop')
          exact hmisread
    · refine iff_of_true (.inr (readInterval_improper limit _ fun since till hstart hstop => ?_)) ?_
      · by_contra hnot
        rw [not_or, not_le, not_lt] at hnot
        exact hproper ⟨since, till, hstart, hstop, hnot.1, hnot.2⟩
      · rintro ⟨-, -, since, till, -, -, hstart, hstop, hlt, hshort, -⟩
        exact hproper ⟨since, till, hstart, hstop, hlt, hshort⟩

/-- **The reader of a report refines the plain one.** In every sequence of queries – of any
snapshots and dates, in any order, repeated or overlapping – and under any budget, each
answer to a query whose dates are in order is the plain one, or that the budget is spent,
exactly when the query is not misread. -/
theorem reader_agrees_iff (sofia : SofiaClock) (limit : Option ℚ) (queries : List Query) :
    ∀ m ∈ Runs.history (read sofia limit) .initial queries, m.event.InOrder sofia →
      (Agrees sofia m.event m.output ↔ ¬m.event.Misread sofia) := by
  have hinitial : Sound sofia .initial := fun value entry h => by
    rw [ReaderState.initial, AList.lookup_empty] at h
    cases h
  exact Runs.history_forall (E := fun _ => True) (P := Sound sofia) (fun s q _ hs => sound_read limit hs q)
    (fun s q _ hs horder => agrees_read_iff limit hs horder) (fun _ _ => trivial) hinitial

/-! ## A sample -/

/-- A calendar of 2025, staffed from nine to five but for Saturdays; of Sundays nothing is
known. -/
def sampleSundaysJson : JsonValue :=
  .obj [("kind", .str "reviewed_calendar_v1"), ("timezone", .str "Europe/Sofia"),
    ("validFrom", .str "2025-01-01"), ("validUntil", .str "2025-12-31"),
    ("weekly", .obj [("mon", sampleWindows), ("tue", sampleWindows), ("wed", sampleWindows),
      ("thu", sampleWindows), ("fri", sampleWindows), ("sat", .arr []), ("sun", .null)]),
    ("exceptions", .arr []), ("sourceReference", .str "Synthetic calendar")]

/-- A snapshot with that calendar and nothing else. -/
def sampleSnapshotJson : JsonValue :=
  .obj [("kind", .str "approved_operating_policy_v1"),
    ("policyId", .str "00000000-0000-4000-8000-000000000099"), ("policyVersion", .num 1),
    ("contentHash", .str "aaaaaaaaaaaaaaaaaaaaaaaaaaaaaaaaaaaaaaaaaaaaaaaaaaaaaaaaaaaaaaaa"),
    ("approvedAt", .str "2025-01-01T00:00:00.000Z"),
    ("document", .obj [("kind", .str "agency_operating_policy_v1"),
      ("serviceCalendar", sampleSundaysJson), ("coverage", .null),
      ("responsibilities", .obj [("service", .null), ("privacy", .null), ("alerts", .null)]),
      ("contactPurposes", .obj [("service", .null), ("savedSearch", .null), ("marketing", .null)]),
      ("retentionReference", .null), ("vendorReference", .null), ("processReference", .null),
      ("alertReference", .null),
      ("availabilityReviewDays", .obj [("sale", .null), ("long_term_rent", .null)])])]

theorem sampleSnapshotJson_plain : JsonText.Plain sampleSnapshotJson := by
  simp only [sampleSnapshotJson, sampleSundaysJson, sampleWindows, JsonText.Plain,
    JsonText.PlainMembers, JsonText.PlainItems, and_true, true_and]
  exact JsonText.PlainNumber.decimal ⟨rfl, by decide⟩

/-- A query under that snapshot. -/
def sampleQuery (since till : ℤ) : Query :=
  ⟨some ⟨sampleSnapshotJson, sampleSnapshotJson_plain⟩, some since, some till⟩

/-- The dates of two days of December 2025 are in order. -/
theorem sampleQuery_inOrder :
    (sampleQuery 1765180800000 1765267200000).InOrder sampleClock := by
  intro since till hstart hstop _ _
  obtain rfl := Option.some.inj hstart
  obtain rfl := Option.some.inj hstop
  refine datesInOrder_of_fourDigits (fun t hst htu => ?_)
  have hin : InRange sampleClock sampleCalendar t :=
    ⟨le_trans (by decide +kernel) (wallDay_mono hst),
      le_trans (wallDay_mono htu.le) (by decide +kernel)⟩
  exact hin.fourDigits

/-- A second query is answered right, and is not misread. -/
theorem reader_agrees_iff_sample :
    Agrees sampleClock (sampleQuery 1765180800000 1765267200000)
        (read sampleClock (some 4096)
          (read sampleClock (some 4096) .initial (sampleQuery 1765180800000 1766908800000)).1
          (sampleQuery 1765180800000 1765267200000)).2 ↔
      ¬(sampleQuery 1765180800000 1765267200000).Misread sampleClock :=
  reader_agrees_iff sampleClock (some 4096)
    [sampleQuery 1765180800000 1766908800000, sampleQuery 1765180800000 1765267200000]
    (Runs.moment _ _ _) (List.mem_cons_of_mem _ List.mem_cons_self) sampleQuery_inOrder

/-- **The ends report another reason.** From a Sunday in December 2025, at half past ten, to
the second of January 2026: the plain reader says that the end is outside the calendar, the
reader of a report that a day is unknown. -/
theorem ends_report_another_reason :
    (read sampleClock (some 4096) .initial (sampleQuery 1766910600000 1767348000000)).2
        = .of (.unknown .unknownDay) ∧
      plainly sampleClock (sampleQuery 1766910600000 1767348000000)
        = .unknown .outsideReviewedCalendar ∧
      ¬Agrees sampleClock (sampleQuery 1766910600000 1767348000000)
        (read sampleClock (some 4096) .initial (sampleQuery 1766910600000 1767348000000)).2 := by
  have hread : (read sampleClock (some 4096) .initial (sampleQuery 1766910600000 1767348000000)).2
      = .of (.unknown .unknownDay) := by decide +kernel
  have hplain : plainly sampleClock (sampleQuery 1766910600000 1767348000000)
      = .unknown .outsideReviewedCalendar := by decide +kernel
  refine ⟨hread, hplain, fun h => ?_⟩
  unfold Agrees at h
  rw [hread, hplain] at h
  exact absurd h (by decide)

end OperatingPolicy
