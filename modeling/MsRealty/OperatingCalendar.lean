import MsRealty.IsoDatetime
import MsRealty.Schema

/-!
# The reviewed calendar

The service calendar of the operating policy (`src/domain/operating-policy.ts`): the
dates between which it was reviewed, the staffed windows of every weekday, and the dates
that are exceptions. No windows at all is a closed day; `null` is a day of which nothing
is known.

The schema keeps dates and times of day as texts and compares them as texts. Here they
are kept as what they name, and `text` is the text of the source.
-/

namespace OperatingPolicy

open DecimalText IsoInstant Schema

/-! ## Dates -/

/-- **A date of a calendar**, of the years that begin with 20. -/
structure Day where
  date : CivilDate
  from_2000 : 2000 ≤ date.year
  to_2099 : date.year ≤ 2099

/-- The text of a date of a calendar. -/
def Day.text (d : Day) : List Char := d.date.isoText 4

/-- `day`, of the characters of a text. -/
def readDay (text : List Char) : Option Day := do
  let (year, text) ← takeDigits 4 text
  let text ← takeChar '-' text
  let (month, text) ← takeDigits 2 text
  let text ← takeChar '-' text
  let (day, text) ← takeDigits 2 text
  if h : text = [] ∧ (2000 ≤ year ∧ year ≤ 2099) ∧ (1 ≤ month ∧ month ≤ 12) ∧ 1 ≤ day
      ∧ day ≤ daysInMonth year month then
    some
      { date := ⟨year, month, day, h.2.2.1.1, h.2.2.1.2, h.2.2.2.1, h.2.2.2.2⟩
        from_2000 := Int.ofNat_le.mpr h.2.1.1
        to_2099 := Int.ofNat_le.mpr h.2.1.2 }
  else none

def day : Reader Day := string (fun s => readDay s.toList)

/-- A date of a calendar as JSON. -/
def Day.toJson (d : Day) : JsonValue := .str (String.ofList d.text)

theorem readDay_text (d : Day) : readDay d.text = some d := by
  obtain ⟨⟨year, month, day, hmonth, hmonth', hday, hday'⟩, hfrom, hto⟩ := d
  obtain ⟨n, rfl⟩ := Int.eq_ofNat_of_zero_le (show 0 ≤ year from le_trans (by decide) hfrom)
  have hn : n < 10 ^ 4 := by
    have : ((n : ℕ) : ℤ) ≤ 2099 := hto
    omega
  have hm : month < 10 ^ 2 := lt_of_le_of_lt hmonth' (by decide)
  have hd : day < 10 ^ 2 := lt_of_le_of_lt (le_trans hday' (CivilDate.daysInMonth_le _ _)) (by decide)
  have hread := takeDigits_zeroPad (n := 2) (by decide) hd []
  rw [List.append_nil] at hread
  unfold readDay Day.text CivilDate.isoText
  simp only [Int.toNat_natCast, takeDigits_zeroPad (by decide) hn, takeChar_cons,
    List.cons_append, takeDigits_zeroPad (by decide) hm, hread, Option.bind_eq_bind,
    Option.bind_some]
  exact dif_pos ⟨trivial, ⟨Int.ofNat_le.mp hfrom, Int.ofNat_le.mp hto⟩, ⟨hmonth, hmonth'⟩, hday,
    hday'⟩

theorem stable_day : Stable day Day.toJson :=
  stable_string (fun _ d _ => by rw [String.toList_ofList]; exact readDay_text d)

/-! ## The order of dates as texts -/

/-- Numbers of the same width are in the order of their texts. -/
theorem lt_or_eq_of_zeroPad_le {w m n : ℕ} (hw : 0 < w) (hm : m < 10 ^ w) (hn : n < 10 ^ w)
    {a b : List Char} (h : zeroPad w m ++ a ≤ zeroPad w n ++ b) : m < n ∨ m = n ∧ a ≤ b := by
  have hlength : (zeroPad w m).length = (zeroPad w n).length := by
    rw [length_zeroPad hw hm, length_zeroPad hw hn]
  rcases lt_or_eq_of_append_le (fun _ hc => isDigit_of_mem_zeroPad hc)
    (fun _ hc => isDigit_of_mem_zeroPad hc) hlength h 0 with hlt | ⟨heq, hrest⟩
  · rw [ofDigitChars_zeroPad, ofDigitChars_zeroPad] at hlt
    exact .inl hlt
  · exact .inr ⟨zeroPad_injective w heq, hrest⟩

/-- A date whose year has four digits at most. -/
def ShortYear (date : CivilDate) : Prop := 0 ≤ date.year ∧ date.year ≤ 9999

theorem Day.shortYear (d : Day) : ShortYear d.date :=
  ⟨le_trans (by decide) d.from_2000, le_trans d.to_2099 (by decide)⟩

theorem days_le_of_isoText_le {c c' : CivilDate} (hc : ShortYear c) (hc' : ShortYear c')
    (h : c.isoText 4 ≤ c'.isoText 4) : c.days ≤ c'.days := by
  have hyear : ∀ d : CivilDate, ShortYear d → d.year.toNat < 10 ^ 4 := fun d hd => by
    have := hd.2
    omega
  unfold CivilDate.isoText at h
  rcases lt_or_eq_of_zeroPad_le (by decide) (hyear c hc) (hyear c' hc') h with hlt | ⟨heq, h⟩
  · exact (CivilDate.days_lt_of_year_lt (by have := hc.1; omega)).le
  · have hsame : c.year = c'.year := by
      have := hc.1
      have := hc'.1
      omega
    rw [List.cons_append, List.cons_append] at h
    rcases lt_or_eq_of_zeroPad_le (by decide) c.month_lt c'.month_lt (cons_le h) with hlt | ⟨heq, h⟩
    · exact (CivilDate.days_lt_of_month_lt hsame hlt).le
    · have h := cons_le h
      rw [← List.append_nil (zeroPad 2 c.day), ← List.append_nil (zeroPad 2 c'.day)] at h
      have hle : c.day ≤ c'.day := by
        rcases lt_or_eq_of_zeroPad_le (by decide) c.day_lt c'.day_lt h with hlt | ⟨heq, -⟩
        · exact hlt.le
        · exact heq.le
      unfold CivilDate.days
      rw [hsame, heq]
      omega

/-- **Dates of four-digit years are in the order of their texts.** -/
theorem isoText_lt_iff {c c' : CivilDate} (hc : ShortYear c) (hc' : ShortYear c') :
    c.isoText 4 < c'.isoText 4 ↔ c.days < c'.days := by
  constructor
  · intro h
    refine lt_of_le_of_ne (days_le_of_isoText_le hc hc' h.le) (fun heq => ?_)
    rw [CivilDate.days_injective heq] at h
    exact lt_irrefl _ h
  · intro h
    refine lt_of_not_ge (fun hle => ?_)
    exact absurd (days_le_of_isoText_le hc' hc hle) (not_le.mpr h)

/-! ## Times of day -/

/-- **A time of day**, up to 24:00. -/
structure Clock where
  hour : ℕ
  minute : ℕ
  valid : hour ≤ 23 ∧ minute ≤ 59 ∨ hour = 24 ∧ minute = 0

/-- The text of a time of day. -/
def Clock.text (c : Clock) : List Char := zeroPad 2 c.hour ++ ':' :: zeroPad 2 c.minute

/-- `clockMs`: the milliseconds since the beginning of the day. -/
def Clock.ms (c : Clock) : ℤ := c.hour * 3600000 + c.minute * 60000

/-- `clock` and `endClock`, of the characters of a text: only an end may be 24:00. -/
def readClock (atEnd : Bool) (text : List Char) : Option Clock := do
  let (hour, text) ← takeDigits 2 text
  let text ← takeChar ':' text
  let (minute, text) ← takeDigits 2 text
  if h : text = [] ∧ (hour ≤ 23 ∧ minute ≤ 59 ∨ hour = 24 ∧ minute = 0) then
    if hour = 24 ∧ atEnd = false then none else some ⟨hour, minute, h.2⟩
  else none

def clock : Reader Clock := string (fun s => readClock false s.toList)

def endClock : Reader Clock := string (fun s => readClock true s.toList)

/-- A time of day as JSON. -/
def Clock.toJson (c : Clock) : JsonValue := .str (String.ofList c.text)

theorem readClock_text {atEnd : Bool} (c : Clock) (h : ¬(c.hour = 24 ∧ atEnd = false)) :
    readClock atEnd c.text = some c := by
  obtain ⟨hour, minute, hvalid⟩ := c
  have hh : hour < 10 ^ 2 := by omega
  have hm : minute < 10 ^ 2 := by omega
  have hread := takeDigits_zeroPad (n := 2) (by decide) hm []
  rw [List.append_nil] at hread
  unfold readClock Clock.text
  simp only [takeDigits_zeroPad (by decide) hh, takeChar_cons, hread, Option.bind_eq_bind,
    Option.bind_some, if_neg h]
  exact dif_pos ⟨trivial, hvalid⟩

theorem hour_of_readClock {atEnd : Bool} {text : List Char} {c : Clock}
    (h : readClock atEnd text = some c) : ¬(c.hour = 24 ∧ atEnd = false) := by
  unfold readClock at h
  obtain ⟨⟨hour, text⟩, -, h⟩ := Option.bind_eq_some_iff.mp h
  obtain ⟨text, -, h⟩ := Option.bind_eq_some_iff.mp h
  obtain ⟨⟨minute, text⟩, -, h⟩ := Option.bind_eq_some_iff.mp h
  dsimp only at h
  split at h
  · split at h
    · cases h
    · next hnot =>
      obtain rfl := Option.some.inj h
      exact hnot
  · cases h

theorem stable_clock : Stable clock Clock.toJson :=
  stable_string (fun _ c h => by
    rw [String.toList_ofList]
    exact readClock_text c (hour_of_readClock h))

theorem stable_endClock : Stable endClock Clock.toJson :=
  stable_string (fun _ c _ => by
    rw [String.toList_ofList]
    exact readClock_text c (fun h => Bool.noConfusion h.2))

/-- **Times of day are in the order of their texts.** -/
theorem Clock.ms_le_of_text_le {c c' : Clock} (h : c.text ≤ c'.text) : c.ms ≤ c'.ms := by
  have hhour : ∀ d : Clock, d.hour < 10 ^ 2 := fun d => by have := d.valid; omega
  have hminute : ∀ d : Clock, d.minute < 10 ^ 2 := fun d => by have := d.valid; omega
  have hvalid := c.valid
  unfold Clock.text at h
  unfold Clock.ms
  rcases lt_or_eq_of_zeroPad_le (by decide) (hhour c) (hhour c') h with hlt | ⟨heq, h⟩
  · omega
  · have h := cons_le h
    rw [← List.append_nil (zeroPad 2 c.minute), ← List.append_nil (zeroPad 2 c'.minute)] at h
    rcases lt_or_eq_of_zeroPad_le (by decide) (hminute c) (hminute c') h with hlt | ⟨heq', -⟩
    · omega
    · omega

/-! ## Windows -/

/-- **A staffed window**, half open. -/
structure Interval where
  first : Clock
  last : Clock
  lt : first.text < last.text

def interval : Reader Interval
  | some (.arr [first, last]) => do
    let first ← clock (some first)
    let last ← endClock (some last)
    if h : first.text < last.text then some ⟨first, last, h⟩ else none
  | _ => none

/-- A window as JSON. -/
def Interval.toJson (i : Interval) : JsonValue := .arr [i.first.toJson, i.last.toJson]

theorem stable_interval : Stable interval Interval.toJson := by
  intro value i h
  unfold interval at h
  split at h
  · obtain ⟨first, hfirst, h⟩ := Option.bind_eq_some_iff.mp h
    obtain ⟨last, hlast, h⟩ := Option.bind_eq_some_iff.mp h
    split at h
    · next hlt =>
      obtain rfl := Option.some.inj h
      show (do
        let first ← clock (some first.toJson)
        let last ← endClock (some last.toJson)
        if h : first.text < last.text then some (Interval.mk first last h) else none) = _
      rw [stable_clock _ _ hfirst, stable_endClock _ _ hlast]
      exact dif_pos hlt
    · cases h
  · cases h

/-- **The windows of a day**: at most eight, none beginning before the one before it
ends. -/
structure Intervals where
  rows : List Interval
  count : rows.length ≤ 8
  ordered : rows.IsChain (fun a b => a.last.text ≤ b.first.text)

def intervals : Reader Intervals :=
  refined (array interval) (fun rows =>
    if h : rows.length ≤ 8 ∧ rows.IsChain (fun a b => a.last.text ≤ b.first.text) then
      some ⟨rows, h.1, h.2⟩
    else none)

/-- The windows of a day as JSON. -/
def Intervals.toJson (i : Intervals) : JsonValue := writeArray Interval.toJson i.rows

theorem stable_intervals : Stable intervals Intervals.toJson :=
  (stable_interval.array).refined Intervals.rows (fun rows i h => by
    split at h
    · exact congrArg Intervals.rows (Option.some.inj h).symm
    · cases h)

/-- A day of the week. -/
inductive Weekday where
  | mon
  | tue
  | wed
  | thu
  | fri
  | sat
  | sun

/-- The day of the week of a date. -/
def weekdayOf (date : CivilDate) : Weekday :=
  match date.weekday with
  | 0 => .mon
  | 1 => .tue
  | 2 => .wed
  | 3 => .thu
  | 4 => .fri
  | 5 => .sat
  | _ => .sun

/-- The windows of the days of a week; `none` is unknown. -/
structure Weekly where
  mon : Option Intervals
  tue : Option Intervals
  wed : Option Intervals
  thu : Option Intervals
  fri : Option Intervals
  sat : Option Intervals
  sun : Option Intervals

/-- The windows of a day of the week. -/
def Weekly.on (weekly : Weekly) : Weekday → Option Intervals
  | .mon => weekly.mon
  | .tue => weekly.tue
  | .wed => weekly.wed
  | .thu => weekly.thu
  | .fri => weekly.fri
  | .sat => weekly.sat
  | .sun => weekly.sun

/-- A member of an object. -/
def member (key : String) (value : Option JsonValue) : Option JsonValue :=
  Inventory.field key value

/-- The windows of a day, or `null`. -/
def openings : Reader (Option Intervals) := nullable intervals

def weekly : Reader Weekly := fun value => do
  let mon ← openings (member "mon" value)
  let tue ← openings (member "tue" value)
  let wed ← openings (member "wed" value)
  let thu ← openings (member "thu" value)
  let fri ← openings (member "fri" value)
  let sat ← openings (member "sat" value)
  let sun ← openings (member "sun" value)
  some ⟨mon, tue, wed, thu, fri, sat, sun⟩

/-- The windows of a day, or none that are known, as JSON. -/
def writeOpenings : Option Intervals → JsonValue := writeNullable Intervals.toJson

theorem stable_openings : Stable openings writeOpenings :=
  stable_intervals.nullable (fun _ h => JsonValue.noConfusion h)

/-- The windows of a week as JSON. -/
def Weekly.toJson (w : Weekly) : JsonValue :=
  .obj [("mon", writeOpenings w.mon), ("tue", writeOpenings w.tue), ("wed", writeOpenings w.wed),
    ("thu", writeOpenings w.thu), ("fri", writeOpenings w.fri), ("sat", writeOpenings w.sat),
    ("sun", writeOpenings w.sun)]

theorem stable_weekly : Stable weekly Weekly.toJson := by
  intro value w h
  unfold weekly at h
  obtain ⟨mon, hmon, h⟩ := Option.bind_eq_some_iff.mp h
  obtain ⟨tue, htue, h⟩ := Option.bind_eq_some_iff.mp h
  obtain ⟨wed, hwed, h⟩ := Option.bind_eq_some_iff.mp h
  obtain ⟨thu, hthu, h⟩ := Option.bind_eq_some_iff.mp h
  obtain ⟨fri, hfri, h⟩ := Option.bind_eq_some_iff.mp h
  obtain ⟨sat, hsat, h⟩ := Option.bind_eq_some_iff.mp h
  obtain ⟨sun, hsun, h⟩ := Option.bind_eq_some_iff.mp h
  obtain rfl := Option.some.inj h
  show (do
    let mon ← openings (some (writeOpenings mon))
    let tue ← openings (some (writeOpenings tue))
    let wed ← openings (some (writeOpenings wed))
    let thu ← openings (some (writeOpenings thu))
    let fri ← openings (some (writeOpenings fri))
    let sat ← openings (some (writeOpenings sat))
    let sun ← openings (some (writeOpenings sun))
    some (Weekly.mk mon tue wed thu fri sat sun)) = _
  rw [stable_openings _ _ hmon, stable_openings _ _ htue, stable_openings _ _ hwed,
    stable_openings _ _ hthu, stable_openings _ _ hfri, stable_openings _ _ hsat,
    stable_openings _ _ hsun]
  rfl

/-! ## The calendar -/

/-- A date that is an exception: its windows, or that they are unknown. -/
structure CalendarException where
  date : Day
  intervals : Option Intervals
  reason : String

/-- One of `exceptions`. -/
def calendarException : Reader CalendarException := fun value => do
  let date ← day (member "date" value)
  let intervals ← openings (member "intervals" value)
  let reason ← Inventory.trimmed 3 300 (member "reason" value)
  some ⟨date, intervals, reason⟩

/-- An exception as JSON. -/
def CalendarException.toJson (e : CalendarException) : JsonValue :=
  .obj [("date", e.date.toJson), ("intervals", writeOpenings e.intervals), ("reason", .str e.reason)]

theorem stable_calendarException : Stable calendarException CalendarException.toJson := by
  intro value e h
  unfold calendarException at h
  obtain ⟨date, hdate, h⟩ := Option.bind_eq_some_iff.mp h
  obtain ⟨windows, hwindows, h⟩ := Option.bind_eq_some_iff.mp h
  obtain ⟨reason, hreason, h⟩ := Option.bind_eq_some_iff.mp h
  obtain rfl := Option.some.inj h
  show (do
    let date ← day (some date.toJson)
    let intervals ← openings (some (writeOpenings windows))
    let reason ← Inventory.trimmed 3 300 (some (.str reason))
    some (CalendarException.mk date intervals reason)) = _
  rw [stable_day _ _ hdate, stable_openings _ _ hwindows, stable_trimmed _ _ _ _ hreason]
  rfl

/-- The exceptions of a calendar have dates of their own, within its bounds. -/
def ExceptionsWithin (validFrom validUntil : Day) (exceptions : List CalendarException) : Prop :=
  (exceptions.map (fun e => e.date.text)).Nodup ∧
    ∀ e ∈ exceptions, ¬e.date.text < validFrom.text ∧ ¬validUntil.text < e.date.text

instance (validFrom validUntil : Day) (exceptions : List CalendarException) :
    Decidable (ExceptionsWithin validFrom validUntil exceptions) :=
  inferInstanceAs (Decidable (_ ∧ _))

/-- **The reviewed calendar.** -/
structure ServiceCalendar where
  validFrom : Day
  validUntil : Day
  weekly : Weekly
  exceptions : List CalendarException
  sourceReference : String
  bounds : ¬validUntil.text < validFrom.text
  count : exceptions.length ≤ 400
  within : ExceptionsWithin validFrom validUntil exceptions

/-- **`serviceCalendarSchema`.** -/
def serviceCalendarSchema : Reader ServiceCalendar := fun value => do
  let _ ← literal "reviewed_calendar_v1" (member "kind" value)
  let _ ← literal "Europe/Sofia" (member "timezone" value)
  let validFrom ← day (member "validFrom" value)
  let validUntil ← day (member "validUntil" value)
  let week ← weekly (member "weekly" value)
  let exceptions ← array calendarException (member "exceptions" value)
  let sourceReference ← Inventory.trimmed 3 1500 (member "sourceReference" value)
  if h : ¬validUntil.text < validFrom.text ∧ exceptions.length ≤ 400 ∧
      ExceptionsWithin validFrom validUntil exceptions then
    some ⟨validFrom, validUntil, week, exceptions, sourceReference, h.1, h.2.1, h.2.2⟩
  else none

/-- A calendar as JSON. -/
def ServiceCalendar.toJson (c : ServiceCalendar) : JsonValue :=
  .obj [("kind", .str "reviewed_calendar_v1"), ("timezone", .str "Europe/Sofia"),
    ("validFrom", c.validFrom.toJson), ("validUntil", c.validUntil.toJson),
    ("weekly", c.weekly.toJson),
    ("exceptions", writeArray CalendarException.toJson c.exceptions),
    ("sourceReference", .str c.sourceReference)]

/-- **A calendar is read back.** -/
theorem stable_serviceCalendarSchema : Stable serviceCalendarSchema ServiceCalendar.toJson := by
  intro value c h
  unfold serviceCalendarSchema at h
  obtain ⟨_, -, h⟩ := Option.bind_eq_some_iff.mp h
  obtain ⟨_, -, h⟩ := Option.bind_eq_some_iff.mp h
  obtain ⟨validFrom, hfrom, h⟩ := Option.bind_eq_some_iff.mp h
  obtain ⟨validUntil, huntil, h⟩ := Option.bind_eq_some_iff.mp h
  obtain ⟨week, hweek, h⟩ := Option.bind_eq_some_iff.mp h
  obtain ⟨exceptions, hexceptions, h⟩ := Option.bind_eq_some_iff.mp h
  obtain ⟨reference, hreference, h⟩ := Option.bind_eq_some_iff.mp h
  split at h
  · next hvalid =>
    obtain rfl := Option.some.inj h
    show (do
      let _ ← literal "reviewed_calendar_v1" (some (.str "reviewed_calendar_v1"))
      let _ ← literal "Europe/Sofia" (some (.str "Europe/Sofia"))
      let validFrom ← day (some validFrom.toJson)
      let validUntil ← day (some validUntil.toJson)
      let week ← weekly (some week.toJson)
      let exceptions ← array calendarException
        (some (writeArray CalendarException.toJson exceptions))
      let sourceReference ← Inventory.trimmed 3 1500 (some (.str reference))
      if h : ¬validUntil.text < validFrom.text ∧ exceptions.length ≤ 400 ∧
          ExceptionsWithin validFrom validUntil exceptions then
        some (ServiceCalendar.mk validFrom validUntil week exceptions sourceReference h.1 h.2.1
          h.2.2)
      else none) = _
    rw [literal_str, literal_str, stable_day _ _ hfrom, stable_day _ _ huntil,
      stable_weekly _ _ hweek, stable_calendarException.array _ _ hexceptions,
      stable_trimmed _ _ _ _ hreference]
    exact dif_pos hvalid
  · cases h

end OperatingPolicy
