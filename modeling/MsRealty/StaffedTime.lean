import MsRealty.Instants
import MsRealty.OperatingCalendar

/-!
# Staffed time

How long the agency was staffed between two instants, by its reviewed calendar
(`src/domain/operating-policy.ts`). The time of Sofia is read off its wall clock, which is
ahead of UTC by whole hours and changes on a whole hour; the reader walks over the UTC
hours of the interval and clips the windows of each.

The dates of the wall clock are compared with those of the calendar as texts, and the
text of a year has as many digits as the year.
-/

namespace OperatingPolicy

open DecimalText Schema

/-! ## The wall clock -/

/-- The milliseconds of an hour. -/
def hourMs : ℤ := 3600000

/-- **The wall clock of Sofia.** It is ahead of UTC by whole hours that depend on the UTC
hour. It is set back by an hour at most within a day: the date never goes back. -/
structure SofiaClock where
  /-- By how many hours it is ahead during a UTC hour, counted from 1970. -/
  offset : ℤ → ℤ
  date_mono : ∀ hour, (hour + offset hour) / 24 ≤ (hour + 1 + offset (hour + 1)) / 24

namespace SofiaClock

variable (sofia : SofiaClock)

/-- The hour on the wall, counted from 1970, in a UTC hour. -/
def wallHour (hour : ℤ) : ℤ := hour + sofia.offset hour

/-- The day on the wall, counted from 1970. -/
def wallDay (instant : ℤ) : ℤ := sofia.wallHour (instant / hourMs) / 24

/-- The date on the wall. -/
def date (instant : ℤ) : CivilDate := CivilDate.ofDays (sofia.wallDay instant)

/-- The hour of the day on the wall. -/
def hourOfDay (instant : ℤ) : ℤ := sofia.wallHour (instant / hourMs) % 24

end SofiaClock

/-- A year as the formatter writes it: its number in its era, with its own digits. -/
def yearText (year : ℤ) : List Char :=
  Nat.toDigits 10 (if 1 ≤ year then year else 1 - year).natAbs

/-- The parts that the formatter makes of an instant. -/
structure Parts where
  year : List Char
  month : List Char
  day : List Char
  hour : ℤ
  weekday : Weekday

/-- `parts`. -/
def parts (sofia : SofiaClock) (instant : ℤ) : Parts where
  year := yearText (sofia.date instant).year
  month := zeroPad 2 (sofia.date instant).month
  day := zeroPad 2 (sofia.date instant).day
  hour := sofia.hourOfDay instant
  weekday := weekdayOf (sofia.date instant)

/-- `localDate`. -/
def localDate (p : Parts) : List Char := p.year ++ ('-' :: p.month ++ '-' :: p.day)

/-! ## Durations -/

/-- The reasons for which a duration is unknown. -/
inductive UnknownReason where
  | noReviewedPolicy
  | calendarUnknown
  | outsideReviewedCalendar
  | unknownDay
  | invalidInterval
  | intervalTooLarge
  deriving DecidableEq

/-- What a calendar says of an interval: some milliseconds, or why that is unknown. -/
inductive CalendarDuration where
  | known (milliseconds : ℤ)
  | unknown (reason : UnknownReason)
  deriving DecidableEq

/-- The windows of a date: those of the exception that has its text, else those of the
weekday. -/
def windowsAt (calendar : ServiceCalendar) (p : Parts) : Option Intervals :=
  match calendar.exceptions.reverse.find? (fun e => e.date.text = localDate p) with
  | some e => e.intervals
  | none => calendar.weekly.on p.weekday

/-- What one hour of the walk adds. -/
def sliceMs (since till hour localHour : ℤ) (windows : List Interval) : ℤ :=
  (windows.map (fun w =>
    let a := hour + max 0 (w.first.ms - localHour)
    let b := hour + min hourMs (w.last.ms - localHour)
    max 0 (min till b - max since a))).sum

/-- **The walk** over some hours; a day without known windows ends it. -/
def walk (sofia : SofiaClock) (calendar : ServiceCalendar) (since till : ℤ) :
    List ℤ → ℤ → CalendarDuration
  | [], milliseconds => .known milliseconds
  | hour :: hours, milliseconds =>
    let p := parts sofia hour
    match windowsAt calendar p with
    | none => .unknown .unknownDay
    | some windows =>
      walk sofia calendar since till hours
        (milliseconds + sliceMs since till hour (p.hour * hourMs) windows.rows)

/-- The UTC hours that the walk visits: from the one the interval begins in, while they
begin before its end. -/
def hourStarts (since till : ℤ) : List ℤ :=
  let first := since / hourMs * hourMs
  (List.range ((till - first + hourMs - 1) / hourMs).toNat).map (fun i : ℕ => first + i * hourMs)

/-- The longest interval that is read: 366 days. -/
def maxInterval : ℤ := 366 * 24 * hourMs

/-- What a calendar says between two times. -/
def durationBetween (sofia : SofiaClock) (calendar : ServiceCalendar) (since till : ℤ) :
    CalendarDuration :=
  if till < since then .unknown .invalidInterval
  else if maxInterval < till - since then .unknown .intervalTooLarge
  else if localDate (parts sofia since) < calendar.validFrom.text ∨
      calendar.validUntil.text < localDate (parts sofia (max since (till - 1))) then
    .unknown .outsideReviewedCalendar
  else walk sofia calendar since till (hourStarts since till) 0

/-- **`calendarStaffedDuration`.** A date without a time is none. -/
def calendarStaffedDuration (sofia : SofiaClock) (value : Option JsonValue)
    (start stop : Option ℤ) : CalendarDuration :=
  match serviceCalendarSchema value with
  | none => .unknown .calendarUnknown
  | some calendar =>
    match start, stop with
    | some since, some till => durationBetween sofia calendar since till
    | _, _ => .unknown .invalidInterval

end OperatingPolicy
