import Mathlib.Data.List.Sort
import MsRealty.IsoInstant

/-!
# The wall clock of a time zone

A zone adds an offset to an instant; the sum is the *reading* of its clock,
counted like an instant. What a program gets to see of it are the fields the
clock shows, whole seconds and a year without its era, and it puts them
together again with `Date.UTC`, which takes a year of two digits as one of the
twentieth century (`wallClockAsUtc`).

So the clock is read back truly from the year 100 on
(`wallClockAsUtc_of_plain`), and an earlier reading is never taken for itself.
The instants at which the clock shows a time are looked for with the offsets
a day before and a day after it (`candidates`, `mem_candidates`).
-/

namespace WallClock

open IsoInstant

/-! ## Fields -/

/-- **The fields of a date and a time of day**, as a clock shows them or a text gives them. -/
structure Fields where
  year : ℤ
  month : ℤ
  day : ℤ
  hour : ℤ
  minute : ℤ
  second : ℤ

/-- The milliseconds since 1970 of some fields; months beyond the year run on. -/
def Fields.time (f : Fields) : ℤ :=
  let year := f.year + (f.month - 1) / 12
  let month := ((f.month - 1) % 12).toNat + 1
  (dayFromYear year + daysBeforeMonth year month + (f.day - 1)) * msPerDay
    + (f.hour * 3600000 + f.minute * 60000 + f.second * 1000)

/-- **`Date.UTC`**: a year of two digits is one of the twentieth century. -/
def dateUTC (f : Fields) : ℤ :=
  if 0 ≤ f.year ∧ f.year ≤ 99 then { f with year := 1900 + f.year }.time else f.time

/-- The fields of a reading. -/
def fieldsOf (reading : ℤ) : Fields :=
  let date := CivilDate.ofDays (reading / msPerDay)
  let ms := reading % msPerDay
  ⟨date.year, date.month, date.day, ms / 3600000, ms / 60000 % 60, ms / 1000 % 60⟩

/-- The first instant of a year. -/
def startOfYear (year : ℤ) : ℤ := dayFromYear year * msPerDay

theorem startOfYear_mono {y z : ℤ} (h : y ≤ z) : startOfYear y ≤ startOfYear z :=
  Int.mul_le_mul_of_nonneg_right (dayFromYear_mono h) (by decide)

/-- **The year of a reading.** -/
theorem le_year_fieldsOf {y reading : ℤ} :
    y ≤ (fieldsOf reading).year ↔ startOfYear y ≤ reading := by
  have hle := CivilDate.dayFromYear_yearOfDay_le (reading / msPerDay)
  have hlt := CivilDate.lt_dayFromYear_yearOfDay_succ (reading / msPerDay)
  have hiff : startOfYear y ≤ reading ↔ dayFromYear y ≤ reading / msPerDay :=
    (Int.le_ediv_iff_mul_le (by decide)).symm
  rw [hiff]
  show y ≤ CivilDate.yearOfDay (reading / msPerDay) ↔ _
  refine ⟨fun h => (dayFromYear_mono h).trans hle, fun h => ?_⟩
  by_contra hlater
  have hmono := dayFromYear_mono (show CivilDate.yearOfDay (reading / msPerDay) + 1 ≤ y by omega)
  omega

/-- Fields within their bounds are not before their year. -/
theorem startOfYear_le_time {f : Fields} (hmonth : 1 ≤ f.month) (hmonth' : f.month ≤ 12)
    (hday : 1 ≤ f.day) (hhour : 0 ≤ f.hour) (hminute : 0 ≤ f.minute) (hsecond : 0 ≤ f.second) :
    startOfYear f.year ≤ f.time := by
  have hyear : f.year + (f.month - 1) / 12 = f.year := by omega
  unfold Fields.time startOfYear
  dsimp only
  rw [hyear]
  unfold msPerDay
  generalize dayFromYear f.year = a
  generalize (daysBeforeMonth f.year (((f.month - 1) % 12).toNat + 1)) = b
  omega

/-- The fields of a reading are within their bounds. -/
theorem fieldsOf_bounds (reading : ℤ) :
    1 ≤ (fieldsOf reading).month ∧ (fieldsOf reading).month ≤ 12 ∧ 1 ≤ (fieldsOf reading).day ∧
      0 ≤ (fieldsOf reading).hour ∧ 0 ≤ (fieldsOf reading).minute ∧
      0 ≤ (fieldsOf reading).second := by
  have hmonth := (CivilDate.ofDays (reading / msPerDay)).month_pos
  have hmonth' := (CivilDate.ofDays (reading / msPerDay)).month_le
  have hday := (CivilDate.ofDays (reading / msPerDay)).day_pos
  unfold fieldsOf msPerDay at *
  dsimp only
  refine ⟨?_, ?_, ?_, ?_, ?_, ?_⟩ <;> omega

/-- **The fields give the reading back**, to the second. -/
theorem time_fieldsOf (reading : ℤ) : (fieldsOf reading).time = reading - reading % 1000 := by
  have hdays := CivilDate.days_ofDays (reading / msPerDay)
  have hpos := (CivilDate.ofDays (reading / msPerDay)).month_pos
  have hle := (CivilDate.ofDays (reading / msPerDay)).month_le
  unfold CivilDate.days at hdays
  unfold Fields.time fieldsOf
  dsimp only
  generalize CivilDate.ofDays (reading / msPerDay) = date at *
  have hyear : date.year + ((date.month : ℤ) - 1) / 12 = date.year := by omega
  have hmonth : (((date.month : ℤ) - 1) % 12).toNat + 1 = date.month := by omega
  rw [hyear, hmonth, hdays]
  unfold msPerDay
  omega

/-! ## A zone -/

/-- **A time zone**: the offset of its clock at each instant, of whole seconds and less than a
day. -/
structure TimeZone where
  offset : ℤ → ℤ
  whole_seconds : ∀ t, offset t % 1000 = 0
  lower : ∀ t, -msPerDay < offset t
  upper : ∀ t, offset t < msPerDay

variable (zone : TimeZone)

/-- What the clock of a zone reads at an instant. -/
def TimeZone.reading (t : ℤ) : ℤ := t + zone.offset t

/-- The fields the clock shows, a year before the first without its era. -/
def shownFields (t : ℤ) : Fields :=
  let f := fieldsOf (zone.reading t)
  { f with year := if f.year ≤ 0 then 1 - f.year else f.year }

/-- **`wallClockAsUtc`**: the shown fields, as the time they would be in UTC. -/
def wallClockAsUtc (t : ℤ) : ℤ := dateUTC (shownFields zone t)

/-- The first reading whose year `Date.UTC` takes as it is. -/
def firstPlain : ℤ := startOfYear 100

variable {zone}

/-- **From the year 100 on the clock is read back**, to the second. -/
theorem wallClockAsUtc_of_plain {t : ℤ} (h : firstPlain ≤ zone.reading t) :
    wallClockAsUtc zone t = zone.reading t - zone.reading t % 1000 := by
  have hyear := le_year_fieldsOf.mpr h
  have hshown : shownFields zone t = fieldsOf (zone.reading t) := by
    unfold shownFields
    dsimp only
    rw [if_neg (by omega)]
  rw [wallClockAsUtc, hshown, dateUTC, if_neg (by omega), time_fieldsOf]

/-- What the shown year leaves of the fields is within bounds. -/
theorem startOfYear_le_wallClockAsUtc {y t : ℤ} (hy : y ≤ (shownFields zone t).year) :
    startOfYear y ≤ wallClockAsUtc zone t := by
  obtain ⟨hmonth, hmonth', hday, hhour, hminute, hsecond⟩ := fieldsOf_bounds (zone.reading t)
  unfold wallClockAsUtc dateUTC
  split_ifs with hshort
  · refine (startOfYear_mono ?_).trans
      (startOfYear_le_time hmonth hmonth' hday hhour hminute hsecond)
    show y ≤ 1900 + (shownFields zone t).year
    omega
  · exact (startOfYear_mono hy).trans
      (startOfYear_le_time hmonth hmonth' hday hhour hminute hsecond)

theorem dateUTC_fieldsOf {w : ℤ} (hplain : firstPlain ≤ w) (hwhole : w % 1000 = 0) :
    dateUTC (fieldsOf w) = w := by
  have hyear := le_year_fieldsOf.mpr hplain
  rw [dateUTC, if_neg (by omega), time_fieldsOf, hwhole, sub_zero]

/-- An earlier one is taken for one of the twentieth century. -/
theorem startOfYear_le_dateUTC {w : ℤ} (hfirst : startOfYear 0 ≤ w) (hshort : w < firstPlain) :
    startOfYear 1900 ≤ dateUTC (fieldsOf w) := by
  obtain ⟨hmonth, hmonth', hday, hhour, hminute, hsecond⟩ := fieldsOf_bounds w
  have hpos := le_year_fieldsOf.mpr hfirst
  have hyear : ¬ 100 ≤ (fieldsOf w).year := fun hlong =>
    absurd (le_year_fieldsOf.mp hlong) (not_le.mpr hshort)
  rw [dateUTC, if_pos ⟨by omega, by omega⟩]
  refine (startOfYear_mono ?_).trans
    (startOfYear_le_time hmonth hmonth' hday hhour hminute hsecond)
  show (1900 : ℤ) ≤ 1900 + (fieldsOf w).year
  omega

/-- And that is not after the century. -/
theorem dateUTC_lt {w : ℤ} (hfirst : startOfYear 0 ≤ w) (hshort : w < firstPlain) :
    dateUTC (fieldsOf w) < startOfYear 2001 := by
  obtain ⟨hmonth, hmonth', hday, -, -, -⟩ := fieldsOf_bounds w
  have hpos := le_year_fieldsOf.mpr hfirst
  have hyear : ¬ 100 ≤ (fieldsOf w).year := fun hlong =>
    absurd (le_year_fieldsOf.mp hlong) (not_le.mpr hshort)
  have hdate := CivilDate.daysInMonth_le (CivilDate.ofDays (w / msPerDay)).year
    (CivilDate.ofDays (w / msPerDay)).month
  have hday' : (fieldsOf w).day ≤ 31 :=
    Int.ofNat_le.mpr ((CivilDate.ofDays (w / msPerDay)).day_le.trans hdate)
  have htime : (fieldsOf w).hour ≤ 23 ∧ (fieldsOf w).minute ≤ 59 ∧ (fieldsOf w).second ≤ 59 := by
    unfold fieldsOf msPerDay
    dsimp only
    omega
  have hbefore := daysBeforeMonth_mono (1900 + (fieldsOf w).year)
    (show (((fieldsOf w).month - 1) % 12).toNat + 1 ≤ 13 by omega)
  have hlength := dayFromYear_succ (1900 + (fieldsOf w).year)
  have hlate := dayFromYear_mono (show 1900 + (fieldsOf w).year + 1 ≤ 2000 by omega)
  have hcentury : dayFromYear 2000 + 32 ≤ dayFromYear 2001 := by decide
  rw [dateUTC, if_pos ⟨by omega, by omega⟩]
  unfold Fields.time startOfYear
  dsimp only
  rw [show 1900 + (fieldsOf w).year + ((fieldsOf w).month - 1) / 12 = 1900 + (fieldsOf w).year
    by omega]
  unfold msPerDay
  omega

theorem time_whole_seconds (f : Fields) : f.time % 1000 = 0 := by
  unfold Fields.time msPerDay
  dsimp only
  omega

theorem dateUTC_whole (f : Fields) : dateUTC f % 1000 = 0 := by
  unfold dateUTC
  split_ifs
  · exact time_whole_seconds _
  · exact time_whole_seconds _

/-- An instant long before our era is read back as long after its beginning. -/
theorem startOfYear_le_of_ancient {y t : ℤ} (hy : 1 ≤ y) (h : zone.reading t < startOfYear (-y)) :
    startOfYear y ≤ wallClockAsUtc zone t := by
  refine startOfYear_le_wallClockAsUtc ?_
  have hyear : (fieldsOf (zone.reading t)).year < -y := by
    by_contra hlate
    exact absurd (le_year_fieldsOf.mp (not_lt.mp hlate)) (not_le.mpr h)
  unfold shownFields
  dsimp only
  rw [if_pos (by omega)]
  omega

/-- A year of two digits is read back as one of the twentieth century. -/
theorem startOfYear_le_of_short {t : ℤ} (hfirst : startOfYear 1 ≤ zone.reading t)
    (hshort : zone.reading t < firstPlain) : startOfYear 1901 ≤ wallClockAsUtc zone t := by
  obtain ⟨hmonth, hmonth', hday, hhour, hminute, hsecond⟩ := fieldsOf_bounds (zone.reading t)
  have hpos := le_year_fieldsOf.mpr hfirst
  have hyear : ¬ 100 ≤ (fieldsOf (zone.reading t)).year := fun hlong =>
    absurd (le_year_fieldsOf.mp hlong) (not_le.mpr hshort)
  have hshown : shownFields zone t = fieldsOf (zone.reading t) := by
    unfold shownFields
    dsimp only
    rw [if_neg (by omega)]
  rw [wallClockAsUtc, hshown, dateUTC, if_pos ⟨by omega, by omega⟩]
  refine (startOfYear_mono ?_).trans
    (startOfYear_le_time hmonth hmonth' hday hhour hminute hsecond)
  show (1901 : ℤ) ≤ 1900 + (fieldsOf (zone.reading t)).year
  omega

/-! ## The instants at which a time is shown -/

section Candidates

variable (zone)

/-- **The instants that are tried**: the time less the offset a day before and less the offset
a day after it, of which those remain at which the clock is read back as the time. -/
def candidates (wall : ℤ) : List ℤ :=
  let offsets := ([wall - msPerDay, wall + msPerDay].map
    (fun t => wallClockAsUtc zone t - t)).eraseDups
  ((offsets.map (wall - ·)).filter (fun t => wallClockAsUtc zone t = wall)).insertionSort (· ≤ ·)

/-- **An offset that is tried**: the one a day after the time, or the one a day before it,
when the clock then shows a year that is read back. -/
def Tried (wall offset : ℤ) : Prop :=
  offset = zone.offset (wall + msPerDay) ∨
    offset = zone.offset (wall - msPerDay) ∧ firstPlain ≤ zone.reading (wall - msPerDay)

variable {zone} {wall t : ℤ}

/-- A clock that reads a time is within a day of it. -/
theorem reading_near (zone : TimeZone) (t : ℤ) :
    t - msPerDay < zone.reading t ∧ zone.reading t < t + msPerDay := by
  have hlower := zone.lower t
  have hupper := zone.upper t
  unfold TimeZone.reading
  omega

/-- Near a time from the year 100 on, the clock is read back as the time when it reads it. -/
theorem wallClockAsUtc_eq_iff (hplain : firstPlain ≤ wall) (ht : t % 1000 = 0)
    (hnear : wall < zone.reading t + 2 * msPerDay) :
    wallClockAsUtc zone t = wall ↔ zone.reading t = wall := by
  by_cases hread : firstPlain ≤ zone.reading t
  · have hwhole : zone.reading t % 1000 = 0 := by
      have hseconds := zone.whole_seconds t
      unfold TimeZone.reading
      omega
    rw [wallClockAsUtc_of_plain hread, hwhole, sub_zero]
  · have hfirst : startOfYear 1 + 2 * msPerDay ≤ firstPlain := by decide
    have hlate : firstPlain + 2 * msPerDay ≤ startOfYear 1901 := by decide
    have hshort : startOfYear 1901 ≤ wallClockAsUtc zone t :=
      startOfYear_le_of_short (by omega) (not_le.mp hread)
    refine iff_of_false (fun h => ?_) (fun h => ?_)
    · omega
    · omega

/-- A time that is tried with the offset of an unreadable clock is not read back. -/
theorem not_wallClockAsUtc_of_unread (hplain : firstPlain ≤ wall)
    (hunread : zone.reading (wall - msPerDay) < firstPlain) :
    wallClockAsUtc zone (wall - (wallClockAsUtc zone (wall - msPerDay) - (wall - msPerDay)))
      ≠ wall := by
  have hnear := (reading_near zone (wall - msPerDay)).1
  have hfirst : startOfYear 1 + 2 * msPerDay ≤ firstPlain := by decide
  have hshort : startOfYear 1901 ≤ wallClockAsUtc zone (wall - msPerDay) :=
    startOfYear_le_of_short (by omega) hunread
  -- the offset is of eighteen centuries, and so the time is tried as far before our era
  have htried := (reading_near zone
    (wall - (wallClockAsUtc zone (wall - msPerDay) - (wall - msPerDay)))).2
  have hancient : 2 * firstPlain + 4 * msPerDay ≤ startOfYear 1901 + startOfYear (-1000) := by
    decide
  have hread : startOfYear 1000 ≤ wallClockAsUtc zone
      (wall - (wallClockAsUtc zone (wall - msPerDay) - (wall - msPerDay))) :=
    startOfYear_le_of_ancient (by decide) (by omega)
  have hlate : firstPlain + 2 * msPerDay ≤ startOfYear 1000 := by decide
  intro h
  omega

/-- The offset that the clock of a readable instant gives. -/
theorem wallClockAsUtc_sub (ht : t % 1000 = 0) (hread : firstPlain ≤ zone.reading t) :
    wallClockAsUtc zone t - t = zone.offset t := by
  have hseconds := zone.whole_seconds t
  rw [wallClockAsUtc_of_plain hread]
  unfold TimeZone.reading
  omega

/-- **Which instants are found**: those at which the clock reads the time, and whose offset is
tried. -/
theorem mem_candidates (hplain : firstPlain ≤ wall) (hwhole : wall % 1000 = 0) :
    t ∈ candidates zone wall ↔ zone.reading t = wall ∧ Tried zone wall (zone.offset t) := by
  have hday : msPerDay % 1000 = 0 := by decide
  have hafter := reading_near zone (wall + msPerDay)
  have hoffset : wallClockAsUtc zone (wall + msPerDay) - (wall + msPerDay)
      = zone.offset (wall + msPerDay) := wallClockAsUtc_sub (by omega) (by omega)
  have hmem : t ∈ candidates zone wall ↔
      (wall - (wallClockAsUtc zone (wall - msPerDay) - (wall - msPerDay)) = t ∨
        wall - zone.offset (wall + msPerDay) = t) ∧ wallClockAsUtc zone t = wall := by
    rw [candidates, List.mem_insertionSort, List.mem_filter, List.mem_map]
    simp only [List.mem_eraseDups, List.map_cons, List.map_nil, List.mem_cons, List.not_mem_nil,
      or_false, exists_eq_or_imp, exists_eq_left, hoffset, decide_eq_true_eq]
  have hfound (o : ℤ) (ho : o % 1000 = 0) (hupper : o < msPerDay) (ht : wall - o = t) :
      wallClockAsUtc zone t = wall ↔ zone.reading t = wall := by
    have hnear := (reading_near zone t).1
    exact wallClockAsUtc_eq_iff hplain (by omega) (by omega)
  have hof (hreads : zone.reading t = wall) : zone.offset t = wall - t := by
    unfold TimeZone.reading at hreads
    omega
  rw [hmem]
  refine ⟨?_, ?_⟩
  · rintro ⟨hbefore | hlater, hback⟩
    · by_cases hread : firstPlain ≤ zone.reading (wall - msPerDay)
      · rw [wallClockAsUtc_sub (by omega) hread] at hbefore
        have hreads := (hfound _ (zone.whole_seconds _) (zone.upper _) hbefore).mp hback
        have hoffset' := hof hreads
        exact ⟨hreads, .inr ⟨by omega, hread⟩⟩
      · rw [← hbefore] at hback
        exact absurd hback (not_wallClockAsUtc_of_unread hplain (not_le.mp hread))
    · have hreads := (hfound _ (zone.whole_seconds _) (zone.upper _) hlater).mp hback
      have hoffset' := hof hreads
      exact ⟨hreads, .inl (by omega)⟩
  · rintro ⟨hreads, htried⟩
    have hoffset' := hof hreads
    refine ⟨?_, (hfound _ (zone.whole_seconds t) (zone.upper t) (by omega)).mpr hreads⟩
    obtain hlater | ⟨hbefore, hread⟩ := htried
    · exact .inr (by omega)
    · refine .inl ?_
      rw [wallClockAsUtc_sub (by omega) hread]
      omega

theorem nodup_eraseDups_pair (a b : ℤ) :
    [a, b].eraseDups.Nodup ∧ [a, b].eraseDups.length ≤ 2 := by
  by_cases h : b = a
  · simp [List.eraseDups_cons, h]
  · simp [List.eraseDups_cons, h, Ne.symm h]

/-- **They come in order**, each once. -/
theorem candidates_sorted (zone : TimeZone) (wall : ℤ) :
    (candidates zone wall).Pairwise (· < ·) := by
  have hnodup : (candidates zone wall).Nodup := by
    refine (List.perm_insertionSort _ _).nodup_iff.mpr (List.Nodup.filter _ ?_)
    refine List.Nodup.map (fun a b h => ?_) (nodup_eraseDups_pair _ _).1
    omega
  exact (List.pairwise_insertionSort (· ≤ ·) _).imp₂ (fun _ _ hle hne => lt_of_le_of_ne hle hne)
    hnodup

/-- There are at most two. -/
theorem length_candidates_le (zone : TimeZone) (wall : ℤ) : (candidates zone wall).length ≤ 2 := by
  unfold candidates
  rw [List.length_insertionSort]
  refine (List.length_filter_le _ _).trans ?_
  rw [List.length_map]
  exact (nodup_eraseDups_pair _ _).2

end Candidates

end WallClock
