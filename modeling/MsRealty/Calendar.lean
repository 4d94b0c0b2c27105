import Mathlib.Algebra.Order.Group.Int
import MsRealty.DecimalText

/-!
# The proleptic Gregorian calendar

Calendar dates and the count of days. `CivilDate.days` numbers the dates so
that consecutive dates have consecutive numbers, 1970-01-01 being day 0, and
two dates with one number are one date (`CivilDate.days_injective`). Weeks
start on Monday: `CivilDate.monday` walks back to the Monday of a date, and two
dates have the same Monday exactly when their day numbers lie in the same
block of seven (`CivilDate.monday_eq_iff`). `CivilDate.isoText` writes a date
as year, month and day.
-/

/-- A leap year of the Gregorian calendar. -/
def isLeapYear (year : ℤ) : Bool :=
  decide (year % 4 = 0 ∧ (year % 100 ≠ 0 ∨ year % 400 = 0))

/-- The days of a month, numbered from 1. -/
def daysInMonth (year : ℤ) (month : ℕ) : ℕ :=
  match month with
  | 2 => if isLeapYear year then 29 else 28
  | 4 | 6 | 9 | 11 => 30
  | _ => 31

/-- The days of a year before the given month. -/
def daysBeforeMonth (year : ℤ) : ℕ → ℕ
  | 0 => 0
  | 1 => 0
  | month + 2 => daysBeforeMonth year (month + 1) + daysInMonth year (month + 1)

/-- The number of the first day of a year. -/
def dayFromYear (year : ℤ) : ℤ :=
  365 * (year - 1970) + (year - 1969) / 4 - (year - 1901) / 100
    + (year - 1601) / 400

/-- **A calendar date**, which exists in its month. -/
@[ext] structure CivilDate where
  year : ℤ
  month : ℕ
  day : ℕ
  month_pos : 1 ≤ month
  month_le : month ≤ 12
  day_pos : 1 ≤ day
  day_le : day ≤ daysInMonth year month
  deriving DecidableEq

theorem daysInMonth_pos (year : ℤ) (month : ℕ) : 1 ≤ daysInMonth year month := by
  unfold daysInMonth
  split
  · split_ifs <;> decide
  all_goals decide

theorem daysBeforeMonth_succ (year : ℤ) {month : ℕ} (h : 1 ≤ month) :
    daysBeforeMonth year (month + 1)
      = daysBeforeMonth year month + daysInMonth year month := by
  obtain ⟨m, rfl⟩ := Nat.exists_eq_add_of_le' h
  rfl

theorem daysBeforeMonth_mono (year : ℤ) : Monotone (daysBeforeMonth year) := by
  refine monotone_nat_of_le_succ (fun month => ?_)
  cases month with
  | zero => exact Nat.le_refl _
  | succ m =>
    rw [daysBeforeMonth_succ year (Nat.succ_pos m)]
    exact Nat.le_add_right _ _

/-- **A year is as long as its months.** -/
theorem dayFromYear_succ (year : ℤ) :
    dayFromYear (year + 1) = dayFromYear year + daysBeforeMonth year 13 := by
  have hmonths : daysBeforeMonth year 13 = if isLeapYear year then 366 else 365 := by
    cases h : isLeapYear year <;> simp [daysBeforeMonth, daysInMonth, h]
  rw [hmonths]
  unfold dayFromYear
  by_cases h : isLeapYear year = true
  · rw [if_pos h]
    simp only [isLeapYear, decide_eq_true_eq] at h
    omega
  · rw [if_neg h]
    simp only [isLeapYear, decide_eq_true_eq] at h
    omega

theorem dayFromYear_mono {year year' : ℤ} (h : year ≤ year') :
    dayFromYear year ≤ dayFromYear year' := by
  obtain ⟨n, rfl⟩ := Int.le.dest h
  clear h
  induction n with
  | zero => exact (congrArg dayFromYear (Int.add_zero year)).ge
  | succ n ih =>
    have hstep := dayFromYear_succ (year + n)
    rw [Int.natCast_succ, ← Int.add_assoc]
    omega

namespace CivilDate

/-- **The number of a date.** -/
def days (c : CivilDate) : ℤ :=
  dayFromYear c.year + (daysBeforeMonth c.year c.month : ℤ) + (c.day - 1 : ℤ)

/-- 1970-01-01. -/
def epoch : CivilDate where
  year := 1970
  month := 1
  day := 1
  month_pos := by decide
  month_le := by decide
  day_pos := by decide
  day_le := by decide

/-- A date lies before the first day of the next month. -/
theorem days_lt_of_month_lt {c c' : CivilDate} (hyear : c.year = c'.year)
    (hmonth : c.month < c'.month) : c.days < c'.days := by
  have hstep := daysBeforeMonth_succ c.year c.month_pos
  have hmono := daysBeforeMonth_mono c.year (Nat.succ_le_of_lt hmonth)
  have hday := c.day_le
  have hday' := c'.day_pos
  unfold days
  rw [← hyear]
  simp only [Nat.succ_eq_add_one] at hmono
  omega

/-- A date lies before the first day of the next year. -/
theorem days_lt_of_year_lt {c c' : CivilDate} (hyear : c.year < c'.year) :
    c.days < c'.days := by
  have hstep := dayFromYear_succ c.year
  have hmono : dayFromYear (c.year + 1) ≤ dayFromYear c'.year :=
    dayFromYear_mono (Int.add_one_le_iff.mpr hyear)
  have hbefore := daysBeforeMonth_succ c.year c.month_pos
  have hmonths : daysBeforeMonth c.year (c.month + 1) ≤ daysBeforeMonth c.year 13 :=
    daysBeforeMonth_mono c.year (Nat.succ_le_succ c.month_le)
  have hday := c.day_le
  have hday' := c'.day_pos
  unfold days
  omega

/-- **One number, one date.** -/
theorem days_injective : Function.Injective days := by
  intro c c' h
  have hyear : c.year = c'.year := by
    rcases lt_trichotomy c.year c'.year with hlt | heq | hgt
    · exact absurd h (ne_of_lt (days_lt_of_year_lt hlt))
    · exact heq
    · exact absurd h.symm (ne_of_lt (days_lt_of_year_lt hgt))
  have hmonth : c.month = c'.month := by
    rcases lt_trichotomy c.month c'.month with hlt | heq | hgt
    · exact absurd h (ne_of_lt (days_lt_of_month_lt hyear hlt))
    · exact heq
    · exact absurd h.symm (ne_of_lt (days_lt_of_month_lt hyear.symm hgt))
  have hday : c.day = c'.day := by
    unfold days at h
    rw [hyear, hmonth] at h
    omega
  exact CivilDate.ext hyear hmonth hday

/-! ## The day before -/

/-- **The day before a date.** -/
def pred (c : CivilDate) : CivilDate :=
  if hday : 1 < c.day then
    { c with
      day := c.day - 1
      day_pos := Nat.le_sub_one_of_lt hday
      day_le := le_trans (Nat.sub_le _ _) c.day_le }
  else if hmonth : 1 < c.month then
    { year := c.year
      month := c.month - 1
      day := daysInMonth c.year (c.month - 1)
      month_pos := Nat.le_sub_one_of_lt hmonth
      month_le := le_trans (Nat.sub_le _ _) c.month_le
      day_pos := daysInMonth_pos _ _
      day_le := le_rfl }
  else
    { year := c.year - 1
      month := 12
      day := 31
      month_pos := by decide
      month_le := le_rfl
      day_pos := by decide
      day_le := le_rfl }

theorem days_pred (c : CivilDate) : c.pred.days = c.days - 1 := by
  unfold pred
  by_cases hday : 1 < c.day
  · rw [dif_pos hday]
    unfold days
    dsimp only
    omega
  · have hone : c.day = 1 := by have := c.day_pos; omega
    rw [dif_neg hday]
    by_cases hmonth : 1 < c.month
    · have hstep := daysBeforeMonth_succ c.year (Nat.le_sub_one_of_lt hmonth)
      rw [Nat.sub_add_cancel c.month_pos] at hstep
      rw [dif_pos hmonth]
      unfold days
      dsimp only
      omega
    · have hmone : c.month = 1 := by have := c.month_pos; omega
      have hyear := dayFromYear_succ (c.year - 1)
      have hbefore : daysBeforeMonth (c.year - 1) 13
          = daysBeforeMonth (c.year - 1) 12 + 31 :=
        daysBeforeMonth_succ _ (by decide)
      have hjan : daysBeforeMonth c.year 1 = 0 := rfl
      rw [sub_add_cancel] at hyear
      rw [dif_neg hmonth]
      unfold days
      dsimp only
      rw [hone, hmone, hjan]
      omega

/-- The date `n` days earlier. -/
def back : ℕ → CivilDate → CivilDate
  | 0, c => c
  | n + 1, c => back n c.pred

theorem days_back (n : ℕ) (c : CivilDate) : (back n c).days = c.days - n := by
  induction n generalizing c with
  | zero => exact (Int.sub_zero _).symm
  | succ n ih =>
    rw [back, ih, days_pred]
    push_cast
    omega

/-! ## The date of a day -/

/-- The year a day lies in: a cycle of 400 years has 146097 days, which gives
the year or one of its neighbours. -/
def yearOfDay (d : ℤ) : ℤ :=
  let year := 1970 + 400 * d / 146097
  if d < dayFromYear year then year - 1
  else if dayFromYear (year + 1) ≤ d then year + 1
  else year

theorem dayFromYear_yearOfDay_le (d : ℤ) : dayFromYear (yearOfDay d) ≤ d := by
  unfold yearOfDay
  dsimp only
  split_ifs with hbefore hafter
  · unfold dayFromYear
    omega
  · exact hafter
  · exact Int.not_lt.mp hbefore

theorem lt_dayFromYear_yearOfDay_succ (d : ℤ) : d < dayFromYear (yearOfDay d + 1) := by
  unfold yearOfDay
  dsimp only
  split_ifs with hbefore hafter
  · rw [Int.sub_add_cancel]
    exact hbefore
  · unfold dayFromYear
    omega
  · exact Int.not_le.mp hafter

/-- The days of its year before a day. -/
def dayOfYear (d : ℤ) : ℕ := (d - dayFromYear (yearOfDay d)).toNat

theorem dayOfYear_lt (d : ℤ) : dayOfYear d < daysBeforeMonth (yearOfDay d) 13 := by
  have hle := dayFromYear_yearOfDay_le d
  have hlt := lt_dayFromYear_yearOfDay_succ d
  rw [dayFromYear_succ] at hlt
  unfold dayOfYear
  omega

/-- The last of the first `n` months that begins at or before a day of the year. -/
def monthUpTo (year : ℤ) (day : ℕ) : ℕ → ℕ
  | 0 => 1
  | m + 1 => if daysBeforeMonth year (m + 1) ≤ day then m + 1 else monthUpTo year day m

theorem monthUpTo_spec {year : ℤ} {day n : ℕ} (hn : 1 ≤ n)
    (h : day < daysBeforeMonth year (n + 1)) :
    1 ≤ monthUpTo year day n ∧ monthUpTo year day n ≤ n ∧
      daysBeforeMonth year (monthUpTo year day n) ≤ day ∧
      day < daysBeforeMonth year (monthUpTo year day n + 1) := by
  induction n with
  | zero => exact absurd hn (by decide)
  | succ m ih =>
    rw [monthUpTo]
    split_ifs with hbegins
    · exact ⟨Nat.succ_pos m, le_rfl, hbegins, h⟩
    · have hm : 1 ≤ m := by
        cases m with
        | zero => exact absurd (Nat.zero_le day) hbegins
        | succ m => exact Nat.succ_pos m
      obtain ⟨hpos, hle, hbefore, hafter⟩ := ih hm (Nat.lt_of_not_le hbegins)
      exact ⟨hpos, Nat.le_succ_of_le hle, hbefore, hafter⟩

/-- The month a day lies in. -/
def monthOfDay (d : ℤ) : ℕ := monthUpTo (yearOfDay d) (dayOfYear d) 12

theorem monthOfDay_spec (d : ℤ) :
    1 ≤ monthOfDay d ∧ monthOfDay d ≤ 12 ∧
      daysBeforeMonth (yearOfDay d) (monthOfDay d) ≤ dayOfYear d ∧
      dayOfYear d < daysBeforeMonth (yearOfDay d) (monthOfDay d + 1) :=
  monthUpTo_spec (by decide) (dayOfYear_lt d)

/-- The day of the month. -/
def dayOfMonth (d : ℤ) : ℕ :=
  dayOfYear d - daysBeforeMonth (yearOfDay d) (monthOfDay d) + 1

theorem dayOfMonth_pos (d : ℤ) : 1 ≤ dayOfMonth d := Nat.succ_pos _

theorem dayOfMonth_le (d : ℤ) : dayOfMonth d ≤ daysInMonth (yearOfDay d) (monthOfDay d) := by
  obtain ⟨hpos, -, hbefore, hafter⟩ := monthOfDay_spec d
  rw [daysBeforeMonth_succ _ hpos] at hafter
  unfold dayOfMonth
  omega

/-- **The date of a day.** -/
def ofDays (d : ℤ) : CivilDate where
  year := yearOfDay d
  month := monthOfDay d
  day := dayOfMonth d
  month_pos := (monthOfDay_spec d).1
  month_le := (monthOfDay_spec d).2.1
  day_pos := dayOfMonth_pos d
  day_le := dayOfMonth_le d

/-- **The date of a day has its number.** -/
theorem days_ofDays (d : ℤ) : (ofDays d).days = d := by
  obtain ⟨-, -, hbefore, -⟩ := monthOfDay_spec d
  have hyear := dayFromYear_yearOfDay_le d
  show dayFromYear (yearOfDay d) + (daysBeforeMonth (yearOfDay d) (monthOfDay d) : ℤ)
    + ((dayOfMonth d : ℤ) - 1) = d
  unfold dayOfMonth
  unfold dayOfYear at *
  omega

/-! ## Weeks -/

/-- The day of the week, Monday being 0. -/
def weekday (c : CivilDate) : ℕ := ((c.days + 3) % 7).toNat

/-- **The Monday of a date's week.** -/
def monday (c : CivilDate) : CivilDate := back c.weekday c

theorem days_monday (c : CivilDate) : c.monday.days = 7 * ((c.days + 3) / 7) - 3 := by
  unfold monday weekday
  rw [days_back]
  omega

/-- **The weeks partition the dates**: the Monday of a date depends only on
the block of seven days it lies in. -/
theorem monday_eq_iff {c c' : CivilDate} :
    c.monday = c'.monday ↔ (c.days + 3) / 7 = (c'.days + 3) / 7 := by
  rw [← days_injective.eq_iff, days_monday, days_monday]
  omega

theorem le_year_back (n : ℕ) (c : CivilDate) : c.year - n ≤ (back n c).year := by
  induction n generalizing c with
  | zero => exact (Int.sub_zero _).le
  | succ n ih =>
    have hpred : c.year - 1 ≤ c.pred.year := by
      unfold pred
      split_ifs <;> dsimp only <;> omega
    have hrest := ih c.pred
    rw [back]
    push_cast
    omega

/-- A week reaches back into the year before at most a few days. -/
theorem le_year_monday (c : CivilDate) : c.year - 6 ≤ c.monday.year := by
  have hback := le_year_back c.weekday c
  have hweekday : c.weekday ≤ 6 := by unfold weekday; omega
  unfold monday
  omega

/-! ## Text -/

open DecimalText

theorem daysInMonth_le (year : ℤ) (month : ℕ) : daysInMonth year month ≤ 31 := by
  unfold daysInMonth
  split
  · split_ifs <;> decide
  all_goals decide

theorem month_lt (c : CivilDate) : c.month < 10 ^ 2 := lt_of_le_of_lt c.month_le (by decide)

theorem day_lt (c : CivilDate) : c.day < 10 ^ 2 :=
  lt_of_le_of_lt (le_trans c.day_le (daysInMonth_le _ _)) (by decide)

@[simp] theorem length_month (c : CivilDate) : (zeroPad 2 c.month).length = 2 :=
  length_zeroPad (by decide) c.month_lt

@[simp] theorem length_day (c : CivilDate) : (zeroPad 2 c.day).length = 2 :=
  length_zeroPad (by decide) c.day_lt

/-- The text of a date of the common era, its year padded to the width `w`. -/
def isoText (w : ℕ) (c : CivilDate) : List Char :=
  zeroPad w c.year.toNat ++ ('-' :: zeroPad 2 c.month ++ '-' :: zeroPad 2 c.day)

/-- **A text names one date.** -/
theorem isoText_inj {w : ℕ} {c c' : CivilDate} (hc : 0 ≤ c.year)
    (hc' : 0 ≤ c'.year) : isoText w c = isoText w c' ↔ c = c' := by
  refine ⟨fun h => ?_, fun h => congrArg _ h⟩
  unfold isoText at h
  obtain ⟨hyear, hrest⟩ := List.append_inj' h (by simp)
  obtain ⟨hm, hd⟩ := List.append_inj hrest (by simp)
  refine CivilDate.ext ?_ ?_ ?_
  · have := zeroPad_injective w hyear
    omega
  · exact zeroPad_injective 2 (List.cons_injective hm)
  · exact zeroPad_injective 2 (List.cons_injective hd)

end CivilDate
