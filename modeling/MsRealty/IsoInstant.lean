import MsRealty.Calendar

/-!
# Instants as ISO 8601 text

The text `Date.prototype.toISOString` writes of an instant – milliseconds
since 1970 – and its reading by `Date.parse`: the date and the time of day in
UTC, years beyond four digits with a sign and six of them. Every time value of
a `Date` is read back from its text (`parseISO_toISOText`).
-/

namespace IsoInstant

open DecimalText

/-- The milliseconds of a day. -/
def msPerDay : ℤ := 86400000

/-- The time values of a `Date` reach this far from 1970. -/
def maxTime : ℤ := 8640000000000000

/-- A time value of a `Date`. -/
def ValidTime (t : ℤ) : Prop := -maxTime ≤ t ∧ t ≤ maxTime

/-! ## Writing -/

/-- The text of a year. -/
def yearText (year : ℤ) : List Char :=
  if 0 ≤ year ∧ year ≤ 9999 then zeroPad 4 year.natAbs
  else (if year < 0 then '-' else '+') :: zeroPad 6 year.natAbs

/-- The text of a time of day, in milliseconds. -/
def timeText (ms : ℕ) : List Char :=
  zeroPad 2 (ms / 3600000) ++ ':' :: (zeroPad 2 (ms / 60000 % 60)
    ++ ':' :: (zeroPad 2 (ms / 1000 % 60) ++ '.' :: (zeroPad 3 (ms % 1000) ++ ['Z'])))

/-- **The text of an instant.** -/
def toISOText (t : ℤ) : List Char :=
  let date := CivilDate.ofDays (t / msPerDay)
  yearText date.year ++ '-' :: (zeroPad 2 date.month ++ '-' :: (zeroPad 2 date.day
    ++ 'T' :: timeText (t % msPerDay).toNat))

/-! ## Reading -/

/-- Reads a number of `n` digits. -/
def takeDigits (n : ℕ) (text : List Char) : Option (ℕ × List Char) :=
  if (text.take n).length = n ∧ (text.take n).all Char.isDigit then
    some (Nat.ofDigitChars 10 (text.take n) 0, text.drop n)
  else none

/-- Reads a character. -/
def takeChar (c : Char) : List Char → Option (List Char)
  | [] => none
  | d :: rest => if d = c then some rest else none

/-- Reads a year; there is no year minus zero. -/
def takeYear : List Char → Option (ℤ × List Char)
  | '+' :: rest => (takeDigits 6 rest).map (fun p => ((p.fst : ℤ), p.snd))
  | '-' :: rest =>
    (takeDigits 6 rest).bind (fun p => if p.fst = 0 then none else some (-(p.fst : ℤ), p.snd))
  | rest => (takeDigits 4 rest).map (fun p => ((p.fst : ℤ), p.snd))

/-- Reads a time of day up to the end of the text. -/
def takeTime (text : List Char) : Option ℕ := do
  let (hour, text) ← takeDigits 2 text
  let text ← takeChar ':' text
  let (minute, text) ← takeDigits 2 text
  let text ← takeChar ':' text
  let (second, text) ← takeDigits 2 text
  let text ← takeChar '.' text
  let (ms, text) ← takeDigits 3 text
  if text = ['Z'] ∧ hour ≤ 23 ∧ minute ≤ 59 ∧ second ≤ 59 then
    some (hour * 3600000 + minute * 60000 + second * 1000 + ms)
  else none

/-- **The instant of a text** of this form. -/
def parseISO (text : List Char) : Option ℤ := do
  let (year, text) ← takeYear text
  let text ← takeChar '-' text
  let (month, text) ← takeDigits 2 text
  let text ← takeChar '-' text
  let (day, text) ← takeDigits 2 text
  let text ← takeChar 'T' text
  let ms ← takeTime text
  if 1 ≤ month ∧ month ≤ 12 ∧ 1 ≤ day ∧ day ≤ daysInMonth year month then
    let t := (dayFromYear year + daysBeforeMonth year month + (day - 1)) * msPerDay + ms
    if -maxTime ≤ t ∧ t ≤ maxTime then some t else none
  else none

theorem takeDigits_zeroPad {n k : ℕ} (hn : 0 < n) (hk : k < 10 ^ n) (rest : List Char) :
    takeDigits n (zeroPad n k ++ rest) = some (k, rest) := by
  have hlength := length_zeroPad hn hk
  have htake : (zeroPad n k ++ rest).take n = zeroPad n k := List.take_left' hlength
  have hdrop : (zeroPad n k ++ rest).drop n = rest := List.drop_left' hlength
  unfold takeDigits
  rw [htake, hdrop, if_pos ⟨hlength, List.all_eq_true.mpr (fun c hc => isDigit_of_mem_zeroPad hc)⟩,
    ofDigitChars_zeroPad]

/-! ### The fields of a time -/

section

variable (date : CivilDate) (ms : ℕ) (rest : List Char)

theorem takeDigits_month :
    takeDigits 2 (zeroPad 2 date.month ++ rest) = some (date.month, rest) :=
  takeDigits_zeroPad (by decide) date.month_lt rest

theorem takeDigits_day : takeDigits 2 (zeroPad 2 date.day ++ rest) = some (date.day, rest) :=
  takeDigits_zeroPad (by decide) date.day_lt rest

theorem takeDigits_hour {ms : ℕ} (h : ms < 86400000) :
    takeDigits 2 (zeroPad 2 (ms / 3600000) ++ rest) = some (ms / 3600000, rest) :=
  takeDigits_zeroPad (by decide) (by omega) rest

theorem takeDigits_minute :
    takeDigits 2 (zeroPad 2 (ms / 60000 % 60) ++ rest) = some (ms / 60000 % 60, rest) :=
  takeDigits_zeroPad (by decide) (by omega) rest

theorem takeDigits_second :
    takeDigits 2 (zeroPad 2 (ms / 1000 % 60) ++ rest) = some (ms / 1000 % 60, rest) :=
  takeDigits_zeroPad (by decide) (by omega) rest

theorem length_hour {ms : ℕ} (h : ms < 86400000) : (zeroPad 2 (ms / 3600000)).length = 2 :=
  length_zeroPad (by decide) (by omega)

@[simp] theorem length_minute : (zeroPad 2 (ms / 60000 % 60)).length = 2 :=
  length_zeroPad (by decide) (by omega)

@[simp] theorem length_second : (zeroPad 2 (ms / 1000 % 60)).length = 2 :=
  length_zeroPad (by decide) (by omega)

end

theorem takeChar_cons (c : Char) (rest : List Char) : takeChar c (c :: rest) = some rest :=
  if_pos rfl

/-- The first digit of a padded number is no sign. -/
theorem zeroPad_cons {n k : ℕ} (hn : 0 < n) (hk : k < 10 ^ n) (rest : List Char) :
    ∃ c tail, zeroPad n k ++ rest = c :: tail ∧ c.isDigit = true := by
  cases hpad : zeroPad n k with
  | nil =>
    have hlength := length_zeroPad hn hk
    rw [hpad] at hlength
    exact absurd hn (by rw [← hlength]; decide)
  | cons c tail =>
    exact ⟨c, tail ++ rest, rfl, isDigit_of_mem_zeroPad (by rw [hpad]; exact List.mem_cons_self)⟩

/-- **A year is read back.** -/
theorem takeYear_yearText {year : ℤ} (h : year.natAbs < 10 ^ 6) (rest : List Char) :
    takeYear (yearText year ++ rest) = some (year, rest) := by
  unfold yearText
  split_ifs with hshort hneg
  · have hdigits := takeDigits_zeroPad (n := 4) (k := year.natAbs) (by decide) (by omega) rest
    obtain ⟨c, tail, htext, hc⟩ :=
      zeroPad_cons (n := 4) (k := year.natAbs) (by decide) (by omega) rest
    have hplain : takeYear (zeroPad 4 year.natAbs ++ rest)
        = (takeDigits 4 (zeroPad 4 year.natAbs ++ rest)).map
            (fun p => ((p.fst : ℤ), p.snd)) := by
      rw [htext, takeYear]
      · rintro _ ⟨⟩
        cases hc
      · rintro _ ⟨⟩
        cases hc
    rw [hplain, hdigits, Option.map_some]
    refine congrArg (fun y => some (y, rest)) ?_
    dsimp only
    omega
  · have hne : year.natAbs ≠ 0 := by omega
    rw [List.cons_append, takeYear, takeDigits_zeroPad (by decide) h, Option.bind_some,
      if_neg hne]
    refine congrArg (fun y => some (y, rest)) ?_
    dsimp only
    omega
  · rw [List.cons_append, takeYear, takeDigits_zeroPad (by decide) h, Option.map_some]
    refine congrArg (fun y => some (y, rest)) ?_
    dsimp only
    omega

/-- **A time of day is read back.** -/
theorem takeTime_timeText {ms : ℕ} (h : ms < 86400000) : takeTime (timeText ms) = some ms := by
  unfold takeTime timeText
  simp only [takeDigits_hour _ h, takeDigits_minute, takeDigits_second,
    takeDigits_zeroPad (n := 3) (k := ms % 1000) (by decide) (by omega),
    takeChar_cons, Option.bind_eq_bind, Option.bind_some]
  rw [if_pos ⟨trivial, by omega, by omega, by omega⟩]
  congr 1
  omega

/-- The years of a `Date` have at most six digits. -/
theorem natAbs_year_lt {t : ℤ} (h : ValidTime t) :
    (CivilDate.ofDays (t / msPerDay)).year.natAbs < 10 ^ 6 := by
  have hle := CivilDate.dayFromYear_yearOfDay_le (t / msPerDay)
  have hlt := CivilDate.lt_dayFromYear_yearOfDay_succ (t / msPerDay)
  show (CivilDate.yearOfDay (t / msPerDay)).natAbs < 10 ^ 6
  unfold ValidTime maxTime at h
  unfold dayFromYear msPerDay at *
  omega

/-- An instant is the day of its date and the time of that day. -/
theorem days_mul_add {t : ℤ} {date : CivilDate} (h : date.days = t / msPerDay) :
    (dayFromYear date.year + daysBeforeMonth date.year date.month + ((date.day : ℤ) - 1))
      * msPerDay + t % msPerDay = t := by
  have hsum : dayFromYear date.year + daysBeforeMonth date.year date.month
      + ((date.day : ℤ) - 1) = t / msPerDay := h
  rw [hsum]
  unfold msPerDay
  omega

/-- **An instant is read back from its text.** -/
theorem parseISO_toISOText {t : ℤ} (h : ValidTime t) : parseISO (toISOText t) = some t := by
  have hdate := CivilDate.days_ofDays (t / msPerDay)
  have hyear := natAbs_year_lt h
  unfold toISOText
  generalize CivilDate.ofDays (t / msPerDay) = date at *
  have hms : (t % msPerDay).toNat < 86400000 := by unfold msPerDay; omega
  unfold parseISO
  simp only [takeYear_yearText hyear, takeDigits_month, takeDigits_day, takeTime_timeText hms,
    takeChar_cons, Option.bind_eq_bind, Option.bind_some]
  rw [if_pos ⟨date.month_pos, date.month_le, date.day_pos, date.day_le⟩]
  have hms' : ((t % msPerDay).toNat : ℤ) = t % msPerDay :=
    Int.toNat_of_nonneg (Int.emod_nonneg _ (by decide))
  rw [hms', days_mul_add hdate]
  exact if_pos h

/-! ## Characters and length -/

theorem length_yearText_le {year : ℤ} (h : year.natAbs < 10 ^ 6) :
    (yearText year).length ≤ 7 := by
  unfold yearText
  split_ifs with hshort
  · rw [length_zeroPad (by decide) (by omega)]
    decide
  all_goals rw [List.length_cons, length_zeroPad (by decide) h]

/-- The text of an instant has at most 27 characters. -/
theorem length_toISOText_le {t : ℤ} (h : ValidTime t) : (toISOText t).length ≤ 27 := by
  have hyear := length_yearText_le (natAbs_year_lt h)
  have hms : (t % msPerDay).toNat < 86400000 := by unfold msPerDay; omega
  unfold toISOText
  generalize CivilDate.ofDays (t / msPerDay) = date at *
  generalize (t % msPerDay).toNat = ms at *
  simp only [timeText, List.length_append, List.length_cons, List.length_nil,
    CivilDate.length_month, CivilDate.length_day, length_hour hms, length_minute, length_second,
    length_zeroPad (w := 3) (n := ms % 1000) (by decide) (by omega)]
  omega

/-- The text of an instant consists of digits and the marks between them. -/
theorem mem_toISOText {t : ℤ} {c : Char} (h : c ∈ toISOText t) :
    c.isDigit = true ∨ c ∈ ['+', '-', 'T', ':', '.', 'Z'] := by
  have hpad : ∀ {w n : ℕ}, c ∈ zeroPad w n →
      c.isDigit = true ∨ c ∈ ['+', '-', 'T', ':', '.', 'Z'] :=
    fun hc => Or.inl (isDigit_of_mem_zeroPad hc)
  have hyear : ∀ {year : ℤ}, c ∈ yearText year →
      c.isDigit = true ∨ c ∈ ['+', '-', 'T', ':', '.', 'Z'] := by
    intro year hc
    unfold yearText at hc
    split_ifs at hc with hshort hneg
    · exact hpad hc
    · obtain rfl | hc := List.mem_cons.mp hc
      · exact Or.inr (by decide)
      · exact hpad hc
    · obtain rfl | hc := List.mem_cons.mp hc
      · exact Or.inr (by decide)
      · exact hpad hc
  simp only [toISOText, timeText, List.mem_append, List.mem_cons, List.not_mem_nil, or_false] at h
  obtain h | rfl | h | rfl | h | rfl | h | rfl | h | rfl | h | rfl | h | rfl := h
  · exact hyear h
  · exact Or.inr (by decide)
  · exact hpad h
  · exact Or.inr (by decide)
  · exact hpad h
  · exact Or.inr (by decide)
  · exact hpad h
  · exact Or.inr (by decide)
  · exact hpad h
  · exact Or.inr (by decide)
  · exact hpad h
  · exact Or.inr (by decide)
  · exact hpad h
  · exact Or.inr (by decide)

end IsoInstant
