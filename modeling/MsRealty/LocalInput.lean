import MsRealty.LocalTime
import MsRealty.OffsetText

/-!
# Values of a local time control

The value of a `datetime-local` control is read as a wall time of a zone
(`readLocalInput`), and an instant prefills such a control (`localInputValue`).

What is accepted shows the value again and has the offset that leads to it,
and a whole minute is recovered from its own value, as far as the clock of the
zone is read back and has an offset of whole minutes: exactly when is
`readsTrulyAt_iff` and `recovered_iff`.
-/

namespace LocalTime

open IsoInstant DecimalText WallClock

/-! ## Instants as texts -/

/-- Reads the milliseconds of a second, if there are any. -/
def takeMilliseconds : List Char → Option (ℕ × List Char)
  | '.' :: rest =>
    let digits := rest.takeWhile Char.isDigit
    if digits ≠ [] ∧ digits.length ≤ 3 then some (fractionMs digits, rest.dropWhile Char.isDigit)
    else none
  | rest => some (0, rest)

/-- Reads the seconds of a minute and their milliseconds, if there are any. -/
def takeSecondsMs : List Char → Option ((ℕ × ℕ) × List Char)
  | ':' :: rest => do
    let (second, rest) ← takeDigits 2 rest
    let (ms, rest) ← takeMilliseconds rest
    some ((second, ms), rest)
  | rest => some ((0, 0), rest)

/-- The milliseconds of an offset of hours and minutes. -/
def offsetMs (text : List Char) : Option ℤ := do
  let (hours, rest) ← takeDigits 2 text
  let rest ← takeChar ':' rest
  let (minutes, rest) ← takeDigits 2 rest
  if rest = [] ∧ hours ≤ 23 ∧ minutes ≤ 59 then some ((hours * 60 + minutes : ℕ) * 60000)
  else none

/-- The offset at the end of a text. -/
def designator : List Char → Option ℤ
  | ['Z'] => some 0
  | '+' :: rest => offsetMs rest
  | '-' :: rest => (offsetMs rest).map (- ·)
  | _ => none

/-- Whether the fields of a text are within their bounds; a day may end at 24:00. -/
def InBounds (month day hour minute second ms : ℕ) : Prop :=
  (1 ≤ month ∧ month ≤ 12) ∧ (1 ≤ day ∧ day ≤ 31) ∧
    (hour ≤ 23 ∨ hour = 24 ∧ minute = 0 ∧ second = 0 ∧ ms = 0) ∧ minute ≤ 59 ∧ second ≤ 59

instance (month day hour minute second ms : ℕ) :
    Decidable (InBounds month day hour minute second ms) := by
  unfold InBounds
  infer_instance

/-- **`Date.parse`**, of a date and time with its offset: `YYYY-MM-DDTHH:mm[:ss[.sss]]`, then
`Z` or hours and minutes. A day beyond its month runs on. -/
def dateParse (text : List Char) : Option ℤ := do
  let (year, text) ← takeDigits 4 text
  let text ← takeChar '-' text
  let (month, text) ← takeDigits 2 text
  let text ← takeChar '-' text
  let (day, text) ← takeDigits 2 text
  let text ← takeChar 'T' text
  let (hour, text) ← takeDigits 2 text
  let text ← takeChar ':' text
  let (minute, text) ← takeDigits 2 text
  let ((second, ms), text) ← takeSecondsMs text
  let offset ← designator text
  if InBounds month day hour minute second ms then
    some (Fields.time ⟨year, month, day, hour, minute, second⟩ + ms - offset)
  else none

/-! ## Values -/

/-- **`localInputValue`**: the value that an instant prefills, none standing for an instant
that is missing or invalid. A clock beyond the range of a `Date` is an error. -/
def localInputValue (instant : Option ℤ) (zone : TimeZone) (p : Precision) :
    Option (List Char) :=
  match instant with
  | none => some []
  | some ms =>
    if -maxTime ≤ wallClockAsUtc zone ms ∧ wallClockAsUtc zone ms ≤ maxTime then
      some (wallText p (wallClockAsUtc zone ms))
    else none

/-- What is done with a time that occurs twice. -/
inductive Repeated where
  | reject
  | first
  | earlier
  | later
  deriving DecidableEq

/-- Why a value is refused. -/
inductive Reason where
  | invalidLocalTime
  | nonexistentLocalTime
  | ambiguousLocalTime
  deriving DecidableEq

/-- **What a value is read as**: an instant, its offset, and whether its time occurs twice. -/
inductive LocalInput where
  | ok (instant : ℤ) (offset : List Char) (repeated : Bool)
  | refused (reason : Reason)
  deriving DecidableEq

/-- The wall time of a value, as UTC would have it. -/
def parseWall (value : List Char) : Option ℤ :=
  dateParse (value ++ ((if value.length = 16 then ":00".toList else []) ++ ['Z']))

/-- What a wall time is read as, by its resolution. -/
def inputOf (wall : ℤ) (repeated : Repeated) : Resolution → LocalInput
  | .nonexistent => .refused .nonexistentLocalTime
  | .resolved instant => .ok instant (offsetText wall instant) false
  | .ambiguous earlier later =>
    if repeated = .reject then .refused .ambiguousLocalTime
    else
      let instant := if repeated = .later then later else earlier
      .ok instant (offsetText wall instant) true

/-- **`readLocalInput`.** -/
def readLocalInput (value : List Char) (zone : TimeZone) (repeated : Repeated) : LocalInput :=
  match parseWall value with
  | none => .refused .invalidLocalTime
  | some wall =>
    if (localFields value).isNone ∨ (toISOText wall).take value.length ≠ value then
      .refused .invalidLocalTime
    else
      match resolveLocalTime value zone none with
      -- an error, which the form of the value has excluded
      | none => .refused .invalidLocalTime
      | some resolved => inputOf wall repeated resolved

/-! ## The valid values -/

theorem takeDigits_digits {n : ℕ} {digits rest : List Char} (hlength : digits.length = n)
    (hdigits : ∀ c ∈ digits, c.isDigit = true) :
    takeDigits n (digits ++ rest) = some (Nat.ofDigitChars 10 digits 0, rest) := by
  unfold takeDigits
  rw [List.take_left' hlength, List.drop_left' hlength,
    if_pos ⟨hlength, List.all_eq_true.mpr hdigits⟩]

/-- Digits of a given number. -/
def IsDigits (n : ℕ) (digits : List Char) : Prop :=
  digits.length = n ∧ ∀ c ∈ digits, c.isDigit = true

/-- **The digits of a date, an hour and a minute.** -/
structure ClockDigits where
  year : List Char
  month : List Char
  day : List Char
  hour : List Char
  minute : List Char
  isDigits_year : IsDigits 4 year
  isDigits_month : IsDigits 2 month
  isDigits_day : IsDigits 2 day
  isDigits_hour : IsDigits 2 hour
  isDigits_minute : IsDigits 2 minute

/-- The number of some digits. -/
def number (digits : List Char) : ℕ := Nat.ofDigitChars 10 digits 0

/-- Their text. -/
def ClockDigits.text (c : ClockDigits) : List Char :=
  c.year ++ '-' :: (c.month ++ '-' :: (c.day ++ 'T' :: (c.hour ++ ':' :: c.minute)))

/-- Their fields, with some seconds. -/
def ClockDigits.fields (c : ClockDigits) (second : ℕ) : Fields :=
  ⟨number c.year, number c.month, number c.day, number c.hour, number c.minute, second⟩

theorem ClockDigits.length_text (c : ClockDigits) : c.text.length = 16 := by
  unfold text
  simp only [List.length_append, List.length_cons, c.isDigits_year.1, c.isDigits_month.1,
    c.isDigits_day.1, c.isDigits_hour.1, c.isDigits_minute.1]

theorem ClockDigits.localFields_text (c : ClockDigits) (rest : List Char) :
    localFields (c.text ++ rest) = (takeSeconds rest).map c.fields := by
  simp only [text, localFields, List.append_assoc, List.cons_append,
    takeDigits_digits c.isDigits_year.1 c.isDigits_year.2,
    takeDigits_digits c.isDigits_month.1 c.isDigits_month.2,
    takeDigits_digits c.isDigits_day.1 c.isDigits_day.2,
    takeDigits_digits c.isDigits_hour.1 c.isDigits_hour.2,
    takeDigits_digits c.isDigits_minute.1 c.isDigits_minute.2,
    takeChar_cons, Option.bind_eq_bind, Option.bind_some]
  cases takeSeconds rest <;> rfl

/-- What follows the seconds is an offset. -/
theorem ClockDigits.dateParse_text (c : ClockDigits) {second : ℕ} {rest : List Char}
    (h : takeSecondsMs rest = some ((second, 0), ['Z'])) : dateParse (c.text ++ rest) =
      if InBounds (number c.month) (number c.day) (number c.hour) (number c.minute) second 0 then
        some (c.fields second).time
      else none := by
  have hend : designator ['Z'] = some 0 := rfl
  simp only [text, dateParse, List.append_assoc, List.cons_append,
    takeDigits_digits c.isDigits_year.1 c.isDigits_year.2,
    takeDigits_digits c.isDigits_month.1 c.isDigits_month.2,
    takeDigits_digits c.isDigits_day.1 c.isDigits_day.2,
    takeDigits_digits c.isDigits_hour.1 c.isDigits_hour.2,
    takeDigits_digits c.isDigits_minute.1 c.isDigits_minute.2,
    takeChar_cons, Option.bind_eq_bind, Option.bind_some, h, hend, Nat.cast_zero, add_zero,
    sub_zero]
  rfl

theorem exists_isDigits {n k : ℕ} {text rest : List Char}
    (h : takeDigits n text = some (k, rest)) :
    ∃ digits, IsDigits n digits ∧ text = digits ++ rest := by
  obtain ⟨digits, htext, hlength, hdigits, -⟩ := takeDigits_eq_some h
  exact ⟨digits, ⟨hlength, hdigits⟩, htext⟩

/-- **A local time is digits, and what follows the minutes.** -/
theorem exists_clockDigits {value : List Char} {f : Fields} (h : localFields value = some f) :
    ∃ (c : ClockDigits) (rest : List Char), value = c.text ++ rest := by
  simp only [localFields, Option.bind_eq_bind, Option.bind_eq_some_iff] at h
  obtain ⟨⟨_, t1⟩, h1, t2, h2, ⟨_, t3⟩, h3, t4, h4, ⟨_, t5⟩, h5, t6, h6, ⟨_, t7⟩, h7, t8, h8,
    ⟨_, t9⟩, h9, -⟩ := h
  obtain ⟨year, hyear, rfl⟩ := exists_isDigits h1
  obtain rfl := takeChar_eq_some h2
  obtain ⟨month, hmonth, rfl⟩ := exists_isDigits h3
  obtain rfl := takeChar_eq_some h4
  obtain ⟨day, hday, rfl⟩ := exists_isDigits h5
  obtain rfl := takeChar_eq_some h6
  obtain ⟨hour, hhour, rfl⟩ := exists_isDigits h7
  obtain rfl := takeChar_eq_some h8
  obtain ⟨minute, hminute, rfl⟩ := exists_isDigits h9
  refine ⟨⟨year, month, day, hour, minute, hyear, hmonth, hday, hhour, hminute⟩, t9, ?_⟩
  simp only [ClockDigits.text, List.append_assoc, List.cons_append]

/-- What follows the minutes: nothing, or the seconds. -/
theorem takeSeconds_eq_some {rest : List Char} {second : ℕ} (h : takeSeconds rest = some second) :
    rest = [] ∧ second = 0 ∨
      ∃ digits, IsDigits 2 digits ∧ rest = ':' :: digits ∧ second = number digits := by
  cases rest with
  | nil => exact .inl ⟨rfl, (Option.some.inj h).symm⟩
  | cons d rest =>
    refine .inr ?_
    simp only [takeSeconds, Option.bind_eq_bind, Option.bind_eq_some_iff] at h
    obtain ⟨⟨k, t⟩, hdigits, hend⟩ := h
    obtain ⟨digits, htext, hlength, hall, hk⟩ := takeDigits_eq_some hdigits
    split_ifs at hend with hcolon
    obtain ⟨rfl, hnil⟩ := hcolon
    obtain rfl := Option.some.inj hend
    dsimp only at hnil
    rw [hnil, List.append_nil] at htext
    exact ⟨digits, ⟨hlength, hall⟩, by rw [htext], hk.symm⟩

/-- **What the value of a local time is parsed as.** -/
theorem parseWall_eq {c : ClockDigits} {rest : List Char} {second : ℕ}
    (h : takeSeconds rest = some second) : parseWall (c.text ++ rest) =
      if InBounds (number c.month) (number c.day) (number c.hour) (number c.minute) second 0 then
        some (c.fields second).time
      else none := by
  have hdigits (digits : List Char) (hd : IsDigits 2 digits) :
      takeSecondsMs (':' :: (digits ++ ['Z'])) = some ((number digits, 0), ['Z']) := by
    have hend : takeMilliseconds ['Z'] = some (0, ['Z']) := rfl
    rw [takeSecondsMs, takeDigits_digits hd.1 hd.2, Option.bind_eq_bind, Option.bind_some]
    dsimp only
    rw [hend]
    rfl
  unfold parseWall
  obtain ⟨rfl, rfl⟩ | ⟨digits, hd, rfl, rfl⟩ := takeSeconds_eq_some h
  · rw [List.append_nil, if_pos c.length_text]
    exact c.dateParse_text (hdigits ['0', '0'] ⟨rfl, List.all_eq_true.mp rfl⟩)
  · have hlength : (c.text ++ ':' :: digits).length ≠ 16 := by
      rw [List.length_append, c.length_text, List.length_cons]
      omega
    rw [if_neg hlength, List.nil_append, List.append_assoc, List.cons_append]
    exact c.dateParse_text (hdigits digits hd)

/-- The fields of a reading, in numbers. -/
theorem inBounds_fields {c : ClockDigits} {second : ℕ} {w : ℤ} (h : c.fields second = fieldsOf w) :
    InBounds (number c.month) (number c.day) (number c.hour) (number c.minute) second 0 := by
  have hmonth := (CivilDate.ofDays (w / msPerDay)).month_pos
  have hmonth' := (CivilDate.ofDays (w / msPerDay)).month_le
  have hday := (CivilDate.ofDays (w / msPerDay)).day_pos
  have hday' := le_trans (CivilDate.ofDays (w / msPerDay)).day_le (CivilDate.daysInMonth_le _ _)
  obtain ⟨-, h2, h3, h4, h5, h6⟩ := Fields.mk.inj h
  unfold InBounds
  unfold msPerDay at *
  omega

/-- **A wall time is parsed from its text.** -/
theorem parseWall_text {p : Precision} (w : WallTime p) : parseWall w.text = some w.reading := by
  have hfields := localFields_text w
  obtain ⟨c, rest, htext⟩ := exists_clockDigits hfields
  rw [htext, c.localFields_text] at hfields
  obtain ⟨second, hsecond, hsame⟩ := Option.map_eq_some_iff.mp hfields
  rw [htext, parseWall_eq hsecond, if_pos (inBounds_fields hsame), hsame, time_fieldsOf,
    w.whole_seconds, sub_zero]

theorem time_whole_minutes {f : Fields} (h : f.second = 0) : f.time % 60000 = 0 := by
  unfold Fields.time msPerDay
  dsimp only
  omega

/-- A text that begins with a digit is not that of an instant after the year 9999. -/
theorem lt_of_isDigit_head {w : ℤ} {n : ℕ} {d : Char} (hd : d.isDigit = true)
    (h : ((toISOText w).take n).head? = some d) : w < startOfYear 10000 := by
  by_contra hlate
  have hyear := le_year_fieldsOf.mpr (not_lt.mp hlate)
  have hlong : ¬ (0 ≤ (CivilDate.ofDays (w / msPerDay)).year ∧
      (CivilDate.ofDays (w / msPerDay)).year ≤ 9999) := fun hshort => by
    have heq : (fieldsOf w).year = (CivilDate.ofDays (w / msPerDay)).year := rfl
    omega
  have hpos : ¬ (CivilDate.ofDays (w / msPerDay)).year < 0 := fun hneg => by
    have heq : (fieldsOf w).year = (CivilDate.ofDays (w / msPerDay)).year := rfl
    omega
  unfold toISOText yearText at h
  dsimp only at h
  rw [if_neg hlong, if_neg hpos] at h
  cases n with
  | zero => cases h
  | succ n =>
    rw [List.cons_append, List.take_succ_cons] at h
    rw [← Option.some.inj h] at hd
    exact absurd hd (by decide)

/-- **A value that is accepted as valid is the text of a wall time.** -/
theorem exists_wallTime {value : List Char} {wall : ℤ} (hform : localFields value ≠ none)
    (hparse : parseWall value = some wall) (htext : (toISOText wall).take value.length = value) :
    ∃ (p : Precision) (w : WallTime p), value = w.text ∧ w.reading = wall := by
  obtain ⟨f, hf⟩ := Option.ne_none_iff_exists'.mp hform
  obtain ⟨c, rest, rfl⟩ := exists_clockDigits hf
  rw [c.localFields_text] at hf
  obtain ⟨second, hsecond, rfl⟩ := Option.map_eq_some_iff.mp hf
  rw [parseWall_eq hsecond] at hparse
  obtain ⟨hbounds, htime⟩ := Option.ite_none_right_eq_some.mp hparse
  have hwall := Option.some.inj htime
  obtain ⟨⟨hmonth, hmonth'⟩, ⟨hday, -⟩, -⟩ := hbounds
  have hfirst : startOfYear 0 ≤ wall := by
    rw [← hwall]
    refine (startOfYear_mono (Int.natCast_nonneg (number c.year))).trans ?_
    refine startOfYear_le_time (f := c.fields second) ?_ ?_ ?_ ?_ ?_ ?_ <;>
      (unfold ClockDigits.fields; dsimp only; omega)
  have hlast : wall < startOfYear 10000 := by
    obtain ⟨hlength, hdigits⟩ := c.isDigits_year
    cases hyear : c.year with
    | nil =>
      rw [hyear] at hlength
      cases hlength
    | cons d tail =>
      rw [hyear] at hdigits
      refine lt_of_isDigit_head (hdigits d List.mem_cons_self)
        ((congrArg List.head? htext).trans ?_)
      rw [ClockDigits.text, hyear]
      rfl
  obtain ⟨rfl, rfl⟩ | ⟨digits, hd, rfl, rfl⟩ := takeSeconds_eq_some hsecond
  · refine ⟨.minute, ⟨wall, hfirst, hlast, ?_⟩, ?_, rfl⟩
    · rw [← hwall]
      exact time_whole_minutes rfl
    · rw [List.append_nil, c.length_text] at htext
      rw [List.append_nil]
      exact htext.symm
  · refine ⟨.second, ⟨wall, hfirst, hlast, ?_⟩, ?_, rfl⟩
    · rw [← hwall]
      exact time_whole_seconds _
    · rw [List.length_append, c.length_text, List.length_cons, hd.1] at htext
      exact htext.symm

/-! ## What is accepted -/

theorem length_wallText {p : Precision} {w : ℤ} (hfirst : startOfYear 0 ≤ w)
    (hlast : w < startOfYear 10000) : (wallText p w).length = p.length := by
  cases p with
  | minute => rw [wallText_minute hfirst hlast, length_clockText hfirst hlast, Precision.length]
  | second =>
    rw [wallText_second hfirst hlast, List.length_append, length_clockText hfirst hlast,
      List.length_cons, length_zeroPad (by decide) (by omega), Precision.length]

section Reading

variable {zone : TimeZone} {p : Precision} (w : WallTime p)

theorem WallTime.length_text : w.text.length = p.length := length_wallText w.first w.last

theorem WallTime.take_text : (toISOText w.reading).take w.text.length = w.text := by
  rw [w.length_text]
  rfl

/-- The instants a wall time is taken for. -/
def found (zone : TimeZone) {p : Precision} (w : WallTime p) : List ℤ :=
  candidates zone (dateUTC (fieldsOf w.reading))

/-- **What the text of a wall time is read as.** -/
theorem readLocalInput_text (repeated : Repeated) : readLocalInput w.text zone repeated
    = inputOf w.reading repeated (answer (found zone w) none) := by
  have hform : ¬ ((localFields w.text).isNone = true ∨
      (toISOText w.reading).take w.text.length ≠ w.text) := by
    rw [localFields_text, w.take_text]
    simp
  unfold readLocalInput
  rw [parseWall_text]
  dsimp only
  rw [if_neg hform, resolveLocalTime_text]
  rfl

/-- **An accepted value is the text of a wall time, and its instant one of those found.** -/
theorem found_of_readLocalInput {value : List Char} {repeated : Repeated} {instant : ℤ}
    {offset : List Char} {twice : Bool}
    (h : readLocalInput value zone repeated = .ok instant offset twice) :
    ∃ (p : Precision) (w : WallTime p), value = w.text ∧ instant ∈ found zone w ∧
      offset = offsetText w.reading instant := by
  have hvalid : ∃ (p : Precision) (w : WallTime p), value = w.text := by
    unfold readLocalInput at h
    cases hparse : parseWall value with
    | none =>
      rw [hparse] at h
      cases h
    | some wall =>
      rw [hparse] at h
      dsimp only at h
      by_cases hform : (localFields value).isNone = true ∨
          (toISOText wall).take value.length ≠ value
      · rw [if_pos hform] at h
        cases h
      · push Not at hform
        obtain ⟨p, w, htext, -⟩ := exists_wallTime
          (fun hnone => hform.1 (Option.isNone_iff_eq_none.mpr hnone)) hparse hform.2
        exact ⟨p, w, htext⟩
  obtain ⟨p, w, rfl⟩ := hvalid
  refine ⟨p, w, rfl, ?_⟩
  rw [readLocalInput_text] at h
  obtain hnil | ⟨t, hone⟩ | ⟨a, b, -, htwo⟩ :=
    short_cases (candidates_sorted zone _)
      (length_candidates_le zone (dateUTC (fieldsOf w.reading)))
  · have hfound : found zone w = [] := hnil
    rw [hfound] at h
    cases h
  · have hfound : found zone w = [t] := hone
    rw [hfound] at h ⊢
    cases h
    exact ⟨List.mem_singleton_self _, rfl⟩
  · have hfound : found zone w = [a, b] := htwo
    rw [hfound] at h ⊢
    by_cases hreject : repeated = .reject
    · rw [hreject] at h
      cases h
    · by_cases hlater : repeated = .later
      · rw [hlater] at h
        cases h
        exact ⟨by simp, rfl⟩
      · simp only [answer, inputOf, if_neg hreject, if_neg hlater] at h
        cases h
        exact ⟨by simp, rfl⟩

/-- **Every instant that is found is accepted** for some choice. -/
theorem exists_readLocalInput {instant : ℤ} (h : instant ∈ found zone w) :
    ∃ (repeated : Repeated) (twice : Bool), readLocalInput w.text zone repeated
      = .ok instant (offsetText w.reading instant) twice := by
  obtain hnil | ⟨t, hone⟩ | ⟨a, b, -, htwo⟩ :=
    short_cases (candidates_sorted zone _)
      (length_candidates_le zone (dateUTC (fieldsOf w.reading)))
  · have hfound : found zone w = [] := hnil
    rw [hfound] at h
    exact absurd h List.not_mem_nil
  · have hfound : found zone w = [t] := hone
    rw [hfound, List.mem_singleton] at h
    refine ⟨.reject, false, ?_⟩
    rw [readLocalInput_text, hfound, h]
    rfl
  · have hfound : found zone w = [a, b] := htwo
    rw [hfound, List.mem_pair] at h
    obtain rfl | rfl := h
    · refine ⟨.earlier, true, ?_⟩
      rw [readLocalInput_text, hfound]
      rfl
    · refine ⟨.later, true, ?_⟩
      rw [readLocalInput_text, hfound]
      rfl

end Reading

/-! ## When a value is read truly -/

/-- Two readings of one text are of one year. -/
theorem year_of_wallText {p q : Precision} {a b : ℤ} (ha : startOfYear 0 ≤ a)
    (ha' : a < startOfYear 10000) (hb : startOfYear 0 ≤ b) (hb' : b < startOfYear 10000)
    (h : wallText p a = wallText q b) : (fieldsOf a).year = (fieldsOf b).year := by
  have htake (p : Precision) {a : ℤ} (ha : startOfYear 0 ≤ a) (ha' : a < startOfYear 10000) :
      (wallText p a).take 16 = clockText a := by
    have hlength := length_clockText ha ha'
    cases p with
    | minute =>
      rw [wallText_minute ha ha']
      exact List.take_of_length_le hlength.le
    | second =>
      rw [wallText_second ha ha']
      exact List.take_left' hlength
  have hclock : clockText a = clockText b := by rw [← htake p ha ha', h, htake q hb hb']
  have hfields := localFields_clockText ha ha' []
  rw [hclock, localFields_clockText hb hb'] at hfields
  exact (congrArg Fields.year (Option.some.inj hfields)).symm

variable {zone : TimeZone}

/-- **A value that is read truly in a zone**: whatever instant it is accepted as prefills the
value again, and its reading in UTC is the value, when the offset is added to it. -/
def ReadsTruly (zone : TimeZone) (value : List Char) : Prop :=
  ∀ repeated instant offset twice,
    readLocalInput value zone repeated = .ok instant offset twice →
      ∃ p : Precision, p.length = value.length ∧
        localInputValue (some instant) zone p = some value ∧
        ∃ d, readOffset offset = some d ∧ wallText p (instant + d) = value

/-- **An instant that is recovered**: some occurrence of the value it prefills is read as it. -/
def Recovered (zone : TimeZone) (t : ℤ) : Prop :=
  ∃ value, localInputValue (some t) zone .minute = some value ∧
    ∃ repeated offset twice, readLocalInput value zone repeated = .ok t offset twice

/-- Every instant at which the clock reads a time has an offset of whole minutes, if its offset
is tried. -/
def WholeMinutes (zone : TimeZone) (reading : ℤ) : Prop :=
  ∀ t, zone.reading t = reading → Tried zone reading (zone.offset t) → zone.offset t % 60000 = 0

section Plain

variable {p : Precision} {w : WallTime p} {t : ℤ}

theorem mem_found (hplain : firstPlain ≤ w.reading) :
    t ∈ found zone w ↔ zone.reading t = w.reading ∧ Tried zone w.reading (zone.offset t) := by
  rw [found, dateUTC_fieldsOf hplain w.whole_seconds]
  exact mem_candidates hplain w.whole_seconds

/-- A clock that reads a wall time prefills its text. -/
theorem localInputValue_reading (hplain : firstPlain ≤ zone.reading t)
    (hlast : zone.reading t < startOfYear 10000) :
    localInputValue (some t) zone p
      = some (wallText p (zone.reading t - zone.reading t % 1000)) := by
  have hlower : -maxTime ≤ firstPlain - 1000 := by decide
  have hupper : startOfYear 10000 ≤ maxTime := by decide
  unfold localInputValue
  dsimp only
  rw [wallClockAsUtc_of_plain hplain, if_pos (by omega)]

/-- **From the year 100 on**, an instant that is found shows the wall time, and has its offset
exactly when that has whole minutes. -/
theorem shows_of_found (hplain : firstPlain ≤ w.reading) (ht : t ∈ found zone w) :
    localInputValue (some t) zone p = some w.text ∧
      ((∃ d, readOffset (offsetText w.reading t) = some d ∧ wallText p (t + d) = w.text) ↔
        zone.offset t % 60000 = 0) := by
  obtain ⟨hreads, -⟩ := (mem_found hplain).mp ht
  have hwhole := w.whole_seconds
  have hoffset : w.reading - t = zone.offset t := by
    rw [← hreads]
    unfold TimeZone.reading
    omega
  have hlower := zone.lower t
  have hupper := zone.upper t
  have hday : (w.reading - t).natAbs < 86400000 := by
    unfold msPerDay at hlower hupper
    omega
  have hread (d : ℤ) : readOffset (offsetText w.reading t) = some d ↔ _ :=
    readOffset_offsetText (by rw [hoffset]; exact zone.whole_seconds t) hday d
  refine ⟨?_, ?_, fun hminutes => ⟨w.reading - t, ?_, ?_⟩⟩
  · rw [localInputValue_reading (by omega) (by rw [hreads]; exact w.last), hreads, hwhole, sub_zero]
    rfl
  · rintro ⟨d, hd, -⟩
    rw [← hoffset]
    exact ((hread d).mp hd).1
  · refine (hread _).mpr ⟨?_, rfl⟩
    rwa [hoffset]
  · rw [add_sub_cancel]
    rfl

/-- For a year of two digits, no instant that is found shows the wall time. -/
theorem not_shows_of_found (hshort : w.reading < firstPlain) (ht : t ∈ found zone w)
    (q : Precision) : localInputValue (some t) zone q ≠ some w.text := by
  have hlate := startOfYear_le_dateUTC w.first hshort
  have hlast := dateUTC_lt w.first hshort
  have hwhole := dateUTC_whole (fieldsOf w.reading)
  have hcentury : firstPlain ≤ startOfYear 1900 := by decide
  have hzero : startOfYear 0 ≤ startOfYear 1900 := by decide
  have hcentury' : startOfYear 2001 ≤ startOfYear 10000 := by decide
  obtain ⟨hreads, -⟩ := (mem_candidates (by omega) hwhole).mp ht
  rw [localInputValue_reading (by omega) (by omega), hreads, hwhole, sub_zero]
  intro h
  have hyear := year_of_wallText (by omega) (by omega) w.first w.last (Option.some.inj h)
  have hlong := le_year_fieldsOf.mpr hlate
  have hless : ¬ 100 ≤ (fieldsOf w.reading).year := fun hle =>
    absurd (le_year_fieldsOf.mp hle) (not_le.mpr hshort)
  omega

end Plain

theorem Precision.length_injective : Function.Injective Precision.length := by
  intro p q h
  cases p <;> cases q <;> first | rfl | exact absurd h (by decide)

/-- **When the text of a wall time is read truly.** -/
theorem readsTruly_text_iff {p : Precision} (w : WallTime p) : ReadsTruly zone w.text ↔
    firstPlain ≤ w.reading ∧ WholeMinutes zone w.reading ∨
      w.reading < firstPlain ∧ Skipped zone (dateUTC (fieldsOf w.reading)) := by
  have hreads : ReadsTruly zone w.text ↔ ∀ t ∈ found zone w,
      localInputValue (some t) zone p = some w.text ∧
        ∃ d, readOffset (offsetText w.reading t) = some d ∧ wallText p (t + d) = w.text := by
    refine ⟨fun h t ht => ?_, fun h repeated t offset twice hok => ?_⟩
    · obtain ⟨repeated, twice, hok⟩ := exists_readLocalInput w ht
      obtain ⟨q, hq, hshows⟩ := h _ _ _ _ hok
      rw [w.length_text] at hq
      obtain rfl := Precision.length_injective hq
      exact hshows
    · obtain ⟨q, v, htext, ht, rfl⟩ := found_of_readLocalInput hok
      have hparse := congrArg parseWall htext
      have hlength := congrArg List.length htext
      rw [parseWall_text, parseWall_text, Option.some.injEq] at hparse
      rw [w.length_text, v.length_text] at hlength
      obtain rfl := Precision.length_injective hlength
      rw [← hparse]
      have hsame : found zone v = found zone w := by rw [found, found, hparse]
      exact ⟨p, w.length_text.symm, h t (hsame ▸ ht)⟩
  rw [hreads]
  by_cases hplain : firstPlain ≤ w.reading
  · rw [or_iff_left (fun hshort => absurd hplain (not_le.mpr hshort.1)), and_iff_right hplain]
    refine ⟨fun h t ht htried => ?_, fun h t ht => ?_⟩
    · have hmem := (mem_found (w := w) hplain).mpr ⟨ht, htried⟩
      exact (shows_of_found hplain hmem).2.mp (h t hmem).2
    · obtain ⟨hshows, hoffset⟩ := shows_of_found hplain ht
      obtain ⟨ht', htried⟩ := (mem_found hplain).mp ht
      exact ⟨hshows, hoffset.mpr (h t ht' htried)⟩
  · have hshort := not_le.mp hplain
    have hcentury : firstPlain + msPerDay + msPerDay ≤ startOfYear 1900 := by decide
    have hlate := startOfYear_le_dateUTC w.first hshort
    rw [or_iff_right (fun hlong => absurd hlong.1 hplain), and_iff_right hshort,
      ← candidates_eq_nil_iff (by omega) (dateUTC_whole _), List.eq_nil_iff_forall_not_mem]
    refine ⟨fun h t ht => ?_, fun h t ht => absurd ht (h t)⟩
    exact not_shows_of_found hshort ht p (h t ht).1

/-- **When a whole minute is recovered** from the value it prefills. -/
theorem recovered_of_minute {t : ℤ} (ht : t % 60000 = 0) : Recovered zone t ↔
    (firstPlain ≤ zone.reading t ∧ zone.reading t < startOfYear 10000) ∧
      zone.offset t % 60000 = 0 ∧ Tried zone (zone.reading t) (zone.offset t) := by
  have hfirst : startOfYear 0 ≤ firstPlain := by decide
  refine ⟨?_, ?_⟩
  · rintro ⟨value, hvalue, repeated, offset, twice, hok⟩
    obtain ⟨p, w, rfl, hmem, -⟩ := found_of_readLocalInput hok
    by_cases hplain : firstPlain ≤ w.reading
    · obtain ⟨hreads, htried⟩ := (mem_found hplain).mp hmem
      have hlast := w.last
      have hwhole := w.whole_seconds
      rw [hreads]
      refine ⟨⟨hplain, hlast⟩, ?_, htried⟩
      -- the value is the text of the minute, so that the time it is read as is a whole minute
      rw [localInputValue_reading (by omega) (by omega), hreads, hwhole, sub_zero] at hvalue
      have hlength := congrArg List.length (Option.some.inj hvalue)
      rw [w.length_text, length_wallText w.first w.last] at hlength
      obtain rfl := Precision.length_injective hlength
      have hminute : w.reading % 60000 = 0 := w.whole
      unfold TimeZone.reading at hreads
      omega
    · exact absurd hvalue (not_shows_of_found (not_le.mp hplain) hmem _)
  · rintro ⟨⟨hplain, hlast⟩, hminutes, htried⟩
    have hwhole : zone.reading t % 60000 = 0 := by
      unfold TimeZone.reading
      omega
    let w : WallTime .minute := ⟨zone.reading t, hfirst.trans hplain, hlast, hwhole⟩
    have hmem : t ∈ found zone w := (mem_found hplain).mpr ⟨rfl, htried⟩
    obtain ⟨repeated, twice, hok⟩ := exists_readLocalInput w hmem
    exact ⟨w.text, (shows_of_found hplain hmem).1, repeated, _, twice, hok⟩

/-- **When the reading of values and the prefilling with instants agree.** A value is read truly
when it is no valid wall time, or has a year of more than two digits and no instant that is found
for it has an offset with seconds, or has a year of two digits and the twentieth century skips
it. A whole minute is recovered when its clock shows a year of three or four digits, it has an
offset of whole minutes, and that is one of those tried. -/
theorem localInput_iff (zone : TimeZone) :
    (∀ value, ReadsTruly zone value ↔ ∀ (p : Precision) (w : WallTime p), value = w.text →
      firstPlain ≤ w.reading ∧ WholeMinutes zone w.reading ∨
        w.reading < firstPlain ∧ Skipped zone (dateUTC (fieldsOf w.reading))) ∧
      ∀ t, t % 60000 = 0 → (Recovered zone t ↔
        (firstPlain ≤ zone.reading t ∧ zone.reading t < startOfYear 10000) ∧
          zone.offset t % 60000 = 0 ∧ Tried zone (zone.reading t) (zone.offset t)) := by
  refine ⟨fun value => ⟨?_, fun h => ?_⟩, fun t ht => recovered_of_minute ht⟩
  · rintro h p w rfl
    exact (readsTruly_text_iff w).mp h
  · intro repeated t offset twice hok
    obtain ⟨p, w, rfl, -⟩ := found_of_readLocalInput hok
    exact (readsTruly_text_iff w).mpr (h p w rfl) repeated t offset twice hok

/-- The clocks of Sofia while they showed the mean time of Constantinople. -/
def meanTime : TimeZone where
  offset _ := 7016000
  whole_seconds _ := rfl
  lower _ := by decide
  upper _ := by decide

/-- Noon of the first day of 1890. -/
def noon : WallTime .minute where
  reading := Fields.time ⟨1890, 1, 1, 12, 0, 0⟩
  first := by decide
  last := by decide
  whole := by decide

/-- **What is not read truly.** Noon of the year 50 is accepted as an instant that prefills noon
of the year 1950. While the clocks had an offset with seconds, noon is accepted with a text that
is no offset, and no whole minute is recovered. -/
theorem not_readsTruly_early :
    (readLocalInput early.text utc .reject = .ok (Fields.time ⟨1950, 6, 1, 12, 0, 0⟩)
        (offsetText early.reading (Fields.time ⟨1950, 6, 1, 12, 0, 0⟩)) false ∧
      localInputValue (some (Fields.time ⟨1950, 6, 1, 12, 0, 0⟩)) utc .minute
        = some "1950-06-01T12:00".toList ∧ ¬ ReadsTruly utc early.text) ∧
      (readLocalInput noon.text meanTime .reject = .ok (noon.reading - 7016000)
        "+01:56.93333333333334".toList false ∧ ¬ ReadsTruly meanTime noon.text) ∧
      ¬ Recovered meanTime noon.reading := by
  refine ⟨⟨?_, by decide +kernel, fun h => ?_⟩, ⟨?_, fun h => ?_⟩, fun h => ?_⟩
  · rw [readLocalInput_text]
    decide +kernel
  · obtain ⟨hplain, -⟩ | ⟨-, hskipped⟩ := (readsTruly_text_iff early).mp h
    · exact absurd hplain (by decide)
    · exact absurd hskipped.1 (by decide)
  · rw [readLocalInput_text]
    decide +kernel
  · obtain ⟨-, hminutes⟩ | ⟨hshort, -⟩ := (readsTruly_text_iff noon).mp h
    · have hread : meanTime.reading (noon.reading - 7016000) = noon.reading := by decide
      exact absurd (hminutes _ hread (.inl rfl)) (by decide)
    · exact absurd hshort (by decide)
  · exact absurd ((recovered_of_minute (by decide)).mp h).2.1 (by decide)

/-- Of the night in which an hour comes twice, a value and both its instants agree. -/
theorem localInput_half : ReadsTruly autumn half.text ∧
    Recovered autumn (Fields.time ⟨2026, 10, 25, 0, 30, 0⟩) ∧
      Recovered autumn (Fields.time ⟨2026, 10, 25, 1, 30, 0⟩) := by
  refine ⟨((localInput_iff autumn).1 half.text).mpr (fun p w htext => .inl ⟨?_, fun t _ _ => ?_⟩),
    ((localInput_iff autumn).2 _ (by decide)).mpr ⟨by decide, by decide, .inr (by decide)⟩,
    ((localInput_iff autumn).2 _ (by decide)).mpr ⟨by decide, by decide, .inl (by decide)⟩⟩
  · have hparse := congrArg parseWall htext
    rw [parseWall_text, parseWall_text, Option.some.injEq] at hparse
    rw [← hparse]
    decide
  · show (if t < _ then (10800000 : ℤ) else 7200000) % 60000 = 0
    split_ifs <;> rfl

end LocalTime
