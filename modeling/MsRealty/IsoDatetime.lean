import MsRealty.IsoInstant
import MsRealty.PlainDecimal
import Mathlib.Data.String.Basic

/-!
# The order of instants as texts

The schema of a date and time in UTC – its seconds, and their fraction, may be
missing – and the instant a `Date` has of it: fractions beyond milliseconds are
cut off. Such a text that is not above the ISO text of an instant, compared as
strings are, is not of a later instant (`le_of_text_le`).
-/

namespace IsoInstant

open DecimalText

/-! ## Reading -/

/-- The milliseconds of a fraction of a second. -/
def fractionMs (digits : List Char) : ℕ := Nat.ofDigitChars 10 ((digits ++ ['0', '0']).take 3) 0

/-- Reads a fraction of a second, up to the end. -/
def takeFraction (text : List Char) : Option ℕ :=
  if text.takeWhile Char.isDigit ≠ [] ∧ text.dropWhile Char.isDigit = ['Z'] then
    some (fractionMs (text.takeWhile Char.isDigit))
  else none

/-- Reads what follows the seconds, in milliseconds. -/
def takeSubsecond : List Char → Option ℕ
  | ['Z'] => some 0
  | '.' :: text => takeFraction text
  | _ => none

/-- Reads what follows the minutes, in milliseconds. -/
def takeSubminute : List Char → Option ℕ
  | ['Z'] => some 0
  | ':' :: text => do
    let (second, text) ← takeDigits 2 text
    if second ≤ 59 then (takeSubsecond text).map (fun ms => second * 1000 + ms) else none
  | _ => none

/-- **The instant of a date and time**, if the schema accepts it. -/
def datetime (text : List Char) : Option ℤ := do
  let (year, text) ← takeDigits 4 text
  let text ← takeChar '-' text
  let (month, text) ← takeDigits 2 text
  let text ← takeChar '-' text
  let (day, text) ← takeDigits 2 text
  let text ← takeChar 'T' text
  let (hour, text) ← takeDigits 2 text
  let text ← takeChar ':' text
  let (minute, text) ← takeDigits 2 text
  let ms ← takeSubminute text
  if 1 ≤ month ∧ month ≤ 12 ∧ 1 ≤ day ∧ day ≤ daysInMonth year month ∧ hour ≤ 23
      ∧ minute ≤ 59 then
    some ((dayFromYear year + daysBeforeMonth year month + (day - 1)) * msPerDay
      + (hour * 3600000 + minute * 60000 + ms : ℕ))
  else none

theorem fractionMs_lt {digits : List Char} (h : ∀ c ∈ digits, c.isDigit = true) :
    fractionMs digits < 1000 := by
  have hdigits : ∀ c ∈ (digits ++ ['0', '0']).take 3, c.isDigit = true := by
    intro c hc
    obtain hc | hc := List.mem_append.mp (List.mem_of_mem_take hc)
    · exact h c hc
    · rw [List.eq_of_mem_replicate (n := 2) hc]
      rfl
  refine lt_of_lt_of_le (PlainDecimal.ofDigitChars_lt hdigits) ?_
  exact Nat.pow_le_pow_right (by decide) (List.length_take_le _ _)

theorem takeSubsecond_lt {text : List Char} {ms : ℕ} (h : takeSubsecond text = some ms) :
    ms < 1000 := by
  unfold takeSubsecond at h
  split at h
  · obtain rfl := Option.some.inj h
    decide
  · unfold takeFraction at h
    split_ifs at h
    obtain rfl := Option.some.inj h
    exact fractionMs_lt (fun c hc => List.mem_takeWhile_imp hc)
  · cases h

theorem takeSubminute_lt {text : List Char} {ms : ℕ} (h : takeSubminute text = some ms) :
    ms < 60000 := by
  unfold takeSubminute at h
  split at h
  · obtain rfl := Option.some.inj h
    decide
  · simp only [Option.bind_eq_bind, Option.bind_eq_some_iff] at h
    obtain ⟨⟨second, rest⟩, -, h⟩ := h
    split_ifs at h with hbound
    obtain ⟨sub, hsub, rfl⟩ := Option.map_eq_some_iff.mp h
    have hlt := takeSubsecond_lt hsub
    omega
  · cases h

/-! ## The order of texts -/

theorem digit_lt {c d : Char} (hc : c.isDigit = true) (hd : d.isDigit = true) (h : c < d) :
    c.toNat - '0'.toNat < d.toNat - '0'.toNat := by
  have hc := Char.isDigit_iff_toNat.mp hc
  have hd := Char.isDigit_iff_toNat.mp hd
  have hlt : c.toNat < d.toNat := h
  have hzero : '0'.toNat = 48 := rfl
  omega

/-- A number is below the numbers of as many digits that begin higher. -/
theorem ofDigitChars_lt_of_lt {xs ys : List Char} (hx : ∀ c ∈ xs, c.isDigit = true)
    (hlength : xs.length = ys.length) {m n : ℕ} (h : m < n) :
    Nat.ofDigitChars 10 xs m < Nat.ofDigitChars 10 ys n := by
  have hsmall := PlainDecimal.ofDigitChars_lt hx
  rw [Nat.ofDigitChars_eq_ofDigitChars_zero (l := xs), Nat.ofDigitChars_eq_ofDigitChars_zero (l := ys),
    ← hlength]
  have hpow : 10 ^ xs.length * (m + 1) ≤ 10 ^ xs.length * n := Nat.mul_le_mul_left _ h
  rw [Nat.mul_add] at hpow
  omega

/-- Texts are in the order of their first characters, and then of the rest. -/
theorem cons_le_cons {c d : Char} {a b : List Char} :
    c :: a ≤ d :: b ↔ c < d ∨ c = d ∧ a ≤ b := by
  rw [← not_lt, ← not_lt, List.cons_lt_cons_iff, not_or, not_and, not_lt]
  constructor
  · rintro ⟨hle, h⟩
    obtain hlt | rfl := lt_or_eq_of_le hle
    · exact .inl hlt
    · exact .inr ⟨rfl, h rfl⟩
  · rintro (hlt | ⟨rfl, h⟩)
    · exact ⟨hlt.le, fun heq => absurd heq hlt.ne'⟩
    · exact ⟨le_rfl, fun _ => h⟩

/-- **Texts that begin with as many digits** are in the order of the numbers,
and then of what follows. -/
theorem lt_or_eq_of_append_le {xs ys a b : List Char} (hx : ∀ c ∈ xs, c.isDigit = true)
    (hy : ∀ c ∈ ys, c.isDigit = true) (hlength : xs.length = ys.length) (h : xs ++ a ≤ ys ++ b)
    (n : ℕ) : Nat.ofDigitChars 10 xs n < Nat.ofDigitChars 10 ys n ∨ xs = ys ∧ a ≤ b := by
  induction xs generalizing ys n with
  | nil =>
    obtain rfl := List.length_eq_zero_iff.mp hlength.symm
    exact .inr ⟨rfl, h⟩
  | cons c xs ih =>
    cases ys with
    | nil => cases hlength
    | cons d ys =>
      obtain ⟨hc, hxs⟩ := List.forall_mem_cons.mp hx
      obtain ⟨hd, hys⟩ := List.forall_mem_cons.mp hy
      have hsame := Nat.succ.inj hlength
      rw [List.cons_append, List.cons_append, cons_le_cons] at h
      rw [Nat.ofDigitChars_cons, Nat.ofDigitChars_cons]
      obtain hlt | ⟨hcd, hrest⟩ := h
      · have hdigit := digit_lt hc hd hlt
        exact .inl (ofDigitChars_lt_of_lt hxs hsame (by omega))
      · rw [hcd]
        exact (ih hxs hys hsame hrest _).imp_right (fun h => ⟨congrArg (d :: ·) h.1, h.2⟩)

theorem takeDigits_eq_some {n k : ℕ} {text rest : List Char}
    (h : takeDigits n text = some (k, rest)) : ∃ digits, text = digits ++ rest ∧
      digits.length = n ∧ (∀ c ∈ digits, c.isDigit = true) ∧ Nat.ofDigitChars 10 digits 0 = k := by
  unfold takeDigits at h
  split_ifs at h with hdigits
  obtain ⟨rfl, rfl⟩ := Prod.mk.inj (Option.some.inj h)
  exact ⟨text.take n, (List.take_append_drop n text).symm, hdigits.1,
    List.all_eq_true.mp hdigits.2, rfl⟩

/-- Two texts that begin with a number. -/
theorem takeDigits_le {n x y : ℕ} {a b a' b' : List Char} (ha : takeDigits n a = some (x, a'))
    (hb : takeDigits n b = some (y, b')) (h : a ≤ b) : x < y ∨ x = y ∧ a' ≤ b' := by
  obtain ⟨xs, rfl, hxs, hx, rfl⟩ := takeDigits_eq_some ha
  obtain ⟨ys, rfl, hys, hy, rfl⟩ := takeDigits_eq_some hb
  refine (lt_or_eq_of_append_le hx hy (hxs.trans hys.symm) h 0).imp_right (fun h => ?_)
  exact ⟨congrArg (Nat.ofDigitChars 10 · 0) h.1, h.2⟩

theorem takeChar_eq_some {c : Char} {text rest : List Char} (h : takeChar c text = some rest) :
    text = c :: rest := by
  cases text with
  | nil => cases h
  | cons d text =>
    simp only [takeChar] at h
    split_ifs at h with hc
    rw [hc, Option.some.inj h]

theorem cons_le {c : Char} {a b : List Char} (h : c :: a ≤ c :: b) : a ≤ b := by
  obtain hlt | ⟨-, h⟩ := cons_le_cons.mp h
  · exact absurd hlt (Char.lt_irrefl c)
  · exact h

/-! ## The order of instants -/

/-- **A fraction that is not above three digits** is of no more milliseconds. -/
theorem fractionMs_le {digits ys a b : List Char} (hne : digits ≠ [])
    (hdigits : ∀ c ∈ digits, c.isDigit = true) (hy : ∀ c ∈ ys, c.isDigit = true)
    (hlength : ys.length = 3)
    (h : digits ++ a ≤ ys ++ b) : fractionMs digits ≤ Nat.ofDigitChars 10 ys 0 := by
  -- the digits that count, and as many of the other text
  have hsplit : digits.take 3 ++ (digits.drop 3 ++ a) ≤
      ys.take (digits.take 3).length ++ (ys.drop (digits.take 3).length ++ b) := by
    rwa [← List.append_assoc, ← List.append_assoc, List.take_append_drop, List.take_append_drop]
  have hlengths : (digits.take 3).length = (ys.take (digits.take 3).length).length := by
    rw [List.length_take, List.length_take, hlength]
    omega
  generalize hxs : digits.take 3 = xs at hsplit hlengths
  have hx : ∀ c ∈ xs, c.isDigit = true := fun c hc =>
    hdigits c (List.mem_of_mem_take (hxs ▸ hc))
  have hshort : xs.length ≤ 3 := by
    rw [← hxs, List.length_take]
    exact Nat.min_le_left _ _
  have hpad : fractionMs digits = 10 ^ (3 - xs.length) * Nat.ofDigitChars 10 xs 0 := by
    rw [fractionMs, List.take_append, hxs, Nat.ofDigitChars_append,
      show ['0', '0'] = List.replicate 2 '0' from rfl, List.take_replicate,
      Nat.ofDigitChars_replicate_zero]
    have hpos := List.length_pos_iff.mpr hne
    have hexp : min (3 - digits.length) 2 = 3 - xs.length := by
      rw [← hxs, List.length_take]
      omega
    rw [hexp]
  have hrest : 10 ^ (3 - xs.length) * Nat.ofDigitChars 10 (ys.take xs.length) 0 ≤
      Nat.ofDigitChars 10 ys 0 := by
    conv_rhs => rw [← List.take_append_drop xs.length ys]
    rw [Nat.ofDigitChars_append, Nat.ofDigitChars_eq_ofDigitChars_zero (l := ys.drop _),
      List.length_drop, hlength]
    exact Nat.le_add_right _ _
  rw [hpad]
  refine le_trans (Nat.mul_le_mul_left _ ?_) hrest
  obtain hlt | ⟨heq, -⟩ := lt_or_eq_of_append_le hx
    (fun c hc => hy c (List.mem_of_mem_take hc)) hlengths hsplit 0
  · exact hlt.le
  · exact le_of_eq (congrArg (Nat.ofDigitChars 10 · 0) heq)

theorem takeFraction_le {a b : List Char} {ms m : ℕ} (ha : takeFraction a = some ms)
    (hm : m < 1000) (h : a ≤ zeroPad 3 m ++ b) : ms ≤ m := by
  unfold takeFraction at ha
  split_ifs at ha with hdigits
  obtain rfl := Option.some.inj ha
  rw [← List.takeWhile_append_dropWhile (p := Char.isDigit) (l := a)] at h
  have hle := fractionMs_le hdigits.1 (fun c hc => List.mem_takeWhile_imp hc)
    (fun c hc => isDigit_of_mem_zeroPad hc) (length_zeroPad (by decide) (by omega)) h
  rwa [ofDigitChars_zeroPad] at hle

theorem takeSubsecond_le {a b : List Char} {ms m : ℕ} (ha : takeSubsecond a = some ms)
    (hm : m < 1000) (h : a ≤ '.' :: (zeroPad 3 m ++ b)) : ms ≤ m := by
  unfold takeSubsecond at ha
  split at ha
  · obtain rfl := Option.some.inj ha
    exact Nat.zero_le m
  · exact takeFraction_le ha hm (cons_le h)
  · cases ha

/-- **What follows the minutes**, of a text that is not above. -/
theorem takeSubminute_le {a b : List Char} {ms s m : ℕ} (ha : takeSubminute a = some ms)
    (hs : s < 100) (hm : m < 1000)
    (h : a ≤ ':' :: (zeroPad 2 s ++ '.' :: (zeroPad 3 m ++ b))) : ms ≤ s * 1000 + m := by
  unfold takeSubminute at ha
  split at ha
  · obtain rfl := Option.some.inj ha
    exact Nat.zero_le _
  · next text =>
    simp only [Option.bind_eq_bind, Option.bind_eq_some_iff] at ha
    obtain ⟨⟨second, rest⟩, hsecond, ha⟩ := ha
    split_ifs at ha with hbound
    obtain ⟨sub, hsub, rfl⟩ := Option.map_eq_some_iff.mp ha
    obtain hlt | ⟨rfl, hrest⟩ := takeDigits_le hsecond
      (takeDigits_zeroPad (by decide) (by omega) _) (cons_le h)
    · have hsublt := takeSubsecond_lt hsub
      omega
    · have hle := takeSubsecond_le hsub hm hrest
      omega
  · cases ha

/-- A time of day that begins earlier, or is not above, is not later. -/
theorem time_le {hour minute ms : ℕ} {sub : List Char} {time : ℕ} (htime : time < 86400000)
    (hms : takeSubminute sub = some ms) {text rest : List Char}
    (hhour : takeDigits 2 text = some (hour, ':' :: rest))
    (hminute : takeDigits 2 rest = some (minute, sub)) (hbound : minute ≤ 59)
    (h : text ≤ timeText time) : hour * 3600000 + minute * 60000 + ms ≤ time := by
  have hmslt := takeSubminute_lt hms
  obtain hlt | ⟨rfl, h⟩ := takeDigits_le hhour
    (takeDigits_zeroPad (by decide) (by omega) _) h
  · omega
  obtain hlt | ⟨rfl, h⟩ := takeDigits_le hminute
    (takeDigits_zeroPad (by decide) (by omega) _) (cons_le h)
  · omega
  have hle := takeSubminute_le hms (by omega) (by omega) h
  omega

/-- A text that begins with a digit is above one that begins with a sign. -/
theorem not_digit_le_sign {n k : ℕ} {text rest b : List Char} {sign : Char} (hn : 0 < n)
    (hk : takeDigits n text = some (k, rest)) (hsign : sign.toNat < '0'.toNat) :
    ¬ text ≤ sign :: b := by
  intro h
  obtain ⟨digits, rfl, hlength, hdigits, -⟩ := takeDigits_eq_some hk
  cases digits with
  | nil =>
    rw [← hlength] at hn
    exact absurd hn (Nat.lt_irrefl 0)
  | cons c digits =>
    have hc := Char.isDigit_iff_toNat.mp (hdigits c List.mem_cons_self)
    have hle : c.toNat ≤ sign.toNat := by
      obtain hlt | ⟨rfl, -⟩ := cons_le_cons.mp h
      · exact Nat.le_of_lt hlt
      · exact le_rfl
    omega

/-- A year of four digits is not above a text only if that has such a year. -/
theorem year_of_text_le {text rest a : List Char} {k : ℕ} {year : ℤ}
    (hk : takeDigits 4 text = some (k, rest)) (h : text ≤ yearText year ++ a) :
    ∃ n : ℕ, n < 10000 ∧ year = n ∧ yearText year = zeroPad 4 n := by
  unfold yearText at h ⊢
  split_ifs at h ⊢ with hrange
  · exact ⟨year.natAbs, by omega, by omega, rfl⟩
  · exact absurd h (not_digit_le_sign (by decide) hk (by decide))
  · exact absurd h (not_digit_le_sign (by decide) hk (by decide))

/-- The days of a valid date and the milliseconds of a time come before those of
a later date. -/
theorem instant_le_of_days_lt {days : ℤ} {ms : ℕ} {limit : ℤ} (hms : ms < 86400000)
    (h : days < limit / msPerDay) : days * msPerDay + ms ≤ limit := by
  unfold msPerDay at *
  omega

/-- **A text that is not above the text of an instant** is not of a later
instant. -/
theorem le_of_text_le {text : List Char} {t limit : ℤ} (ht : datetime text = some t)
    (h : text ≤ toISOText limit) : t ≤ limit := by
  simp only [datetime, Option.bind_eq_bind, Option.bind_eq_some_iff, Prod.exists] at ht
  obtain ⟨year, a, hyear, _, ha, month, b, hmonth, _, hb, day, c, hday, _, hc, hour, d, hhour, _,
    hd, minute, e, hminute, ms, hms, ht⟩ := ht
  obtain rfl := takeChar_eq_some ha
  obtain rfl := takeChar_eq_some hb
  obtain rfl := takeChar_eq_some hc
  obtain rfl := takeChar_eq_some hd
  split_ifs at ht with hvalid
  obtain ⟨hmonthpos, hmonthle, hdaypos, hdayle, hhourle, hminutele⟩ := hvalid
  obtain rfl := Option.some.inj ht
  have hmslt := takeSubminute_lt hms
  have htime : hour * 3600000 + minute * 60000 + ms < 86400000 := by omega
  have hlimit := CivilDate.days_ofDays (limit / msPerDay)
  have hrest : (limit % msPerDay).toNat < 86400000 := by unfold msPerDay; omega
  let date : CivilDate := ⟨year, month, day, hmonthpos, hmonthle, hdaypos, hdayle⟩
  unfold toISOText at h
  generalize CivilDate.ofDays (limit / msPerDay) = last at h hlimit
  dsimp only at h
  show date.days * msPerDay + _ ≤ limit
  obtain ⟨n, hn, hlastyear, htext⟩ := year_of_text_le hyear h
  rw [htext] at h
  obtain hlt | ⟨heqyear, h⟩ := takeDigits_le hyear (takeDigits_zeroPad (by decide) (by omega) _) h
  · have hyears : date.year < last.year := by
      rw [hlastyear]
      exact Int.ofNat_lt.mpr hlt
    exact instant_le_of_days_lt htime (hlimit ▸ CivilDate.days_lt_of_year_lt hyears)
  have hyears : date.year = last.year := by
    rw [hlastyear, ← heqyear]
  obtain hlt | ⟨heqmonth, h⟩ := takeDigits_le hmonth (takeDigits_month last _)
    (cons_le h)
  · exact instant_le_of_days_lt htime (hlimit ▸ CivilDate.days_lt_of_month_lt hyears hlt)
  have hmonths : date.month = last.month := heqmonth
  have hdays : date.days = limit / msPerDay - last.day + day := by
    rw [← hlimit, CivilDate.days, CivilDate.days, hyears, hmonths]
    show _ + (day - 1 : ℤ) = _
    omega
  obtain hlt | ⟨heqday, h⟩ := takeDigits_le hday (takeDigits_day last _)
    (cons_le h)
  · exact instant_le_of_days_lt htime (by omega)
  have htimes := time_le hrest hms hhour hminute hminutele (cons_le h)
  rw [hdays, heqday]
  unfold msPerDay at *
  omega

/-! ## Writing and reading -/

/-- The last instant of the year 9999. -/
def lastInstant : ℤ := 253402300799999

theorem takeSubsecond_zeroPad {ms : ℕ} (h : ms < 1000) :
    takeSubsecond ('.' :: (zeroPad 3 ms ++ ['Z'])) = some ms := by
  have hdigits : ∀ c ∈ zeroPad 3 ms, c.isDigit = true := fun c hc => isDigit_of_mem_zeroPad hc
  have hlength : (zeroPad 3 ms).length = 3 := length_zeroPad (by decide) h
  have hrest : NoDigit ['Z'] := by
    rintro c ⟨⟩
    rfl
  have hne : zeroPad 3 ms ≠ [] := by
    intro hnil
    rw [hnil] at hlength
    cases hlength
  rw [takeSubsecond, takeFraction, takeWhile_digits hdigits hrest, dropWhile_digits hdigits hrest,
    if_pos ⟨hne, rfl⟩, fractionMs, List.take_left' hlength, ofDigitChars_zeroPad]

/-- Instants from 1970 to the end of 9999 have years of four digits. -/
theorem year_bounds {t : ℤ} (hfirst : 0 ≤ t) (hlast : t ≤ lastInstant) :
    0 ≤ (CivilDate.ofDays (t / msPerDay)).year ∧ (CivilDate.ofDays (t / msPerDay)).year ≤ 9999 := by
  have hle := CivilDate.dayFromYear_yearOfDay_le (t / msPerDay)
  have hlt := CivilDate.lt_dayFromYear_yearOfDay_succ (t / msPerDay)
  show 0 ≤ CivilDate.yearOfDay (t / msPerDay) ∧ CivilDate.yearOfDay (t / msPerDay) ≤ 9999
  unfold lastInstant at hlast
  unfold dayFromYear msPerDay at *
  omega

/-- **The text of an instant is a date and time**, while its year has four digits. -/
theorem datetime_toISOText {t : ℤ} (hfirst : 0 ≤ t) (hlast : t ≤ lastInstant) :
    datetime (toISOText t) = some t := by
  have hdate := CivilDate.days_ofDays (t / msPerDay)
  obtain ⟨hyear, hyear'⟩ := year_bounds hfirst hlast
  unfold toISOText
  generalize CivilDate.ofDays (t / msPerDay) = date at *
  have hms : (t % msPerDay).toNat < 86400000 := by unfold msPerDay; omega
  have hyearText : yearText date.year = zeroPad 4 date.year.natAbs := if_pos ⟨hyear, hyear'⟩
  have hnat : (date.year.natAbs : ℤ) = date.year := Int.natAbs_of_nonneg hyear
  have hmsOf : ((t % msPerDay).toNat : ℤ) = t % msPerDay :=
    Int.toNat_of_nonneg (Int.emod_nonneg _ (by decide))
  generalize (t % msPerDay).toNat = ms at *
  have hsubsecond := takeSubsecond_zeroPad (Nat.mod_lt ms (by decide : 0 < 1000))
  unfold datetime timeText
  simp only [hyearText, takeDigits_zeroPad (n := 4) (k := date.year.natAbs) (by decide) (by omega),
    takeDigits_month, takeDigits_day, takeDigits_hour _ hms, takeDigits_minute, takeDigits_second,
    takeSubminute, hsubsecond, takeChar_cons, Option.bind_eq_bind, Option.bind_some,
    if_pos (by omega : ms / 1000 % 60 ≤ 59), Option.map_some]
  rw [hnat, if_pos ⟨date.month_pos, date.month_le, date.day_pos, date.day_le, by omega, by omega⟩]
  refine congrArg some (Eq.trans ?_ (days_mul_add hdate))
  rw [← hmsOf]
  congr 2
  omega

end IsoInstant
