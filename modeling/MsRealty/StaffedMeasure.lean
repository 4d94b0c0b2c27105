import MsRealty.StaffedTime

/-!
# Staffed time is a measure

What the staffed duration of an interval is, instant by instant: an instant is staffed if
the time on the wall lies in a window of the date on the wall. A known duration is the
number of the staffed milliseconds of the interval, so it splits at every instant.

The reader looks at the dates of the two ends, as texts. These are in the order of the
dates while years have four digits. Years of another length, or before our era, may look
as if they were between the bounds of a calendar; what the reader says is right exactly
where that does not happen.
-/

namespace OperatingPolicy

open Instants

variable {sofia : SofiaClock} {calendar : ServiceCalendar}

/-! ## Instants -/

/-- The time of day on the wall, in milliseconds. -/
def wallMs (sofia : SofiaClock) (instant : ℤ) : ℤ :=
  sofia.hourOfDay instant * hourMs + instant % hourMs

/-- The windows of a date: those of its exception if it is one, else those of its day of
the week. -/
def windowsOn (calendar : ServiceCalendar) (date : CivilDate) : Option Intervals :=
  match calendar.exceptions.find? (fun e => e.date.date = date) with
  | some e => e.intervals
  | none => calendar.weekly.on (weekdayOf date)

/-- Whether a time of day lies in one of some windows. -/
def inWindows (windows : Option Intervals) (ms : ℤ) : Bool :=
  windows.any (fun i => i.rows.any (fun w => decide (w.first.ms ≤ ms ∧ ms < w.last.ms)))

/-- **An instant is staffed.** -/
def isStaffed (sofia : SofiaClock) (calendar : ServiceCalendar) (instant : ℤ) : Bool :=
  inWindows (windowsOn calendar (sofia.date instant)) (wallMs sofia instant)

/-- The date on the wall was reviewed. -/
def InRange (sofia : SofiaClock) (calendar : ServiceCalendar) (instant : ℤ) : Prop :=
  calendar.validFrom.date.days ≤ sofia.wallDay instant ∧
    sofia.wallDay instant ≤ calendar.validUntil.date.days

/-- **What a reader should say** of an interval and of its two parts. -/
structure IsMeasure (sofia : SofiaClock) (calendar : ServiceCalendar)
    (duration : ℤ → ℤ → CalendarDuration) (a b c : ℤ) : Prop where
  /-- It is known of the whole when it is known of both parts. -/
  split : (∃ m, duration a c = .known m) ↔
    (∃ m, duration a b = .known m) ∧ ∃ m, duration b c = .known m
  /-- The whole is the sum of the parts. -/
  sum : ∀ m m₁ m₂, duration a c = .known m → duration a b = .known m₁ →
    duration b c = .known m₂ → m = m₁ + m₂
  /-- What is known is the length of the staffed instants. -/
  length : ∀ m, duration a c = .known m →
    0 ≤ m ∧ m ≤ c - a ∧ m = length (isStaffed sofia calendar) a c
  /-- It is unknown when a date of the interval was not reviewed, or has no windows. -/
  unknown : (∃ reason, duration a c = .unknown reason) ↔
    ∃ t, a ≤ t ∧ t < c ∧
      (¬InRange sofia calendar t ∨ windowsOn calendar (sofia.date t) = none)

/-! ## Hours -/

theorem hourMs_pos : 0 < hourMs := by decide

theorem hourStart_le (t : ℤ) : t / hourMs * hourMs ≤ t := Int.ediv_mul_le t (by decide)

theorem lt_hourStart_add (t : ℤ) : t < t / hourMs * hourMs + hourMs := by
  have := Int.emod_lt_of_pos t hourMs_pos
  have := Int.emod_add_ediv_mul t hourMs
  omega

theorem hour_of_mem {k t : ℤ} (hle : k * hourMs ≤ t) (hlt : t < k * hourMs + hourMs) :
    t / hourMs = k := by
  unfold hourMs at *
  omega

/-- **The parts are those of the hour.** -/
theorem parts_hourStart (sofia : SofiaClock) (t : ℤ) :
    parts sofia (t / hourMs * hourMs) = parts sofia t := by
  have hsame : t / hourMs * hourMs / hourMs = t / hourMs := Int.mul_ediv_cancel _ (by decide)
  unfold parts SofiaClock.date SofiaClock.wallDay SofiaClock.hourOfDay
  rw [hsame]

/-- The hours of the walk. -/
theorem mem_hourStarts {since till h : ℤ} :
    h ∈ hourStarts since till ↔
      ∃ k, h = k * hourMs ∧ since / hourMs ≤ k ∧ k * hourMs < till := by
  unfold hourStarts
  simp only [List.mem_map, List.mem_range]
  unfold hourMs
  constructor
  · rintro ⟨i, hi, rfl⟩
    exact ⟨since / 3600000 + i, by ring, by omega, by omega⟩
  · rintro ⟨k, rfl, hle, hlt⟩
    exact ⟨(k - since / 3600000).toNat, by omega, by omega⟩

/-- **The walk visits the hours of the interval** and no others. -/
theorem forall_hourStarts {since till : ℤ} (h : since < till) {P : Parts → Prop} :
    (∀ hour ∈ hourStarts since till, P (parts sofia hour)) ↔
      ∀ t, since ≤ t → t < till → P (parts sofia t) := by
  constructor
  · intro hall t hsince htill
    rw [← parts_hourStart]
    have hle : since / hourMs ≤ t / hourMs := Int.ediv_le_ediv hourMs_pos hsince
    exact hall _ (mem_hourStarts.mpr ⟨_, rfl, hle, lt_of_le_of_lt (hourStart_le t) htill⟩)
  · intro hall hour hmem
    obtain ⟨k, rfl, hle, hlt⟩ := mem_hourStarts.mp hmem
    have hnext := lt_hourStart_add since
    have hk : since / hourMs * hourMs ≤ k * hourMs :=
      Int.mul_le_mul_of_nonneg_right hle hourMs_pos.le
    have hhour : max since (k * hourMs) / hourMs = k := by
      refine hour_of_mem (le_max_right _ _) (max_lt ?_ ?_)
      · omega
      · have := hourMs_pos
        omega
    have hparts := hall (max since (k * hourMs)) (le_max_left _ _) (max_lt h hlt)
    rwa [← parts_hourStart, hhour] at hparts

/-! ## One hour -/

theorem Interval.ms_le (w : Interval) : w.first.ms ≤ w.last.ms := Clock.ms_le_of_text_le w.lt.le

/-- One window ends before another begins. -/
def Before (v w : Interval) : Prop := v.last.ms ≤ w.first.ms

instance : Trans Before Before Before :=
  ⟨fun {_ w _} (hvw : _ ≤ _) (hwx : _ ≤ _) => hvw.trans (w.ms_le.trans hwx)⟩

theorem Intervals.disjoint (i : Intervals) : i.rows.Pairwise Before :=
  List.isChain_iff_pairwise.mp (i.ordered.imp (fun _ _ h => Clock.ms_le_of_text_le h))

/-- A window as instants of an hour whose time of day on the wall is known. -/
def shifted (hour localHour : ℤ) (w : Interval) : ℤ × ℤ :=
  (hour + (w.first.ms - localHour), hour + (w.last.ms - localHour))

/-- **What one hour adds** is what the windows cover of it. -/
theorem sliceMs_eq (since till hour localHour : ℤ) (i : Intervals) :
    sliceMs since till hour localHour i.rows
      = length (fun t => (i.rows.map (shifted hour localHour)).any (inWindow · t))
        (max since hour) (min till (hour + hourMs)) := by
  have hdisjoint : (i.rows.map (shifted hour localHour)).Pairwise (fun v w => v.2 ≤ w.1) := by
    refine List.pairwise_map.mpr (i.disjoint.imp (fun {v w} h => ?_))
    have hvw : v.last.ms ≤ w.first.ms := h
    show hour + (v.last.ms - localHour) ≤ hour + (w.first.ms - localHour)
    omega
  rw [length_windows hdisjoint, sliceMs, List.map_map]
  have hrow : ∀ w : Interval, max 0 (min till (hour + min hourMs (w.last.ms - localHour))
      - max since (hour + max 0 (w.first.ms - localHour)))
      = (((min (min till (hour + hourMs)) (shifted hour localHour w).2
        - max (max since hour) (shifted hour localHour w).1).toNat : ℕ) : ℤ) := by
    intro w
    unfold shifted
    dsimp only
    omega
  induction i.rows with
  | nil => rfl
  | cons w rows ih =>
    rw [List.map_cons, List.map_cons, List.sum_cons, List.sum_cons, Int.natCast_add, ih]
    exact congrArg (· + _) (hrow w)

/-- The windows that the walk finds, by the text of the date. -/
def staffedByText (sofia : SofiaClock) (calendar : ServiceCalendar) (instant : ℤ) : Bool :=
  inWindows (windowsAt calendar (parts sofia instant)) (wallMs sofia instant)

/-- **What the walk adds in an hour** is the length of its staffed instants. -/
theorem slice_eq_length {since till hour k : ℤ} (hhour : hour = k * hourMs) {i : Intervals}
    (hwindows : windowsAt calendar (parts sofia hour) = some i) :
    sliceMs since till hour ((parts sofia hour).hour * hourMs) i.rows
      = blockLength (staffedByText sofia calendar) since till hourMs hour := by
  rw [sliceMs_eq, blockLength]
  refine congrArg Nat.cast (length_congr (fun t hle hlt => ?_))
  have hk : t / hourMs = k :=
    hour_of_mem (le_trans (le_of_eq hhour.symm) (le_trans (le_max_right _ _) hle))
      (lt_of_lt_of_le hlt (le_trans (min_le_right _ _) (le_of_eq (by rw [hhour]))))
  have hstart : t / hourMs * hourMs = hour := by rw [hk, hhour]
  have hparts : parts sofia t = parts sofia hour := by rw [← hstart, parts_hourStart]
  have hwall : wallMs sofia t = (parts sofia hour).hour * hourMs + (t - hour) := by
    have hmod := Int.emod_add_ediv_mul t hourMs
    have hof : sofia.hourOfDay t = (parts sofia hour).hour := congrArg Parts.hour hparts
    rw [wallMs, hof]
    omega
  rw [staffedByText, hparts, hwindows, inWindows, Option.any_some, List.any_map, hwall]
  refine congrArg i.rows.any (funext fun w => ?_)
  show decide (_ ≤ _ ∧ _ < _) = decide _
  refine decide_eq_decide.mpr ?_
  unfold shifted
  dsimp only
  omega

/-! ## The walk -/

/-- **What a walk answers**: the sum over its hours, if all have windows. -/
theorem walk_eq (sofia : SofiaClock) (calendar : ServiceCalendar) (since till : ℤ) :
    ∀ (hours : List ℤ) (ms : ℤ),
      (∀ hour ∈ hours, ∃ k, hour = k * hourMs) →
      walk sofia calendar since till hours ms
        = if ∀ hour ∈ hours, windowsAt calendar (parts sofia hour) ≠ none then
            .known (ms + ((hours.map
              (blockLength (staffedByText sofia calendar) since till hourMs)).sum : ℕ))
          else .unknown .unknownDay := by
  intro hours
  induction hours with
  | nil =>
    intro ms _
    rw [if_pos (fun _ h => absurd h List.not_mem_nil)]
    exact congrArg CalendarDuration.known (add_zero ms).symm
  | cons hour hours ih =>
    intro ms hwhole
    obtain ⟨⟨k, hk⟩, hwhole⟩ := List.forall_mem_cons.mp hwhole
    rw [walk]
    cases hwindows : windowsAt calendar (parts sofia hour) with
    | none =>
      rw [if_neg]
      exact fun h => h hour List.mem_cons_self hwindows
    | some i =>
      show walk sofia calendar since till hours (ms + sliceMs since till hour _ i.rows) = _
      rw [ih _ hwhole, slice_eq_length hk hwindows]
      have hall : (∀ h ∈ hour :: hours, windowsAt calendar (parts sofia h) ≠ none) ↔
          ∀ h ∈ hours, windowsAt calendar (parts sofia h) ≠ none := by
        rw [List.forall_mem_cons, hwindows]
        simp
      rw [if_congr hall rfl rfl, List.map_cons, List.sum_cons, Nat.cast_add, add_assoc]

/-- The hours of an interval, as the numbers of the blocks they are. -/
theorem sum_hourStarts {since till : ℤ} (h : since < till) (p : ℤ → Bool) :
    ((hourStarts since till).map (blockLength p since till hourMs)).sum = length p since till := by
  rw [hourStarts, List.map_map]
  refine (sum_blockLength p hourMs_pos.le (hourStart_le since) _).trans ?_
  refine congrArg (length p since) (min_eq_left ?_)
  have hstart := hourStart_le since
  have hnext := lt_hourStart_add since
  unfold hourMs at *
  omega

/-- The reader refuses the range of an interval: the text of an end is outside. -/
def Refused (sofia : SofiaClock) (calendar : ServiceCalendar) (since till : ℤ) : Prop :=
  localDate (parts sofia since) < calendar.validFrom.text ∨
    calendar.validUntil.text < localDate (parts sofia (till - 1))

instance (since till : ℤ) : Decidable (Refused sofia calendar since till) :=
  inferInstanceAs (Decidable (_ ∨ _))

/-- A date of the interval has no windows, by its text. -/
def HasUnknownDay (sofia : SofiaClock) (calendar : ServiceCalendar) (since till : ℤ) : Prop :=
  ∃ t, since ≤ t ∧ t < till ∧ windowsAt calendar (parts sofia t) = none

open Classical in
/-- **What the reader says of an interval** of some length. -/
theorem durationBetween_eq {since till : ℤ} (h : since < till) (hshort : till - since ≤ maxInterval) :
    durationBetween sofia calendar since till
      = if Refused sofia calendar since till then .unknown .outsideReviewedCalendar
        else if HasUnknownDay sofia calendar since till then .unknown .unknownDay
        else .known (length (staffedByText sofia calendar) since till) := by
  have hwhole : ∀ hour ∈ hourStarts since till, ∃ k, hour = k * hourMs := fun hour hmem => by
    obtain ⟨k, hk, -, -⟩ := mem_hourStarts.mp hmem
    exact ⟨k, hk⟩
  rw [durationBetween, if_neg (not_lt.mpr h.le), if_neg (not_lt.mpr hshort),
    max_eq_right (by omega : since ≤ till - 1), walk_eq _ _ _ _ _ _ hwhole, sum_hourStarts h,
    zero_add]
  have hunknown : (∀ hour ∈ hourStarts since till,
      windowsAt calendar (parts sofia hour) ≠ none) ↔ ¬HasUnknownDay sofia calendar since till := by
    rw [forall_hourStarts h (P := fun p => windowsAt calendar p ≠ none)]
    unfold HasUnknownDay
    push Not
    rfl
  rw [if_congr hunknown rfl rfl, ite_not]
  rfl

theorem known_iff {since till m : ℤ} (h : since < till) (hshort : till - since ≤ maxInterval) :
    durationBetween sofia calendar since till = .known m ↔
      ¬Refused sofia calendar since till ∧ ¬HasUnknownDay sofia calendar since till ∧
        m = length (staffedByText sofia calendar) since till := by
  rw [durationBetween_eq h hshort]
  split_ifs with hrefused hunknown
  · simp [hrefused]
  · simp [hunknown]
  · simp only [CalendarDuration.known.injEq, hrefused, hunknown, not_false_eq_true, true_and]
    exact eq_comm

theorem exists_known_iff {since till : ℤ} (h : since < till)
    (hshort : till - since ≤ maxInterval) :
    (∃ m, durationBetween sofia calendar since till = .known m) ↔
      ¬Refused sofia calendar since till ∧ ¬HasUnknownDay sofia calendar since till := by
  constructor
  · rintro ⟨m, hm⟩
    have hknown := (known_iff h hshort).mp hm
    exact ⟨hknown.1, hknown.2.1⟩
  · intro hboth
    exact ⟨_, (known_iff h hshort).mpr ⟨hboth.1, hboth.2, rfl⟩⟩

theorem exists_unknown_iff {since till : ℤ} (h : since < till)
    (hshort : till - since ≤ maxInterval) :
    (∃ reason, durationBetween sofia calendar since till = .unknown reason) ↔
      Refused sofia calendar since till ∨ HasUnknownDay sofia calendar since till := by
  rw [durationBetween_eq h hshort]
  split_ifs with hrefused hunknown
  · simp [hrefused]
  · simp [hunknown]
  · simp [hrefused, hunknown]

/-! ## Dates and their texts -/

theorem zeroPad_of_length {w n : ℕ} (h : w ≤ (Nat.toDigits 10 n).length) :
    DecimalText.zeroPad w n = Nat.toDigits 10 n := by
  unfold DecimalText.zeroPad
  rw [Nat.sub_eq_zero_of_le h, List.replicate_zero, List.nil_append]

/-- A year of four digits. -/
def FourDigits (sofia : SofiaClock) (instant : ℤ) : Prop :=
  1000 ≤ (sofia.date instant).year ∧ (sofia.date instant).year ≤ 9999

theorem FourDigits.shortYear {t : ℤ} (h : FourDigits sofia t) : ShortYear (sofia.date t) :=
  ⟨le_trans (by decide) h.1, h.2⟩

/-- **The text of a date of four digits** is that of the calendars. -/
theorem localDate_eq {t : ℤ} (h : FourDigits sofia t) :
    localDate (parts sofia t) = (sofia.date t).isoText 4 := by
  have hyear := h.1
  have hdigits : 4 ≤ (Nat.toDigits 10 (sofia.date t).year.toNat).length := by
    by_contra hlt
    have hle := (Nat.length_toDigits_le_iff (b := 10) (by decide) (by decide)).mp
      (Nat.le_of_lt_succ (not_le.mp hlt))
    omega
  have htext : yearText (sofia.date t).year = Nat.toDigits 10 (sofia.date t).year.toNat := by
    rw [yearText, if_pos (by omega)]
    exact congrArg (Nat.toDigits 10) (by omega)
  unfold localDate parts CivilDate.isoText
  dsimp only
  rw [htext, zeroPad_of_length hdigits]

theorem days_date (t : ℤ) : (sofia.date t).days = sofia.wallDay t := CivilDate.days_ofDays _

/-- A date that was reviewed has a year of four digits. -/
theorem InRange.fourDigits {t : ℤ} (h : InRange sofia calendar t) : FourDigits sofia t := by
  have hfrom := calendar.validFrom.from_2000
  have hto := calendar.validUntil.to_2099
  unfold InRange at h
  rw [← days_date] at h
  constructor
  · refine le_trans (by decide) (le_trans hfrom (not_lt.mp fun hlt => ?_))
    exact absurd (CivilDate.days_lt_of_year_lt hlt) (not_lt.mpr h.1)
  · refine le_trans (not_lt.mp fun hlt => ?_) (le_trans hto (by decide))
    exact absurd (CivilDate.days_lt_of_year_lt hlt) (not_lt.mpr h.2)

/-- **Among years of four digits**, the texts say whether a date was reviewed. -/
theorem inRange_iff {t : ℤ} (h : FourDigits sofia t) :
    InRange sofia calendar t ↔
      ¬localDate (parts sofia t) < calendar.validFrom.text ∧
        ¬calendar.validUntil.text < localDate (parts sofia t) := by
  unfold InRange Day.text
  rw [localDate_eq h, isoText_lt_iff h.shortYear calendar.validFrom.shortYear,
    isoText_lt_iff calendar.validUntil.shortYear h.shortYear, days_date, not_lt, not_lt]

/-- An exception is the only one of its date. -/
theorem find?_reverse_exceptions (text : List Char) :
    calendar.exceptions.reverse.find? (fun e => e.date.text = text)
      = calendar.exceptions.find? (fun e => e.date.text = text) := by
  have hone : ∀ e ∈ calendar.exceptions, ∀ e' ∈ calendar.exceptions,
      e.date.text = text → e'.date.text = text → e = e' := fun e he e' he' ht ht' =>
    List.inj_on_of_nodup_map calendar.within.1 he he' (ht.trans ht'.symm)
  cases h : calendar.exceptions.find? (fun e => e.date.text = text) with
  | none =>
    rw [List.find?_eq_none] at h ⊢
    exact fun e he => h e (List.mem_reverse.mp he)
  | some e =>
    cases h' : calendar.exceptions.reverse.find? (fun e => e.date.text = text) with
    | none =>
      exact absurd (List.find?_some h)
        (List.find?_eq_none.mp h' e (List.mem_reverse.mpr (List.mem_of_find?_eq_some h)))
    | some e' =>
      have he := List.mem_of_find?_eq_some h
      have he' := List.mem_reverse.mp (List.mem_of_find?_eq_some h')
      rw [hone e he e' he' (by simpa using List.find?_some h) (by simpa using List.find?_some h')]

/-- **The windows that the text of a date finds** are those of the date. -/
theorem windowsAt_eq {t : ℤ} (h : FourDigits sofia t) :
    windowsAt calendar (parts sofia t) = windowsOn calendar (sofia.date t) := by
  have hdate : ∀ e : CalendarException,
      e.date.text = localDate (parts sofia t) ↔ e.date.date = sofia.date t := fun e => by
    rw [localDate_eq h]
    exact CivilDate.isoText_inj e.date.shortYear.1 h.shortYear.1
  have hfind : calendar.exceptions.find? (fun e => e.date.text = localDate (parts sofia t))
      = calendar.exceptions.find? (fun e => e.date.date = sofia.date t) :=
    congrArg calendar.exceptions.find? (funext fun e => decide_eq_decide.mpr (hdate e))
  rw [windowsAt, find?_reverse_exceptions, hfind]
  rfl

theorem isStaffed_eq {t : ℤ} (h : FourDigits sofia t) :
    staffedByText sofia calendar t = isStaffed sofia calendar t := by
  rw [staffedByText, isStaffed, windowsAt_eq h]

/-- Dates go forward. -/
theorem wallDay_mono {t u : ℤ} (h : t ≤ u) : sofia.wallDay t ≤ sofia.wallDay u := by
  have hle : t / hourMs ≤ u / hourMs := Int.ediv_le_ediv hourMs_pos h
  obtain ⟨n, hn⟩ := Int.le.dest hle
  unfold SofiaClock.wallDay SofiaClock.wallHour
  rw [← hn]
  clear hn hle h
  induction n with
  | zero => simp
  | succ n ih =>
    refine ih.trans ?_
    have hstep := sofia.date_mono (t / hourMs + n)
    rw [Nat.cast_succ, ← add_assoc]
    exact hstep

/-! ## The measure -/

/-- **Where the reader is right**: every year of the interval has four digits, or the
texts refuse the interval, or a date of it has no windows. -/
def Readable (sofia : SofiaClock) (calendar : ServiceCalendar) (a c : ℤ) : Prop :=
  (∀ t, a ≤ t → t < c → FourDigits sofia t) ∨ Refused sofia calendar a c ∨
    HasUnknownDay sofia calendar a c

/-- An interval that is accepted, and readable, was reviewed throughout. -/
theorem Readable.inRange {a c : ℤ} (h : Readable sofia calendar a c) (hac : a < c)
    (hrefused : ¬Refused sofia calendar a c) (hunknown : ¬HasUnknownDay sofia calendar a c) :
    ∀ t, a ≤ t → t < c → InRange sofia calendar t := by
  have hfour : ∀ t, a ≤ t → t < c → FourDigits sofia t := by
    rcases h with h | h | h
    · exact h
    · exact absurd h hrefused
    · exact absurd h hunknown
  unfold Refused at hrefused
  rw [not_or] at hrefused
  have hfirst := hfour a le_rfl hac
  have hlast := hfour (c - 1) (by omega) (by omega)
  rw [localDate_eq hfirst, Day.text,
    isoText_lt_iff hfirst.shortYear calendar.validFrom.shortYear, localDate_eq hlast, Day.text,
    isoText_lt_iff calendar.validUntil.shortYear hlast.shortYear, days_date, days_date, not_lt,
    not_lt] at hrefused
  exact fun t hat htc => ⟨hrefused.1.trans (wallDay_mono hat),
    (wallDay_mono (by omega)).trans hrefused.2⟩

/-- What was reviewed throughout is not refused. -/
theorem not_refused {x y : ℤ} (hxy : x < y)
    (hin : ∀ t, x ≤ t → t < y → InRange sofia calendar t) : ¬Refused sofia calendar x y := by
  have hend : ∀ t, x ≤ t → t < y → ¬localDate (parts sofia t) < calendar.validFrom.text ∧
      ¬calendar.validUntil.text < localDate (parts sofia t) := fun t hxt hty =>
    (inRange_iff (hin t hxt hty).fourDigits).mp (hin t hxt hty)
  exact fun hr => hr.elim (hend x le_rfl hxy).1 (hend (y - 1) (by omega) (by omega)).2

/-- An unknown day lies in one of the parts. -/
theorem hasUnknownDay_split {a b c : ℤ} (hab : a ≤ b) (hbc : b ≤ c) :
    HasUnknownDay sofia calendar a c ↔
      HasUnknownDay sofia calendar a b ∨ HasUnknownDay sofia calendar b c := by
  constructor
  · rintro ⟨t, hat, htc, hnone⟩
    by_cases htb : t < b
    · exact .inl ⟨t, hat, htb, hnone⟩
    · exact .inr ⟨t, not_lt.mp htb, htc, hnone⟩
  · rintro (⟨t, hat, htb, hnone⟩ | ⟨t, hbt, htc, hnone⟩)
    · exact ⟨t, hat, htb.trans_le hbc, hnone⟩
    · exact ⟨t, hab.trans hbt, htc, hnone⟩

variable {a b c : ℤ}

/-- What is known of the whole is known of the parts, where it was reviewed. -/
theorem known_parts (hab : a < b) (hbc : b < c) (hshort : c - a ≤ maxInterval)
    (hunknown : ¬HasUnknownDay sofia calendar a c)
    (hin : ∀ t, a ≤ t → t < c → InRange sofia calendar t) :
    (∃ m, durationBetween sofia calendar a b = .known m) ∧
      ∃ m, durationBetween sofia calendar b c = .known m := by
  rw [hasUnknownDay_split hab.le hbc.le, not_or] at hunknown
  rw [exists_known_iff hab (by omega), exists_known_iff hbc (by omega)]
  refine ⟨⟨not_refused hab fun t hat htb => ?_, hunknown.1⟩,
    not_refused hbc fun t hbt htc => ?_, hunknown.2⟩
  · exact hin t hat (htb.trans hbc)
  · exact hin t (hab.le.trans hbt) htc

/-- What is known of the parts is known of the whole. -/
theorem known_whole (hab : a < b) (hbc : b < c) (hshort : c - a ≤ maxInterval)
    (h₁ : ∃ m, durationBetween sofia calendar a b = .known m)
    (h₂ : ∃ m, durationBetween sofia calendar b c = .known m) :
    ∃ m, durationBetween sofia calendar a c = .known m := by
  obtain ⟨hr₁, hu₁⟩ := (exists_known_iff hab (by omega)).mp h₁
  obtain ⟨hr₂, hu₂⟩ := (exists_known_iff hbc (by omega)).mp h₂
  refine (exists_known_iff (hab.trans hbc) hshort).mpr ⟨?_, ?_⟩
  · exact fun hr => hr.elim (fun h => hr₁ (.inl h)) (fun h => hr₂ (.inr h))
  · rw [hasUnknownDay_split hab.le hbc.le, not_or]
    exact ⟨hu₁, hu₂⟩

/-- What was reviewed throughout, and has windows throughout, is known. -/
theorem unknown_iff_of_readable (hac : a < c) (hshort : c - a ≤ maxInterval)
    (h : Readable sofia calendar a c) :
    (∃ reason, durationBetween sofia calendar a c = .unknown reason) ↔
      ∃ t, a ≤ t ∧ t < c ∧
        (¬InRange sofia calendar t ∨ windowsOn calendar (sofia.date t) = none) := by
  rw [exists_unknown_iff hac hshort]
  constructor
  · intro hor
    by_contra hall
    push Not at hall
    rcases hor with hrefused | ⟨t, hat, htc, hnone⟩
    · exact not_refused hac (fun t hat htc => (hall t hat htc).1) hrefused
    · rw [windowsAt_eq (hall t hat htc).1.fourDigits] at hnone
      exact (hall t hat htc).2 hnone
  · rintro ⟨t, hat, htc, hwhy⟩
    by_contra hnot
    rw [not_or] at hnot
    have hin := h.inRange hac hnot.1 hnot.2 t hat htc
    rcases hwhy with hout | hnone
    · exact hout hin
    · exact hnot.2 ⟨t, hat, htc, (windowsAt_eq hin.fourDigits).trans hnone⟩

/-- **Where the reader is right**, it measures. -/
theorem isMeasure_of_readable (hab : a < b) (hbc : b < c) (hshort : c - a ≤ maxInterval)
    (h : Readable sofia calendar a c) :
    IsMeasure sofia calendar (durationBetween sofia calendar) a b c := by
  have hac : a < c := hab.trans hbc
  have hinside : ∀ m, durationBetween sofia calendar a c = .known m →
      ∀ t, a ≤ t → t < c → InRange sofia calendar t := fun m hm => by
    have hknown := (known_iff hac hshort).mp hm
    exact h.inRange hac hknown.1 hknown.2.1
  refine ⟨⟨?_, fun hboth => known_whole hab hbc hshort hboth.1 hboth.2⟩, ?_, ?_,
    unknown_iff_of_readable hac hshort h⟩
  · rintro ⟨m, hm⟩
    exact known_parts hab hbc hshort ((known_iff hac hshort).mp hm).2.1 (hinside m hm)
  · intro m m₁ m₂ hm h₁ h₂
    rw [((known_iff hac hshort).mp hm).2.2, ((known_iff hab (by omega)).mp h₁).2.2,
      ((known_iff hbc (by omega)).mp h₂).2.2, length_split hab.le hbc.le, Nat.cast_add]
  · intro m hm
    rw [((known_iff hac hshort).mp hm).2.2]
    refine ⟨Int.natCast_nonneg _, length_le hac.le, congrArg Nat.cast ?_⟩
    exact length_congr (fun t hat htc => isStaffed_eq (hinside m hm t hat htc).fourDigits)

theorem calendarStaffedDuration_eq {value : Option JsonValue}
    (hvalue : serviceCalendarSchema value = some calendar) :
    (fun x y => calendarStaffedDuration sofia value (some x) (some y))
      = durationBetween sofia calendar := by
  funext x y
  rw [calendarStaffedDuration, hvalue]

/-- **Staffed time is a measure**, exactly on what the reader can read. -/
theorem isMeasure_iff (sofia : SofiaClock) {value : Option JsonValue} {calendar : ServiceCalendar}
    (hvalue : serviceCalendarSchema value = some calendar) {a b c : ℤ} (hab : a < b) (hbc : b < c)
    (hshort : c - a ≤ maxInterval) :
    IsMeasure sofia calendar (fun x y => calendarStaffedDuration sofia value (some x) (some y))
      a b c ↔ Readable sofia calendar a c := by
  rw [calendarStaffedDuration_eq hvalue]
  refine ⟨fun h => ?_, isMeasure_of_readable hab hbc hshort⟩
  by_contra hnot
  unfold Readable at hnot
  push Not at hnot
  obtain ⟨⟨t, hat, htc, hfour⟩, hrefused, hunknown⟩ := hnot
  have hsome : ∃ t, a ≤ t ∧ t < c ∧
      (¬InRange sofia calendar t ∨ windowsOn calendar (sofia.date t) = none) :=
    ⟨t, hat, htc, .inl (fun hin => hfour hin.fourDigits)⟩
  exact ((exists_unknown_iff (hab.trans hbc) hshort).mp (h.unknown.mpr hsome)).elim hrefused
    hunknown

/-! ## A sample -/

/-- The last Sunday of a month of 31 days, as a day from 1970. -/
def lastSunday (year : ℤ) (month : ℕ) : ℤ :=
  let last := dayFromYear year + daysBeforeMonth year month + 30
  last - (last + 4) % 7

/-- Whether a UTC hour is in the summer time of Sofia, as the rule is since 1997. -/
def isSummer (hour : ℤ) : Bool :=
  let year := CivilDate.yearOfDay (hour / 24)
  decide (lastSunday year 3 * 24 + 1 ≤ hour ∧ hour < lastSunday year 10 * 24 + 1)

/-- The hours by which the wall clock is ahead. -/
def eetOffset (hour : ℤ) : ℤ := if isSummer hour then 3 else 2

theorem eetOffset_mono (hour : ℤ) :
    (hour + eetOffset hour) / 24 ≤ (hour + 1 + eetOffset (hour + 1)) / 24 := by
  refine Int.ediv_le_ediv (by decide) ?_
  unfold eetOffset
  split <;> split <;> omega

/-- The wall clock of Sofia since 1997. -/
def sampleClock : SofiaClock := ⟨eetOffset, eetOffset_mono⟩

/-- Nine to five. -/
def sampleWindows : JsonValue := .arr [.arr [.str "09:00", .str "17:00"]]

/-- A calendar that was reviewed from 2020 to 2025, staffed from nine to five but for
Sundays and New Year of 2024. -/
def sampleCalendarJson : JsonValue :=
  .obj [("kind", .str "reviewed_calendar_v1"), ("timezone", .str "Europe/Sofia"),
    ("validFrom", .str "2020-01-01"), ("validUntil", .str "2025-12-31"),
    ("weekly", .obj [("mon", sampleWindows), ("tue", sampleWindows), ("wed", sampleWindows),
      ("thu", sampleWindows), ("fri", sampleWindows), ("sat", sampleWindows), ("sun", .arr [])]),
    ("exceptions", .arr [.obj [("date", .str "2024-01-01"), ("intervals", .arr []),
      ("reason", .str "New Year")]]),
    ("sourceReference", .str "Synthetic calendar")]

theorem sampleCalendarJson_valid :
    (serviceCalendarSchema (some sampleCalendarJson)).isSome = true := by
  decide +kernel

/-- The calendar of the sample. -/
def sampleCalendar : ServiceCalendar :=
  (serviceCalendarSchema (some sampleCalendarJson)).get sampleCalendarJson_valid

theorem sampleCalendarJson_eq :
    serviceCalendarSchema (some sampleCalendarJson) = some sampleCalendar :=
  (Option.some_get _).symm

/-- Three instants of the days before and after the clock goes forward in March 2024. -/
theorem isMeasure_iff_sample :
    IsMeasure sampleClock sampleCalendar
        (fun x y => calendarStaffedDuration sampleClock (some sampleCalendarJson) (some x) (some y))
        1711699200000 1711843200000 1711962000123 ↔
      Readable sampleClock sampleCalendar 1711699200000 1711962000123 :=
  isMeasure_iff sampleClock sampleCalendarJson_eq (by decide) (by decide) (by decide)

/-- **A date of the year 20240 passes for one of the calendar.** Its text lies between the
bounds of the calendar, and a day that nobody reviewed has eight staffed hours. -/
theorem far_date_is_staffed :
    serviceCalendarSchema (some sampleCalendarJson) = some sampleCalendar ∧
      calendarStaffedDuration sampleClock (some sampleCalendarJson) (some 576566640000000)
        (some 576566726400000) = .known 28800000 ∧
      (sampleClock.date 576566640000000).year = 20240 ∧
      ¬InRange sampleClock sampleCalendar 576566640000000 := by
  refine ⟨sampleCalendarJson_eq, by decide +kernel, by decide +kernel, ?_⟩
  intro h
  exact absurd h.fourDigits.2 (by decide +kernel)

end OperatingPolicy
