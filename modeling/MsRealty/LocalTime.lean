import MsRealty.WallClock

/-!
# Local times

A local time is a wall time without an offset: the instants at which the clock
of a zone reads it are none, when the clocks skip it, one, or two, when they
go back (`resolveLocalTime`).

For a zone whose offset changes at most once within a day of the time, the
instants are found and all of them, except that a year of two digits is
mistaken for one of the twentieth century (`resolvesTruly_iff`).
-/

namespace LocalTime

open IsoInstant DecimalText WallClock

/-! ## The text of a wall time -/

/-- How finely a wall time is written. -/
inductive Precision where
  | minute
  | second
  deriving DecidableEq

/-- The characters of a wall time. -/
def Precision.length : Precision → ℕ
  | .minute => 16
  | .second => 19

/-- The milliseconds of the last place. -/
def Precision.unit : Precision → ℤ
  | .minute => 60000
  | .second => 1000

/-- **A valid wall time**: a whole minute or second of a year of four digits. -/
structure WallTime (p : Precision) where
  reading : ℤ
  first : startOfYear 0 ≤ reading
  last : reading < startOfYear 10000
  whole : reading % p.unit = 0

/-- The text of a reading. -/
def wallText (p : Precision) (reading : ℤ) : List Char := (toISOText reading).take p.length

/-- The text of a wall time. -/
def WallTime.text {p : Precision} (w : WallTime p) : List Char := wallText p w.reading

/-- Reads seconds, if there are any, up to the end. -/
def takeSeconds : List Char → Option ℕ
  | [] => some 0
  | c :: rest => do
    let (second, rest) ← takeDigits 2 rest
    if c = ':' ∧ rest = [] then some second else none

/-- `localPattern`: the fields of a local time, `YYYY-MM-DDTHH:mm[:ss]`, which need not be
those of any time. -/
def localFields (text : List Char) : Option Fields := do
  let (year, text) ← takeDigits 4 text
  let text ← takeChar '-' text
  let (month, text) ← takeDigits 2 text
  let text ← takeChar '-' text
  let (day, text) ← takeDigits 2 text
  let text ← takeChar 'T' text
  let (hour, text) ← takeDigits 2 text
  let text ← takeChar ':' text
  let (minute, text) ← takeDigits 2 text
  let second ← takeSeconds text
  some ⟨year, month, day, hour, minute, second⟩

/-! ## Resolution -/

/-- Which occurrence of a time that occurs twice is meant. -/
inductive Occurrence where
  | earlier
  | later

/-- **What a local time is resolved to.** The instants are ISO texts (`toISOText`), here the
times they are read as. -/
inductive Resolution where
  | resolved (instant : ℤ)
  | nonexistent
  | ambiguous (earlier later : ℤ)
  deriving DecidableEq

/-- The answer that some instants make. -/
def answer (instants : List ℤ) (choose : Option Occurrence) : Resolution :=
  match instants, choose with
  | [], _ => .nonexistent
  | [instant], _ => .resolved instant
  | earlier :: _ :: _, some .earlier => .resolved earlier
  | _ :: later :: _, some .later => .resolved later
  | earlier :: later :: _, none => .ambiguous earlier later

/-- **`resolveLocalTime`**; a text that is no local time is an error. -/
def resolveLocalTime (text : List Char) (zone : TimeZone) (choose : Option Occurrence) :
    Option Resolution :=
  (localFields text).map (fun f => answer (candidates zone (dateUTC f)) choose)

/-! ## Reading the text of a wall time -/

/-- The milliseconds of the day. -/
def msOf (w : ℤ) : ℕ := (w % msPerDay).toNat

/-- The text of a reading, to the minute. -/
def clockText (w : ℤ) : List Char :=
  let date := CivilDate.ofDays (w / msPerDay)
  zeroPad 4 date.year.natAbs ++ '-' :: (zeroPad 2 date.month ++ '-' :: (zeroPad 2 date.day
    ++ 'T' :: (zeroPad 2 (msOf w / 3600000) ++ ':' :: zeroPad 2 (msOf w / 60000 % 60))))

/-- The year of a reading of four digits. -/
theorem year_bounds {w : ℤ} (hfirst : startOfYear 0 ≤ w) (hlast : w < startOfYear 10000) :
    0 ≤ (CivilDate.ofDays (w / msPerDay)).year ∧
      (CivilDate.ofDays (w / msPerDay)).year ≤ 9999 := by
  have hpos := le_year_fieldsOf.mpr hfirst
  have hlate : ¬ 10000 ≤ (fieldsOf w).year := fun h =>
    absurd (le_year_fieldsOf.mp h) (not_le.mpr hlast)
  have hyear : (fieldsOf w).year = (CivilDate.ofDays (w / msPerDay)).year := rfl
  rw [hyear] at hpos hlate
  omega

/-- The text of an instant in such a year. -/
theorem toISOText_eq {w : ℤ} (hfirst : startOfYear 0 ≤ w) (hlast : w < startOfYear 10000) :
    toISOText w = clockText w ++ ':' :: (zeroPad 2 (msOf w / 1000 % 60)
      ++ '.' :: (zeroPad 3 (msOf w % 1000) ++ ['Z'])) := by
  unfold toISOText clockText timeText yearText msOf
  dsimp only
  rw [if_pos (year_bounds hfirst hlast)]
  simp only [List.append_assoc, List.cons_append]

theorem msOf_lt (w : ℤ) : msOf w < 86400000 := by
  unfold msOf msPerDay
  omega

theorem length_clockText {w : ℤ} (hfirst : startOfYear 0 ≤ w) (hlast : w < startOfYear 10000) :
    (clockText w).length = 16 := by
  obtain ⟨hpos, hlate⟩ := year_bounds hfirst hlast
  unfold clockText
  generalize CivilDate.ofDays (w / msPerDay) = date at *
  simp only [List.length_append, List.length_cons,
    length_zeroPad (w := 4) (n := date.year.natAbs) (by decide) (by omega),
    CivilDate.length_month, CivilDate.length_day, length_hour (msOf_lt w), length_minute]

theorem wallText_minute {w : ℤ} (hfirst : startOfYear 0 ≤ w) (hlast : w < startOfYear 10000) :
    wallText .minute w = clockText w := by
  rw [wallText, toISOText_eq hfirst hlast]
  exact List.take_left' (length_clockText hfirst hlast)

theorem wallText_second {w : ℤ} (hfirst : startOfYear 0 ≤ w) (hlast : w < startOfYear 10000) :
    wallText .second w = clockText w ++ ':' :: zeroPad 2 (msOf w / 1000 % 60) := by
  have hlength : (clockText w ++ ':' :: zeroPad 2 (msOf w / 1000 % 60)).length = 19 := by
    rw [List.length_append, length_clockText hfirst hlast, List.length_cons,
      length_zeroPad (by decide) (by omega)]
  have htext : toISOText w = (clockText w ++ ':' :: zeroPad 2 (msOf w / 1000 % 60))
      ++ '.' :: (zeroPad 3 (msOf w % 1000) ++ ['Z']) := by
    rw [toISOText_eq hfirst hlast, List.append_assoc, List.cons_append]
  rw [wallText, htext]
  exact List.take_left' hlength

/-- **The fields of a reading are read back** from its text. -/
theorem localFields_clockText {w : ℤ} (hfirst : startOfYear 0 ≤ w)
    (hlast : w < startOfYear 10000) (rest : List Char) :
    localFields (clockText w ++ rest)
      = (takeSeconds rest).map (fun second => { fieldsOf w with second := second }) := by
  obtain ⟨hpos, hlate⟩ := year_bounds hfirst hlast
  have hmod : w % msPerDay = msOf w := by unfold msOf msPerDay; omega
  unfold clockText fieldsOf
  rw [hmod]
  dsimp only
  generalize CivilDate.ofDays (w / msPerDay) = date at *
  have hyear : (date.year.natAbs : ℤ) = date.year := by omega
  simp only [localFields, List.append_assoc, List.cons_append,
    takeDigits_zeroPad (n := 4) (k := date.year.natAbs) (by decide) (by omega),
    takeDigits_month, takeDigits_day, takeDigits_hour _ (msOf_lt w), takeDigits_minute,
    takeChar_cons, Option.bind_eq_bind, Option.bind_some, hyear]
  cases takeSeconds rest with
  | none => rfl
  | some second =>
    rw [Option.bind_some, Option.map_some]
    rfl

variable {p : Precision} (w : WallTime p)

theorem WallTime.whole_seconds : w.reading % 1000 = 0 := by
  have hwhole := w.whole
  cases p with
  | minute =>
    have hunit : w.reading % 60000 = 0 := hwhole
    omega
  | second => exact hwhole

/-- **A wall time is read back from its text.** -/
theorem localFields_text : localFields w.text = some (fieldsOf w.reading) := by
  have hms := msOf_lt w.reading
  have hmod : w.reading % msPerDay = msOf w.reading := by unfold msOf msPerDay; omega
  have hsecond (n : ℕ) (hn : n = msOf w.reading / 1000 % 60) :
      ({ fieldsOf w.reading with second := n } : Fields) = fieldsOf w.reading := by
    unfold fieldsOf
    rw [hmod, hn]
    rfl
  cases p with
  | minute =>
    have hunit : w.reading % 60000 = 0 := w.whole
    have htext : w.text = clockText w.reading ++ [] := by
      rw [List.append_nil]
      exact wallText_minute w.first w.last
    rw [htext, localFields_clockText w.first w.last]
    refine congrArg some (hsecond 0 ?_)
    unfold msOf msPerDay
    omega
  | second =>
    have htext : w.text = _ := wallText_second w.first w.last
    have hread : takeSeconds (':' :: zeroPad 2 (msOf w.reading / 1000 % 60))
        = some (msOf w.reading / 1000 % 60) := by
      have hdigits := takeDigits_second (msOf w.reading) []
      rw [List.append_nil] at hdigits
      simp [takeSeconds, hdigits]
    rw [htext, localFields_clockText w.first w.last, hread]
    exact congrArg some (hsecond _ rfl)

theorem resolveLocalTime_text (zone : TimeZone) (choose : Option Occurrence) :
    resolveLocalTime w.text zone choose
      = some (answer (candidates zone (dateUTC (fieldsOf w.reading))) choose) := by
  rw [resolveLocalTime, localFields_text, Option.map_some]

/-! ## What a resolution says -/

/-- **A true resolution of a time**: that it does not exist, exactly when the clock never reads
it; the one instant at which the clock reads it, exactly when there is one; both in order, when
there are two; and of two the one that was chosen. -/
structure ResolvesTruly (zone : TimeZone) (reading : ℤ)
    (resolve : Option Occurrence → Option Resolution) : Prop where
  nonexistent : ∀ choose, resolve choose = some .nonexistent ↔ ∀ t, zone.reading t ≠ reading
  resolved : ∀ t, resolve none = some (.resolved t) ↔ ∀ s, zone.reading s = reading ↔ s = t
  ambiguous : ∀ a b, resolve none = some (.ambiguous a b) ↔
    a < b ∧ ∀ s, zone.reading s = reading ↔ s = a ∨ s = b
  once : ∀ choose t, (∀ s, zone.reading s = reading ↔ s = t) →
    resolve choose = some (.resolved t)
  chosen : ∀ a b, a < b → (∀ s, zone.reading s = reading ↔ s = a ∨ s = b) →
    resolve (some .earlier) = some (.resolved a) ∧ resolve (some .later) = some (.resolved b)

/-- The lists that a resolution is made of. -/
theorem short_cases {instants : List ℤ} (hsorted : instants.Pairwise (· < ·))
    (hlength : instants.length ≤ 2) :
    instants = [] ∨ (∃ t, instants = [t]) ∨ ∃ a b, a < b ∧ instants = [a, b] := by
  match instants, hsorted, hlength with
  | [], _, _ => exact .inl rfl
  | [t], _, _ => exact .inr (.inl ⟨t, rfl⟩)
  | [a, b], hsorted, _ => exact .inr (.inr ⟨a, b, List.rel_of_pairwise_cons hsorted (by simp), rfl⟩)
  | _ :: _ :: _ :: _, _, hlength => exact absurd hlength (by simp)

/-- Two pairs in order with the same members are the same. -/
theorem pair_unique {a b c d : ℤ} (hab : a < b) (hcd : c < d)
    (h : ∀ s, s = a ∨ s = b ↔ s = c ∨ s = d) : a = c ∧ b = d := by
  have ha := (h a).mp (.inl rfl)
  have hb := (h b).mp (.inr rfl)
  omega

section Answer

variable {zone : TimeZone} {reading : ℤ}

/-- A time the clock never reads. -/
theorem resolvesTruly_none (h : ∀ s, zone.reading s ≠ reading) :
    ResolvesTruly zone reading (fun choose => some (answer [] choose)) where
  nonexistent _ := iff_of_true rfl h
  resolved t := iff_of_false (fun heq => by cases heq) (fun hs => h t ((hs t).mpr rfl))
  ambiguous a _ := iff_of_false (fun heq => by cases heq)
    (fun hs => h a ((hs.2 a).mpr (.inl rfl)))
  once _ t hs := absurd ((hs t).mpr rfl) (h t)
  chosen a _ _ hs := absurd ((hs a).mpr (.inl rfl)) (h a)

/-- A time the clock reads once. -/
theorem resolvesTruly_one {t : ℤ} (h : ∀ s, zone.reading s = reading ↔ s = t) :
    ResolvesTruly zone reading (fun choose => some (answer [t] choose)) where
  nonexistent _ := iff_of_false (fun heq => by cases heq) (fun hs => hs t ((h t).mpr rfl))
  resolved u := by
    refine ⟨fun heq => ?_, fun hs => ?_⟩
    · cases heq
      exact h
    · rw [(h u).mp ((hs u).mpr rfl)]
      rfl
  ambiguous a b := by
    refine iff_of_false (fun heq => by cases heq) ?_
    rintro ⟨hab, hs⟩
    have ha := (h a).mp ((hs a).mpr (.inl rfl))
    have hb := (h b).mp ((hs b).mpr (.inr rfl))
    omega
  once _ u hs := by
    rw [(h u).mp ((hs u).mpr rfl)]
    rfl
  chosen a b hab hs := by
    have ha := (h a).mp ((hs a).mpr (.inl rfl))
    have hb := (h b).mp ((hs b).mpr (.inr rfl))
    omega

/-- A time the clock reads twice. -/
theorem resolvesTruly_two {c d : ℤ} (hcd : c < d)
    (h : ∀ s, zone.reading s = reading ↔ s = c ∨ s = d) :
    ResolvesTruly zone reading (fun choose => some (answer [c, d] choose)) where
  nonexistent choose := by
    refine iff_of_false (fun heq => ?_) (fun hs => hs c ((h c).mpr (.inl rfl)))
    match choose, heq with
    | none, heq => cases heq
    | some .earlier, heq => cases heq
    | some .later, heq => cases heq
  resolved t := by
    refine iff_of_false (fun heq => by cases heq) (fun hs => ?_)
    have hc := (hs c).mp ((h c).mpr (.inl rfl))
    have hd := (hs d).mp ((h d).mpr (.inr rfl))
    omega
  ambiguous a b := by
    refine ⟨fun heq => ?_, ?_⟩
    · cases heq
      exact ⟨hcd, h⟩
    · rintro ⟨hab, hs⟩
      obtain ⟨rfl, rfl⟩ := pair_unique hcd hab (fun s => (h s).symm.trans (hs s))
      rfl
  once _ t hs := by
    have hc := (hs c).mp ((h c).mpr (.inl rfl))
    have hd := (hs d).mp ((h d).mpr (.inr rfl))
    omega
  chosen a b hab hs := by
    obtain ⟨rfl, rfl⟩ := pair_unique hcd hab (fun s => (h s).symm.trans (hs s))
    exact ⟨rfl, rfl⟩

/-- **A resolution is true when the instants found are those at which the clock reads the
time.** -/
theorem resolvesTruly_answer {instants : List ℤ} (hsorted : instants.Pairwise (· < ·))
    (hlength : instants.length ≤ 2) :
    ResolvesTruly zone reading (fun choose => some (answer instants choose)) ↔
      ∀ s, s ∈ instants ↔ zone.reading s = reading := by
  obtain rfl | ⟨t, rfl⟩ | ⟨a, b, hab, rfl⟩ := short_cases hsorted hlength
  · refine ⟨fun h s => ?_, fun h => resolvesTruly_none (fun s hs => ?_)⟩
    · exact iff_of_false List.not_mem_nil ((h.nonexistent none).mp rfl s)
    · exact absurd ((h s).mpr hs) List.not_mem_nil
  · refine ⟨fun h s => ?_, fun h => resolvesTruly_one (fun s => ?_)⟩
    · rw [List.mem_singleton]
      exact ((h.resolved t).mp rfl s).symm
    · rw [← h s, List.mem_singleton]
  · refine ⟨fun h s => ?_, fun h => resolvesTruly_two hab (fun s => ?_)⟩
    · rw [List.mem_pair]
      exact (((h.ambiguous a b).mp rfl).2 s).symm
    · rw [← h s, List.mem_pair]

end Answer

/-! ## When a local time is resolved truly -/

/-- **At most one change** of a zone's offset within a day of a time. -/
def ChangesAtMostOnce (zone : TimeZone) (reading : ℤ) : Prop :=
  ∃ change, ∀ t, reading - msPerDay ≤ t → t ≤ reading + msPerDay →
    zone.offset t =
      if t < change then zone.offset (reading - msPerDay) else zone.offset (reading + msPerDay)

/-- **A time that is skipped**: with neither the offset a day before it nor the offset a day
after it does the clock read it. -/
def Skipped (zone : TimeZone) (reading : ℤ) : Prop :=
  zone.reading (reading - zone.offset (reading - msPerDay)) ≠ reading ∧
    zone.reading (reading - zone.offset (reading + msPerDay)) ≠ reading

/-- **When a local time is resolved truly.** Its year has more than two digits, and, should it
lie so near the beginning of the year 100 that a day before it the clock shows an earlier year,
the offset does not change before the time is read; or its year has two digits, and the time is
skipped in that year and in the one of the twentieth century. -/
def Resolvable (zone : TimeZone) (reading : ℤ) : Prop :=
  firstPlain ≤ reading ∧ (firstPlain ≤ zone.reading (reading - msPerDay) ∨
      zone.offset (reading - msPerDay) = zone.offset (reading + msPerDay) ∨
      zone.reading (reading - zone.offset (reading - msPerDay)) ≠ reading) ∨
    reading < firstPlain ∧ Skipped zone reading ∧ Skipped zone (dateUTC (fieldsOf reading))

variable {zone : TimeZone} {reading : ℤ}

/-- A clock that reads a time reads it with one of two offsets. -/
theorem ChangesAtMostOnce.offset (h : ChangesAtMostOnce zone reading) {t : ℤ}
    (ht : zone.reading t = reading) : zone.offset t = zone.offset (reading - msPerDay) ∨
      zone.offset t = zone.offset (reading + msPerDay) := by
  obtain ⟨change, hchange⟩ := h
  have hlower := zone.lower t
  have hupper := zone.upper t
  have hoffset := hchange t (by unfold TimeZone.reading at ht; omega)
    (by unfold TimeZone.reading at ht; omega)
  rw [hoffset]
  split_ifs
  · exact .inl rfl
  · exact .inr rfl

theorem eq_sub_of_reading {t : ℤ} (ht : zone.reading t = reading) :
    t = reading - zone.offset t := by
  unfold TimeZone.reading at ht
  omega

/-- **A skipped time is never read.** -/
theorem ChangesAtMostOnce.skipped_iff (h : ChangesAtMostOnce zone reading) :
    Skipped zone reading ↔ ∀ t, zone.reading t ≠ reading := by
  refine ⟨fun hskipped t ht => ?_, fun hnever => ⟨hnever _, hnever _⟩⟩
  have heq := eq_sub_of_reading ht
  obtain hbefore | hafter := h.offset ht
  · rw [hbefore] at heq
    exact hskipped.1 (heq ▸ ht)
  · rw [hafter] at heq
    exact hskipped.2 (heq ▸ ht)

/-- No instant is found of a skipped time. -/
theorem candidates_eq_nil_iff (hplain : firstPlain + msPerDay + msPerDay ≤ reading)
    (hwhole : reading % 1000 = 0) : candidates zone reading = [] ↔ Skipped zone reading := by
  have hbefore := (reading_near zone (reading - msPerDay)).1
  have hread : firstPlain ≤ zone.reading (reading - msPerDay) := by omega
  have hpos : (0 : ℤ) < msPerDay := by decide
  have hmem {t : ℤ} : t ∈ candidates zone reading ↔ _ := mem_candidates (by omega) hwhole
  rw [List.eq_nil_iff_forall_not_mem]
  refine ⟨fun h => ⟨fun hreads => ?_, fun hreads => ?_⟩, fun h t ht => ?_⟩
  · have heq := eq_sub_of_reading hreads
    refine h _ (hmem.mpr ⟨hreads, .inr ⟨?_, hread⟩⟩)
    omega
  · have heq := eq_sub_of_reading hreads
    refine h _ (hmem.mpr ⟨hreads, .inl ?_⟩)
    omega
  · obtain ⟨hreads, htried⟩ := hmem.mp ht
    have heq := eq_sub_of_reading hreads
    obtain hafter | ⟨hbefore, -⟩ := htried
    · rw [hafter] at heq
      exact h.2 (heq ▸ hreads)
    · rw [hbefore] at heq
      exact h.1 (heq ▸ hreads)

/-- From the year 100 on, the instants that are found are all, unless the earlier offset is not
tried. -/
theorem found_iff_plain (h : ChangesAtMostOnce zone reading) (hplain : firstPlain ≤ reading)
    (hwhole : reading % 1000 = 0) :
    (∀ t, t ∈ candidates zone reading ↔ zone.reading t = reading) ↔
      firstPlain ≤ zone.reading (reading - msPerDay) ∨
        zone.offset (reading - msPerDay) = zone.offset (reading + msPerDay) ∨
        zone.reading (reading - zone.offset (reading - msPerDay)) ≠ reading := by
  have hmem {t : ℤ} : t ∈ candidates zone reading ↔ _ := mem_candidates hplain hwhole
  refine ⟨fun hfound => ?_, fun hedge t => hmem.trans (and_iff_left_of_imp (fun ht => ?_))⟩
  · by_contra hedge
    push Not at hedge
    obtain ⟨hunread, hchange, hreads⟩ := hedge
    obtain ⟨-, hafter | ⟨-, hread⟩⟩ := hmem.mp ((hfound _).mpr hreads)
    · have heq := eq_sub_of_reading hreads
      omega
    · omega
  · obtain hbefore | hafter := h.offset ht
    · obtain hread | hsame | hnever := hedge
      · exact .inr ⟨hbefore, hread⟩
      · exact .inl (hbefore.trans hsame)
      · rw [← hbefore, ← eq_sub_of_reading ht] at hnever
        exact absurd ht hnever
    · exact .inl hafter

/-- For a year of two digits, none are found that read the time. -/
theorem found_iff_short (h : ChangesAtMostOnce zone reading) (hfirst : startOfYear 0 ≤ reading)
    (hshort : reading < firstPlain) :
    (∀ t, t ∈ candidates zone (dateUTC (fieldsOf reading)) ↔ zone.reading t = reading) ↔
      Skipped zone reading ∧ Skipped zone (dateUTC (fieldsOf reading)) := by
  have hlate := startOfYear_le_dateUTC hfirst hshort
  have hcentury : firstPlain + msPerDay + msPerDay ≤ startOfYear 1900 := by decide
  have hpos : (0 : ℤ) < msPerDay := by decide
  have hwhole := dateUTC_whole (fieldsOf reading)
  have hmem {t : ℤ} : t ∈ candidates zone (dateUTC (fieldsOf reading)) ↔ _ :=
    mem_candidates (by omega) hwhole
  have hnone : candidates zone (dateUTC (fieldsOf reading)) = [] ↔ _ :=
    candidates_eq_nil_iff (by omega) hwhole
  have hother {t : ℤ} (ht : t ∈ candidates zone (dateUTC (fieldsOf reading))) :
      zone.reading t ≠ reading := by
    have hreads := (hmem.mp ht).1
    omega
  rw [h.skipped_iff, ← hnone, List.eq_nil_iff_forall_not_mem]
  refine ⟨fun hfound => ⟨fun t ht => ?_, fun t ht => ?_⟩, fun hskipped t => ?_⟩
  · exact hother ((hfound t).mpr ht) ht
  · exact hother ht ((hfound t).mp ht)
  · exact iff_of_false (hskipped.2 t) (hskipped.1 t)

/-- **When a local time is resolved truly**, for a zone that changes at most once within a day
of it. -/
theorem resolvesTruly_iff {p : Precision} (w : WallTime p)
    (h : ChangesAtMostOnce zone w.reading) :
    ResolvesTruly zone w.reading (resolveLocalTime w.text zone) ↔ Resolvable zone w.reading := by
  have hresolve : resolveLocalTime w.text zone
      = fun choose => some (answer (candidates zone (dateUTC (fieldsOf w.reading))) choose) :=
    funext (fun choose => resolveLocalTime_text w zone choose)
  rw [hresolve, resolvesTruly_answer (candidates_sorted _ _) (length_candidates_le _ _)]
  unfold Resolvable
  by_cases hplain : firstPlain ≤ w.reading
  · rw [dateUTC_fieldsOf hplain w.whole_seconds, found_iff_plain h hplain w.whole_seconds]
    exact ⟨fun hedge => .inl ⟨hplain, hedge⟩, fun hor => hor.elim And.right
      (fun hshort => absurd hplain (not_le.mpr hshort.1))⟩
  · rw [found_iff_short h w.first (not_le.mp hplain)]
    exact ⟨fun hskipped => .inr ⟨not_le.mp hplain, hskipped⟩, fun hor => hor.elim
      (fun hlong => absurd hlong.1 hplain) And.right⟩

/-- The zone without an offset. -/
def utc : TimeZone where
  offset _ := 0
  whole_seconds _ := rfl
  lower _ := by decide
  upper _ := by decide

/-- Noon of the first of June of the year 50. -/
def early : WallTime .minute where
  reading := Fields.time ⟨50, 6, 1, 12, 0, 0⟩
  first := by decide
  last := by decide
  whole := by decide

/-- **A year of two digits is mistaken**: noon of the year 50 is resolved to noon of the year
1950, at which no clock reads it. -/
theorem not_resolvesTruly_early :
    early.text = "0050-06-01T12:00".toList ∧ ChangesAtMostOnce utc early.reading ∧
      resolveLocalTime early.text utc none
        = some (.resolved (Fields.time ⟨1950, 6, 1, 12, 0, 0⟩)) ∧
      ¬ ResolvesTruly utc early.reading (resolveLocalTime early.text utc) := by
  have hresolve : resolveLocalTime early.text utc none
      = some (.resolved (Fields.time ⟨1950, 6, 1, 12, 0, 0⟩)) := by
    rw [resolveLocalTime_text]
    decide +kernel
  refine ⟨by decide +kernel, ⟨0, fun t _ _ => (ite_self _).symm⟩, hresolve, fun h => ?_⟩
  have hreads := ((h.resolved _).mp hresolve _).mpr rfl
  exact absurd hreads (by decide)

/-- The clocks of Sofia around the end of summer time in 2026. -/
def autumn : TimeZone where
  offset t := if t < Fields.time ⟨2026, 10, 25, 1, 0, 0⟩ then 10800000 else 7200000
  whole_seconds t := by split_ifs <;> rfl
  lower t := by split_ifs <;> decide
  upper t := by split_ifs <;> decide

/-- Half past three of the night in which it comes twice. -/
def half : WallTime .minute where
  reading := Fields.time ⟨2026, 10, 25, 3, 30, 0⟩
  first := by decide
  last := by decide
  whole := by decide

theorem changesAtMostOnce_half : ChangesAtMostOnce autumn half.reading := by
  refine ⟨Fields.time ⟨2026, 10, 25, 1, 0, 0⟩, fun t _ _ => ?_⟩
  show (if t < _ then (10800000 : ℤ) else 7200000) = _
  split_ifs
  · decide
  · decide

/-- A time that is repeated is resolved truly, as both of its instants. -/
theorem resolvesTruly_half : ResolvesTruly autumn half.reading (resolveLocalTime half.text autumn) ∧
    resolveLocalTime half.text autumn none = some (.ambiguous
      (Fields.time ⟨2026, 10, 25, 0, 30, 0⟩) (Fields.time ⟨2026, 10, 25, 1, 30, 0⟩)) := by
  refine ⟨(resolvesTruly_iff half changesAtMostOnce_half).mpr (.inl ⟨by decide, .inl (by decide)⟩),
    ?_⟩
  rw [resolveLocalTime_text]
  decide +kernel

end LocalTime
