import MsRealty.LocalInput

/-!
# Entries of a date and time

A form prefills a control with the wall time of an instant, to the minute or
to the second, and reads what is submitted with `readDateTimeEntry`: an
unchanged value keeps the instant to the millisecond, an edited one is read
anew.

Which of the two precisions the control had is not submitted: the value is
compared at its own. So a value that is read as the original is the original's
wall time at the precision of the *value* (`entry_eq_original_iff`), and an
edit is lost when it leaves exactly that: the seconds of a value set to zero,
which a browser then omits (`keepsUnedited_iff`).
-/

namespace LocalTime

open IsoInstant DecimalText WallClock

/-! ## Entries -/

/-- **`isInstantInput`**: whether a text is an instant with its offset, whose date exists. -/
def isInstantInput (value : List Char) : Bool :=
  match dateParse value with
  | none => false
  | some _ =>
    let wall := if value.getLast? = some 'Z' then value.dropLast else value.take (value.length - 6)
    let seconds := if wall.length = 16 then wall ++ ":00".toList else wall.takeWhile (· ≠ '.')
    let fraction := (wall.dropWhile (· ≠ '.')).tail
    let canonical := seconds ++ '.' ::
      (fraction ++ List.replicate (3 - fraction.length) '0' ++ ['Z'])
    (dateParse (wall ++ ['Z'])).map toISOText = some canonical

/-- The occurrence that a form names; none for a name that is no occurrence. -/
def repeatedOf (occurrence : String) : Option Repeated :=
  if occurrence = "" then some .reject
  else if occurrence = "earlier" then some .earlier
  else if occurrence = "later" then some .later
  else none

/-- The precision of a value. -/
def precisionOf (value : List Char) : Precision := if value.length = 19 then .second else .minute

/-- An accepted input with another instant. -/
def LocalInput.withInstant (instant : ℤ) : LocalInput → LocalInput
  | .ok _ offset repeated => .ok instant offset repeated
  | .refused reason => .refused reason

/-- The instant of an input, if it is accepted. -/
def LocalInput.instant? : LocalInput → Option ℤ
  | .ok instant _ _ => some instant
  | .refused _ => none

/-- **A value that is an instant** is kept, with the offset of its own occurrence. -/
def readInstantEntry (ms : ℤ) (zone : TimeZone) : LocalInput :=
  -- the year has four digits, so that the clock is in the range of a `Date`
  let value := (localInputValue (some ms) zone .second).getD []
  let first := readLocalInput value zone .earlier
  let later := readLocalInput value zone .later
  match first with
  | .refused reason => .refused reason
  | .ok _ _ _ =>
    if later.instant?.map (· / 1000) = some (ms / 1000) then later.withInstant ms
    else first.withInstant ms

/-- **`readDateTimeEntry`.** -/
def readDateTimeEntry (value : List Char) (zone : TimeZone) (occurrence : String)
    (original : List Char) : LocalInput :=
  match isInstantInput value, dateParse value with
  | true, some ms => readInstantEntry ms zone
  | _, _ =>
    match repeatedOf occurrence with
    | none => .refused .invalidLocalTime
    | some repeated =>
      match readLocalInput value zone repeated, dateParse original with
      | .refused reason, _ => .refused reason
      | .ok instant offset twice, some ms =>
        let unit := (precisionOf value).unit
        -- an unchanged prefill keeps its finer precision
        if isInstantInput original ∧
            localInputValue (some ms) zone (precisionOf value) = some value ∧
            ms / unit = instant / unit then
          .ok ms offset twice
        else .ok instant offset twice
      | read, none => read

section Picked

variable {zone : TimeZone} {p : Precision} (w : WallTime p)

/-- **Which instant a value is read as**: the only one found, or the one that was chosen. -/
theorem instant?_readLocalInput {repeated : Repeated} (hfirst : repeated ≠ .first) (s : ℤ) :
    (readLocalInput w.text zone repeated).instant? = some s ↔ s ∈ found zone w ∧
      (repeated = .reject → ∀ t ∈ found zone w, t = s) ∧
      (repeated = .earlier → ∀ t ∈ found zone w, s ≤ t) ∧
      (repeated = .later → ∀ t ∈ found zone w, t ≤ s) := by
  rw [readLocalInput_text]
  obtain hnil | ⟨t, hone⟩ | ⟨a, b, hab, htwo⟩ :=
    short_cases (candidates_sorted zone _)
      (length_candidates_le zone (dateUTC (fieldsOf w.reading)))
  · have hfound : found zone w = [] := hnil
    rw [hfound]
    exact iff_of_false (fun h => by cases h) (fun h => List.not_mem_nil h.1)
  · have hfound : found zone w = [t] := hone
    rw [hfound]
    simp only [answer, inputOf, LocalInput.instant?, Option.some.injEq, List.mem_singleton]
    refine ⟨?_, fun h => h.1.symm⟩
    rintro rfl
    exact ⟨rfl, fun _ u hu => hu, fun _ u hu => hu.ge, fun _ u hu => hu.le⟩
  · have hfound : found zone w = [a, b] := htwo
    rw [hfound]
    simp only [List.mem_pair, forall_eq_or_imp, forall_eq]
    cases repeated with
    | reject =>
      refine iff_of_false (fun h => by cases h) (fun h => ?_)
      obtain ⟨ha, hb⟩ := h.2.1 rfl
      omega
    | first => exact absurd rfl hfirst
    | earlier =>
      simp only [answer, inputOf, LocalInput.instant?, Option.some.injEq, reduceCtorEq,
        if_false, false_imp_iff, true_and, and_true, true_imp_iff]
      omega
    | later =>
      simp only [answer, inputOf, LocalInput.instant?, Option.some.injEq, reduceCtorEq,
        if_false, if_true, false_imp_iff, true_and, true_imp_iff]
      omega

end Picked

/-! ## A zone of whole minutes -/

/-- From here on zones are looked at: two days before the year 1900. -/
def modern : ℤ := startOfYear 1900 - 2 * msPerDay

/-- **A zone of whole minutes**, from the year 1900 on: its offsets have no seconds, change on
whole minutes, and not twice within two days. -/
structure MinuteZone (zone : TimeZone) : Prop where
  minutes : ∀ t, modern ≤ t → zone.offset t % 60000 = 0
  steady : ∀ t, modern ≤ t → zone.offset (t - t % 60000) = zone.offset t
  once : ∀ w, modern + msPerDay ≤ w → ChangesAtMostOnce zone w

/-- The whole minute or second an instant lies in. -/
def floorTo (p : Precision) (t : ℤ) : ℤ := t - t % p.unit

/-- **An original**, with its instant, whose wall time has a year from 1900 to 9999. -/
structure Original (zone : TimeZone) (original : List Char) (o : ℤ) : Prop where
  isInstant : isInstantInput original = true
  parsed : dateParse original = some o
  first : startOfYear 1900 ≤ zone.reading o
  last : zone.reading o < startOfYear 10000

/-- **The occurrence of an instant**: none where its wall time comes once, else that of the two
instants which is its own. -/
def OwnOccurrence (zone : TimeZone) (p : Precision) (o : ℤ) (occurrence : String) : Prop :=
  (occurrence = "" ∧
      ∀ s, zone.reading s = zone.reading (floorTo p o) → s = floorTo p o) ∨
    (occurrence = "earlier" ∧
      ∀ s, zone.reading s = zone.reading (floorTo p o) → floorTo p o ≤ s) ∨
    occurrence = "later" ∧
      ∀ s, zone.reading s = zone.reading (floorTo p o) → s ≤ floorTo p o

theorem floorTo_whole (p : Precision) (t : ℤ) : floorTo p t % p.unit = 0 := by
  cases p with
  | minute =>
    show (t - t % 60000) % 60000 = 0
    omega
  | second =>
    show (t - t % 1000) % 1000 = 0
    omega

theorem floorTo_le (p : Precision) (t : ℤ) : floorTo p t ≤ t := by
  cases p with
  | minute =>
    show t - t % 60000 ≤ t
    omega
  | second =>
    show t - t % 1000 ≤ t
    omega

/-- A whole minute before an instant is before its minute or second. -/
theorem le_floorTo (p : Precision) {t u : ℤ} (hu : u % 60000 = 0) (h : u ≤ t) :
    u ≤ floorTo p t := by
  cases p with
  | minute =>
    show u ≤ t - t % 60000
    omega
  | second =>
    show u ≤ t - t % 1000
    omega

section Entry

variable {zone : TimeZone} {original : List Char} {o : ℤ}

/-- The offset of the minute or second is that of the instant. -/
theorem MinuteZone.reading_floorTo (hz : MinuteZone zone) (h : startOfYear 1900 ≤ zone.reading o)
    (p : Precision) : zone.reading (floorTo p o) = floorTo p (zone.reading o) := by
  have hnear := (reading_near zone o).2
  have hpos : (0 : ℤ) < msPerDay := by decide
  have hday : msPerDay = 86400000 := rfl
  have hmodern : modern ≤ o := by
    unfold modern
    omega
  have hminutes := hz.minutes o hmodern
  have hsteady := hz.steady o hmodern
  cases p with
  | minute =>
    show o - o % 60000 + zone.offset (o - o % 60000)
      = o + zone.offset o - (o + zone.offset o) % 60000
    rw [hsteady]
    omega
  | second =>
    have hsteady' := hz.steady (o - o % 1000) (by unfold modern at *; omega)
    rw [show o - o % 1000 - (o - o % 1000) % 60000 = o - o % 60000 by omega, hsteady] at hsteady'
    show o - o % 1000 + zone.offset (o - o % 1000)
      = o + zone.offset o - (o + zone.offset o) % 1000
    rw [← hsteady']
    omega

/-- A text to the minute is that of the whole minute. -/
theorem clockText_floor (r : ℤ) (k : ℤ) (hk : k = r - r % 60000 ∨ k = r - r % 1000) :
    clockText k = clockText r := by
  have hday : k / msPerDay = r / msPerDay := by
    unfold msPerDay
    omega
  have hhour : msOf k / 3600000 = msOf r / 3600000 := by
    unfold msOf msPerDay
    omega
  have hminute : msOf k / 60000 % 60 = msOf r / 60000 % 60 := by
    unfold msOf msPerDay
    omega
  unfold clockText
  rw [hday, hhour, hminute]

/-- **The text that an instant prefills.** -/
theorem localInputValue_floorTo (hfirst : startOfYear 1900 ≤ zone.reading o)
    (hlast : zone.reading o < startOfYear 10000) (p : Precision) :
    localInputValue (some o) zone p = some (wallText p (floorTo p (zone.reading o))) := by
  have hplain : firstPlain ≤ startOfYear 1900 := by decide
  have hyear : startOfYear 1900 % 60000 = 0 := by decide
  have hzero : startOfYear 0 ≤ startOfYear 1900 := by decide
  rw [localInputValue_reading (by omega) hlast]
  cases p with
  | minute =>
    show some (wallText .minute (zone.reading o - zone.reading o % 1000))
      = some (wallText .minute (zone.reading o - zone.reading o % 60000))
    rw [wallText_minute (by omega) (by omega), wallText_minute (by omega) (by omega),
      clockText_floor _ _ (.inl rfl), clockText_floor _ _ (.inr rfl)]
  | second => rfl

variable {p : Precision} {w : WallTime p}

/-- A wall time is prefilled by the instants of its minute or second. -/
theorem Original.prefills_iff (ho : Original zone original o) :
    localInputValue (some o) zone p = some w.text ↔ w.reading = floorTo p (zone.reading o) := by
  have hzero : startOfYear 0 ≤ startOfYear 1900 := by decide
  have hyear : startOfYear 1900 % 60000 = 0 := by decide
  have hfirst := ho.first
  have hlast := ho.last
  rw [localInputValue_floorTo hfirst hlast, Option.some.injEq]
  refine ⟨fun h => ?_, fun h => ?_⟩
  · have hle := floorTo_le p (zone.reading o)
    have hge := le_floorTo p hyear hfirst
    let v : WallTime p :=
      ⟨floorTo p (zone.reading o), hzero.trans hge, hle.trans_lt hlast, floorTo_whole p _⟩
    have htext : v.text = w.text := h
    have hparse := congrArg parseWall htext
    rw [parseWall_text, parseWall_text, Option.some.injEq] at hparse
    exact hparse.symm
  · rw [WallTime.text, h]

/-- **All instants at which a clock reads a time are found**, from the year 1900 on. -/
theorem MinuteZone.mem_found_iff (hz : MinuteZone zone) (hfirst : startOfYear 1900 ≤ w.reading)
    {s : ℤ} : s ∈ found zone w ↔ zone.reading s = w.reading := by
  have hplain : firstPlain + 2 * msPerDay ≤ startOfYear 1900 := by decide
  have hpos : (0 : ℤ) < msPerDay := by decide
  have hnear := (reading_near zone (w.reading - msPerDay)).1
  rw [mem_found (by omega)]
  refine and_iff_left_of_imp (fun hs => ?_)
  obtain hbefore | hafter := (hz.once w.reading (by unfold modern; omega)).offset hs
  · exact .inr ⟨hbefore, by omega⟩
  · exact .inl hafter

theorem precisionOf_text (w : WallTime p) : precisionOf w.text = p := by
  unfold precisionOf
  rw [w.length_text]
  cases p <;> rfl

theorem repeatedOf_eq_some {occurrence : String} {r : Repeated}
    (h : repeatedOf occurrence = some r) : occurrence = "" ∧ r = .reject ∨
      occurrence = "earlier" ∧ r = .earlier ∨ occurrence = "later" ∧ r = .later := by
  unfold repeatedOf at h
  split_ifs at h with hnone hearlier hlater
  · exact .inl ⟨hnone, (Option.some.inj h).symm⟩
  · exact .inr (.inl ⟨hearlier, (Option.some.inj h).symm⟩)
  · exact .inr (.inr ⟨hlater, (Option.some.inj h).symm⟩)

theorem instant?_eq_some {input : LocalInput} {s : ℤ} (h : input.instant? = some s) :
    ∃ offset twice, input = .ok s offset twice := by
  cases input with
  | ok t offset twice => exact ⟨offset, twice, by rw [Option.some.inj h]⟩
  | refused _ => cases h

/-- **What an entry is read as**: the instant of its value, or the original that it leaves
unchanged. -/
theorem Original.instant?_entry (ho : Original zone original o) {value : List Char}
    (hvalue : isInstantInput value = false) {occurrence : String} {r : Repeated}
    (hr : repeatedOf occurrence = some r) :
    (readDateTimeEntry value zone occurrence original).instant?
      = (readLocalInput value zone r).instant?.map (fun s =>
        if localInputValue (some o) zone (precisionOf value) = some value ∧
          o / (precisionOf value).unit = s / (precisionOf value).unit then o else s) := by
  unfold readDateTimeEntry
  rw [hvalue]
  dsimp only
  rw [hr, ho.parsed, ho.isInstant]
  dsimp only
  cases readLocalInput value zone r with
  | refused reason => rfl
  | ok s offset twice =>
    simp only [true_and, LocalInput.instant?, Option.map_some]
    split_ifs
    · rfl
    · rfl

/-- An instant that is found for a wall time from the year 1900 on is whole. -/
theorem MinuteZone.whole_of_found (hz : MinuteZone zone) (hfirst : startOfYear 1900 ≤ w.reading)
    {s : ℤ} (hs : s ∈ found zone w) : s % p.unit = 0 := by
  have hreads := (hz.mem_found_iff hfirst).mp hs
  have hnear := (reading_near zone s).2
  have hpos : (0 : ℤ) < msPerDay := by decide
  have hminutes := hz.minutes s (by unfold modern; omega)
  have hwhole := w.whole
  unfold TimeZone.reading at hreads
  cases p with
  | minute =>
    have hunit : w.reading % 60000 = 0 := hwhole
    show s % 60000 = 0
    omega
  | second =>
    have hunit : w.reading % 1000 = 0 := hwhole
    show s % 1000 = 0
    omega

/-- **Of which occurrence an instant is**, by what is found for its wall time. -/
theorem ownOccurrence_iff (hz : MinuteZone zone) (ho : Original zone original o)
    (hw : w.reading = floorTo p (zone.reading o)) {occurrence : String} {r : Repeated}
    (hr : repeatedOf occurrence = some r) : OwnOccurrence zone p o occurrence ↔
      (readLocalInput w.text zone r).instant? = some (floorTo p o) := by
  have hyear : startOfYear 1900 % 60000 = 0 := by decide
  have hfirst : startOfYear 1900 ≤ w.reading := by
    rw [hw]
    exact le_floorTo p hyear ho.first
  have hreading := hz.reading_floorTo ho.first p
  rw [← hw] at hreading
  have hmem {s : ℤ} := hz.mem_found_iff (w := w) hfirst (s := s)
  unfold OwnOccurrence
  rw [hreading]
  obtain ⟨rfl, rfl⟩ | ⟨rfl, rfl⟩ | ⟨rfl, rfl⟩ := repeatedOf_eq_some hr
  all_goals
    rw [instant?_readLocalInput w (by decide)]
    simp only [hmem, hreading, reduceCtorEq, false_imp_iff, true_imp_iff, true_and, and_true,
      String.reduceEq, false_and, false_or, or_false]

/-- Two whole instants of one minute or second are the same. -/
theorem eq_floorTo {s : ℤ} (hs : s % p.unit = 0) (h : o / p.unit = s / p.unit) :
    s = floorTo p o := by
  have ho := Int.mul_ediv_add_emod o p.unit
  have hs' := Int.mul_ediv_add_emod s p.unit
  unfold floorTo
  rw [h] at ho
  omega

theorem floorTo_ediv (p : Precision) (o : ℤ) : o / p.unit = floorTo p o / p.unit := by
  cases p with
  | minute =>
    show o / 60000 = (o - o % 60000) / 60000
    omega
  | second =>
    show o / 1000 = (o - o % 1000) / 1000
    omega

theorem floorTo_of_whole (h : o % p.unit = 0) : floorTo p o = o := by
  unfold floorTo
  rw [h, sub_zero]

/-- **When an entry is read as its original**: its value is the wall time of the original, at
the precision of the value, and its occurrence the original's own. -/
theorem entry_eq_original_iff (hz : MinuteZone zone) (ho : Original zone original o)
    {value : List Char} (hvalue : isInstantInput value = false)
    (hyears : ∀ (p : Precision) (w : WallTime p), value = w.text → firstPlain ≤ w.reading)
    (occurrence : String) :
    (readDateTimeEntry value zone occurrence original).instant? = some o ↔
      localInputValue (some o) zone (precisionOf value) = some value ∧
        OwnOccurrence zone (precisionOf value) o occurrence := by
  have hyear : startOfYear 1900 % 60000 = 0 := by decide
  have hzero : startOfYear 0 ≤ startOfYear 1900 := by decide
  cases hr : repeatedOf occurrence with
  | none =>
    refine iff_of_false (fun h => ?_) (fun h => ?_)
    · unfold readDateTimeEntry at h
      rw [hvalue, hr] at h
      cases h
    · obtain ⟨-, ⟨rfl, -⟩ | ⟨rfl, -⟩ | ⟨rfl, -⟩⟩ := h <;> cases hr
  | some r =>
    rw [ho.instant?_entry hvalue hr]
    refine ⟨fun h => ?_, ?_⟩
    · obtain ⟨s, hread, hs⟩ := Option.map_eq_some_iff.mp h
      obtain ⟨offset, twice, hok⟩ := instant?_eq_some hread
      obtain ⟨p, w, rfl, hmem, -⟩ := found_of_readLocalInput hok
      rw [precisionOf_text] at hs ⊢
      have hplain := hyears p w rfl
      have hshows : localInputValue (some o) zone p = some w.text := by
        by_cases hkept : localInputValue (some o) zone p = some w.text ∧ o / p.unit = s / p.unit
        · exact hkept.1
        · rw [if_neg hkept] at hs
          rw [← hs]
          exact (shows_of_found hplain hmem).1
      have hreading := ho.prefills_iff.mp hshows
      have hfirst : startOfYear 1900 ≤ w.reading := by
        rw [hreading]
        exact le_floorTo p hyear ho.first
      have hwhole := hz.whole_of_found hfirst hmem
      have hself : s = floorTo p o := by
        by_cases hkept : localInputValue (some o) zone p = some w.text ∧ o / p.unit = s / p.unit
        · exact eq_floorTo hwhole hkept.2
        · rw [if_neg hkept] at hs
          rw [← hs, floorTo_of_whole hwhole]
      refine ⟨hshows, (ownOccurrence_iff hz ho hreading hr).mpr ?_⟩
      rw [hread, hself]
    · rintro ⟨hshows, hown⟩
      generalize precisionOf value = p at hshows hown ⊢
      have hge := le_floorTo p hyear ho.first
      have hlt := (floorTo_le p (zone.reading o)).trans_lt ho.last
      let w : WallTime p := ⟨floorTo p (zone.reading o), hzero.trans hge, hlt, floorTo_whole p _⟩
      have htext : value = w.text := by
        rw [localInputValue_floorTo ho.first ho.last] at hshows
        exact (Option.some.inj hshows).symm
      rw [htext] at hshows ⊢
      rw [(ownOccurrence_iff (w := w) hz ho rfl hr).mp hown, Option.map_some,
        if_pos ⟨hshows, floorTo_ediv p o⟩]

/-! ## What an edit keeps -/

/-- **An entry that keeps what was not edited**, in a control with some precision. The value
that the original prefills is read as the original, with its own occurrence; another value, or
with another occurrence, is not; and what is accepted shows the value. -/
structure KeepsUnedited (zone : TimeZone) (original : List Char) (o : ℤ) (p : Precision)
    (value : List Char) (occurrence : String) : Prop where
  kept : localInputValue (some o) zone p = some value → OwnOccurrence zone p o occurrence →
    (readDateTimeEntry value zone occurrence original).instant? = some o
  edited : localInputValue (some o) zone p ≠ some value ∨ ¬ OwnOccurrence zone p o occurrence →
    (readDateTimeEntry value zone occurrence original).instant? ≠ some o
  shows : ∀ t, (readDateTimeEntry value zone occurrence original).instant? = some t →
    localInputValue (some t) zone (precisionOf value) = some value

/-- Whatever is accepted shows the value. -/
theorem shows_of_entry (ho : Original zone original o) {value : List Char}
    (hvalue : isInstantInput value = false)
    (hyears : ∀ (p : Precision) (w : WallTime p), value = w.text → firstPlain ≤ w.reading)
    {occurrence : String} {t : ℤ}
    (h : (readDateTimeEntry value zone occurrence original).instant? = some t) :
    localInputValue (some t) zone (precisionOf value) = some value := by
  cases hr : repeatedOf occurrence with
  | none =>
    unfold readDateTimeEntry at h
    rw [hvalue, hr] at h
    cases h
  | some r =>
    rw [ho.instant?_entry hvalue hr] at h
    obtain ⟨s, hread, hs⟩ := Option.map_eq_some_iff.mp h
    split_ifs at hs with hkept
    · rw [← hs]
      exact hkept.1
    · obtain ⟨offset, twice, hok⟩ := instant?_eq_some hread
      obtain ⟨p, w, rfl, hmem, -⟩ := found_of_readLocalInput hok
      rw [← hs, precisionOf_text]
      exact (shows_of_found (hyears p w rfl) hmem).1

/-- A value that an instant prefills has the precision of the control. -/
theorem precisionOf_prefill (ho : Original zone original o) {value : List Char} {p : Precision}
    (h : localInputValue (some o) zone p = some value) : precisionOf value = p := by
  have hyear : startOfYear 1900 % 60000 = 0 := by decide
  have hzero : startOfYear 0 ≤ startOfYear 1900 := by decide
  have hge := le_floorTo p hyear ho.first
  have hlt := (floorTo_le p (zone.reading o)).trans_lt ho.last
  let w : WallTime p := ⟨floorTo p (zone.reading o), hzero.trans hge, hlt, floorTo_whole p _⟩
  have htext : value = w.text := by
    rw [localInputValue_floorTo ho.first ho.last] at h
    exact (Option.some.inj h).symm
  rw [htext, precisionOf_text]

/-- **When an entry keeps what was not edited**: unless its value, with the original's own
occurrence, is the original's wall time at the precision that the control does not have. -/
theorem keepsUnedited_iff (hz : MinuteZone zone) (ho : Original zone original o) (p : Precision)
    {value : List Char} (hvalue : isInstantInput value = false)
    (hyears : ∀ (p : Precision) (w : WallTime p), value = w.text → firstPlain ≤ w.reading)
    (occurrence : String) : KeepsUnedited zone original o p value occurrence ↔
      ∀ q, q ≠ p → localInputValue (some o) zone q = some value →
        ¬ OwnOccurrence zone q o occurrence := by
  have hentry := entry_eq_original_iff hz ho hvalue hyears occurrence
  refine ⟨fun h q hq hprefill hown => ?_, fun h => ⟨fun hprefill hown => ?_, fun hedited => ?_,
    fun t ht => shows_of_entry ho hvalue hyears ht⟩⟩
  · have hprecision := precisionOf_prefill ho hprefill
    refine h.edited (.inl (fun hother => hq ?_)) (hentry.mpr ?_)
    · rw [← hprecision, precisionOf_prefill ho hother]
    · rw [hprecision]
      exact ⟨hprefill, hown⟩
  · rw [hentry, precisionOf_prefill ho hprefill]
    exact ⟨hprefill, hown⟩
  · intro hsame
    obtain ⟨hprefill, hown⟩ := hentry.mp hsame
    by_cases hp : precisionOf value = p
    · rw [hp] at hprefill hown
      exact hedited.elim (fun hne => hne hprefill) (fun hno => hno hown)
    · exact h _ hp hprefill hown

end Entry

/-! ## A night in which an hour comes twice -/

theorem minuteZone_autumn : MinuteZone autumn where
  minutes t _ := by
    show (if t < _ then (10800000 : ℤ) else 7200000) % 60000 = 0
    split_ifs <;> rfl
  steady t _ := by
    have hchange : Fields.time ⟨2026, 10, 25, 1, 0, 0⟩ % 60000 = 0 := by decide
    have hiff : t - t % 60000 < Fields.time ⟨2026, 10, 25, 1, 0, 0⟩ ↔
        t < Fields.time ⟨2026, 10, 25, 1, 0, 0⟩ := by omega
    show (if t - t % 60000 < _ then (10800000 : ℤ) else 7200000) = if t < _ then _ else _
    simp only [hiff]
  once w _ := by
    refine ⟨Fields.time ⟨2026, 10, 25, 1, 0, 0⟩, fun t hfirst hlast => ?_⟩
    show (if t < _ then (10800000 : ℤ) else 7200000)
      = if t < _ then (if w - msPerDay < _ then _ else _) else (if w + msPerDay < _ then _ else _)
    split_ifs <;> first | rfl | omega

theorem original_autumn : Original autumn "2026-10-25T01:30:42.125Z".toList
    (Fields.time ⟨2026, 10, 25, 1, 30, 42⟩ + 125) :=
  ⟨by decide +kernel, by decide +kernel, by decide, by decide⟩

/-- **An edit that is lost.** A control to the second is prefilled with half past three and
forty-two seconds; the seconds are set to zero and the browser submits half past three: what is
read is the original, with its seconds. -/
theorem not_keepsUnedited_half :
    localInputValue (some (Fields.time ⟨2026, 10, 25, 1, 30, 42⟩ + 125)) autumn .second
        = some "2026-10-25T03:30:42".toList ∧
      readDateTimeEntry "2026-10-25T03:30".toList autumn "later" "2026-10-25T01:30:42.125Z".toList
        = .ok (Fields.time ⟨2026, 10, 25, 1, 30, 42⟩ + 125) "+02:00".toList true ∧
      ¬ KeepsUnedited autumn "2026-10-25T01:30:42.125Z".toList
        (Fields.time ⟨2026, 10, 25, 1, 30, 42⟩ + 125) .second "2026-10-25T03:30".toList
        "later" := by
  have hentry : readDateTimeEntry "2026-10-25T03:30".toList autumn "later"
      "2026-10-25T01:30:42.125Z".toList
        = .ok (Fields.time ⟨2026, 10, 25, 1, 30, 42⟩ + 125) "+02:00".toList true := by
    decide +kernel
  refine ⟨by decide +kernel, hentry, fun h => h.edited (.inl (by decide +kernel)) ?_⟩
  rw [hentry]
  rfl

/-- Of the same control, the value that was prefilled keeps the original. -/
theorem keepsUnedited_autumn : KeepsUnedited autumn "2026-10-25T01:30:42.125Z".toList
    (Fields.time ⟨2026, 10, 25, 1, 30, 42⟩ + 125) .second "2026-10-25T03:30:42".toList "later" := by
  refine (keepsUnedited_iff minuteZone_autumn original_autumn .second (by decide +kernel)
    (fun p w htext => ?_) "later").mpr (fun q hq hprefill => ?_)
  · have hparse := congrArg parseWall htext
    rw [parseWall_text, show parseWall "2026-10-25T03:30:42".toList
      = some (Fields.time ⟨2026, 10, 25, 3, 30, 42⟩) by decide +kernel, Option.some.injEq] at hparse
    rw [← hparse]
    decide
  · cases q with
    | minute => exact absurd hprefill (by decide +kernel)
    | second => exact absurd rfl hq

end LocalTime
