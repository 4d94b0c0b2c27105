import MsRealty.Capabilities
import MsRealty.ContentLines
import MsRealty.IsoInstant

/-!
# The calendar file of an appointment

The file that invites to a viewing, or calls it off
(`src/server/appointments/time.ts`). Its lines are folded by octets, and the
texts in them are escaped.

A client that unfolds the file finds the lines again (`unfoldLines_calendarFile`),
and reads from them the texts that were given, without carriage returns, and the
times cut to whole seconds (`readProperty_calendarLines`). So no text can add a
line, or end the one it is in.
-/

namespace CalendarFile

open CanonicalText ContentLines DecimalText IsoInstant

/-! ## The file -/

/-- `String.prototype.replaceAll`, of a single unit. -/
def replaceAll (value : JsString) (search : UInt16) (replacement : JsString) : JsString :=
  value.flatMap fun u => if u = search then replacement else [u]

/-- **`escapeText`.** -/
def escapeText (value : JsString) : JsString :=
  let value := replaceAll value (unit '\\') (units "\\\\")
  let value := replaceAll value cr []
  let value := replaceAll value lf (units "\\n")
  let value := replaceAll value (unit ';') (units "\\;")
  replaceAll value (unit ',') (units "\\,")

/-- `[-:]`. -/
def isSeparator (c : Char) : Bool := c = '-' || c = ':'

/-- The time of a stamp, as a text. -/
def stampText (date : Instant) : List Char :=
  ((toISOText date).filter fun c => !isSeparator c).take 15 ++ ['Z']

/-- `stamp`. -/
def stamp (date : Instant) : JsString := (stampText date).map unit

/-- The loop of `fold`, from the chunk that is being filled. -/
def foldChunks : List JsString → JsString → List JsString
  | [], current => [current]
  | char :: rest, current =>
    if 73 < octets (current ++ char) then current :: foldChunks rest (space :: char)
    else foldChunks rest (current ++ char)

/-- The chunks of a line. -/
def chunks (line : JsString) : List JsString := foldChunks (codePoints line) []

/-- **`fold`.** -/
def fold (line : JsString) : JsString := crlf.intercalate (chunks line)

/-- What an appointment is for. -/
inductive Purpose where
  | viewing
  | photography
  deriving DecidableEq

/-- Who invites whom. -/
structure Invitation where
  organizer : JsString
  attendee : JsString

/-- **What a file is made of.** -/
structure CalendarInput where
  uid : JsString
  sequence : JsNumber
  reference : JsString
  purpose : Option Purpose
  start : Instant
  finish : Instant
  cancelled : Bool
  updatedAt : Instant
  invitation : Option Invitation

namespace CalendarInput

variable (input : CalendarInput)

/-- The method of the file. -/
def method : String :=
  if input.cancelled then "CANCEL" else if input.invitation.isSome then "REQUEST" else "PUBLISH"

/-- What stands before the reference, in the summary. -/
def title : String :=
  "MS Realty · " ++ if input.purpose = some .photography then "Photography · " else ""

/-- The parameters of an attendee. -/
def attendeeParameters : String :=
  if input.cancelled then "" else ";RSVP=TRUE;PARTSTAT=NEEDS-ACTION"

end CalendarInput

/-- The lines of a file, before they are folded. -/
def calendarLines (input : CalendarInput) : List JsString :=
  [units "BEGIN:VCALENDAR",
    units "VERSION:2.0",
    units "PRODID:-//MS Realty//Agency appointments//EN",
    units "METHOD:" ++ units input.method,
    units "BEGIN:VEVENT",
    units "UID:" ++ escapeText input.uid,
    units "SEQUENCE:" ++ input.sequence.text,
    units "DTSTAMP:" ++ stamp input.updatedAt,
    units "DTSTART:" ++ stamp input.start,
    units "DTEND:" ++ stamp input.finish,
    units "SUMMARY:" ++ escapeText (units input.title ++ input.reference),
    units "STATUS:" ++ units (if input.cancelled then "CANCELLED" else "CONFIRMED")]
  ++ input.invitation.toList.flatMap (fun invitation =>
    [units "ORGANIZER:mailto:" ++ escapeText invitation.organizer,
      units "ATTENDEE" ++ units input.attendeeParameters ++ units ":mailto:"
        ++ escapeText invitation.attendee])
  ++ [units "END:VEVENT", units "END:VCALENDAR"]

/-- **`calendarFile`.** -/
def calendarFile (input : CalendarInput) : JsString :=
  crlf.intercalate ((calendarLines input).map fold) ++ crlf

/-! ## Reading -/

/-- The value of a property. -/
inductive Content where
  /-- A word or a number, as it stands. -/
  | word (text : JsString)
  | text (text : JsString)
  /-- The address of someone. -/
  | mailbox (address : JsString)
  | time (instant : Instant)

/-- **A property**: its name, with its parameters, and its value. -/
structure Property where
  name : JsString
  content : Content

/-- The instant of a stamp in UTC. -/
def readStamp (text : List Char) : Option Instant := do
  let (year, text) ← takeDigits 4 text
  let (month, text) ← takeDigits 2 text
  let (day, text) ← takeDigits 2 text
  let text ← takeChar 'T' text
  let (hour, text) ← takeDigits 2 text
  let (minute, text) ← takeDigits 2 text
  let (second, text) ← takeDigits 2 text
  if text = ['Z'] ∧ 1 ≤ month ∧ month ≤ 12 ∧ 1 ≤ day ∧ day ≤ daysInMonth year month
      ∧ hour ≤ 23 ∧ minute ≤ 59 ∧ second ≤ 59 then
    some ((dayFromYear year + daysBeforeMonth year month + (day - 1)) * msPerDay
      + (hour * 3600000 + minute * 60000 + second * 1000 : ℕ))
  else none

/-- The properties whose values are texts. -/
def textNames : List JsString := ["UID", "SUMMARY"].map units

/-- The properties whose values are addresses. -/
def mailboxNames : List JsString := ["ORGANIZER", "ATTENDEE"].map units

/-- The properties whose values are times. -/
def timeNames : List JsString := ["DTSTAMP", "DTSTART", "DTEND"].map units

/-- The value of a property of some name. -/
def readContent (name value : JsString) : Content :=
  if name ∈ textNames then .text (unescape value)
  else if name ∈ mailboxNames then
    if (units "mailto:").isPrefixOf value then .mailbox (unescape (value.drop 7)) else .word value
  else if name ∈ timeNames then
    match readStamp (value.map fun u => Char.ofNat u.toNat) with
    | some instant => .time instant
    | none => .word value
  else .word value

/-- **The property of a line.** -/
def readProperty (line : JsString) : Property :=
  let name := line.takeWhile (· ≠ unit ':')
  ⟨name, readContent (name.takeWhile (· ≠ unit ';')) (line.drop (name.length + 1))⟩

/-- A text without carriage returns. -/
def withoutCr (text : JsString) : JsString := text.filter (· ≠ cr)

/-- An instant cut to whole seconds. -/
def wholeSeconds (instant : Instant) : Instant := instant / 1000 * 1000

/-- **The properties a file is to have.** -/
def properties (input : CalendarInput) : List Property :=
  [⟨units "BEGIN", .word (units "VCALENDAR")⟩,
    ⟨units "VERSION", .word (units "2.0")⟩,
    ⟨units "PRODID", .word (units "-//MS Realty//Agency appointments//EN")⟩,
    ⟨units "METHOD", .word (units input.method)⟩,
    ⟨units "BEGIN", .word (units "VEVENT")⟩,
    ⟨units "UID", .text (withoutCr input.uid)⟩,
    ⟨units "SEQUENCE", .word input.sequence.text⟩,
    ⟨units "DTSTAMP", .time (wholeSeconds input.updatedAt)⟩,
    ⟨units "DTSTART", .time (wholeSeconds input.start)⟩,
    ⟨units "DTEND", .time (wholeSeconds input.finish)⟩,
    ⟨units "SUMMARY", .text (units input.title ++ withoutCr input.reference)⟩,
    ⟨units "STATUS", .word (units (if input.cancelled then "CANCELLED" else "CONFIRMED"))⟩]
  ++ input.invitation.toList.flatMap (fun invitation =>
    [⟨units "ORGANIZER", .mailbox (withoutCr invitation.organizer)⟩,
      ⟨units "ATTENDEE" ++ units input.attendeeParameters,
        .mailbox (withoutCr invitation.attendee)⟩])
  ++ [⟨units "END", .word (units "VEVENT")⟩, ⟨units "END", .word (units "VCALENDAR")⟩]

/-! ## Texts -/

/-- What stands for a unit of a text. -/
def escaped (u : UInt16) : JsString :=
  if u = unit '\\' then units "\\\\"
  else if u = cr then []
  else if u = lf then units "\\n"
  else if u = unit ';' then units "\\;"
  else if u = unit ',' then units "\\,"
  else [u]

theorem replaceAll_append (s t : JsString) (search : UInt16) (replacement : JsString) :
    replaceAll (s ++ t) search replacement
      = replaceAll s search replacement ++ replaceAll t search replacement :=
  List.flatMap_append

theorem escapeText_append (s t : JsString) : escapeText (s ++ t) = escapeText s ++ escapeText t := by
  simp only [escapeText, replaceAll_append]

/-- One unit of a text, through all the replacements. -/
theorem escapeText_singleton (u : UInt16) : escapeText [u] = escaped u := by
  unfold escaped
  split_ifs with hslash hcr hlf hsemicolon hcomma
  · rw [hslash]; decide
  · rw [hcr]; decide
  · rw [hlf]; decide
  · rw [hsemicolon]; decide
  · rw [hcomma]; decide
  · simp [escapeText, replaceAll, hslash, hcr, hlf, hsemicolon, hcomma]

/-- **A text is escaped unit by unit.** -/
theorem escapeText_cons (u : UInt16) (s : JsString) :
    escapeText (u :: s) = escaped u ++ escapeText s := by
  rw [← escapeText_singleton, ← escapeText_append]
  rfl

/-- What stands for a unit is read as the unit. -/
theorem unescape_escaped_append (u : UInt16) (s : JsString) :
    unescape (escaped u ++ s) = (if u = cr then [] else [u]) ++ unescape s := by
  unfold escaped
  split_ifs with hslash hcr hcr' hlf hsemicolon hcomma
  · exact absurd (hslash.symm.trans hcr) (by decide)
  · rw [hslash]
    exact unescape_escaped (unit '\\') s
  · rfl
  · rw [hlf]
    exact unescape_escaped (unit 'n') s
  · rw [hsemicolon]
    exact unescape_escaped (unit ';') s
  · rw [hcomma]
    exact unescape_escaped (unit ',') s
  · exact unescape_cons hslash s

/-- **An escaped text is read back**, without its carriage returns. -/
theorem unescape_escapeText (s : JsString) : unescape (escapeText s) = withoutCr s := by
  induction s with
  | nil => rfl
  | cons u s ih =>
    rw [escapeText_cons, unescape_escaped_append, ih, withoutCr, withoutCr, List.filter_cons]
    by_cases hcr : u = cr <;> simp [hcr]

theorem cr_not_mem_escaped (u : UInt16) : cr ∉ escaped u := by
  unfold escaped
  split_ifs with hslash hcr
  · decide
  · decide
  · decide
  · decide
  · decide
  · exact fun hmem => hcr (List.mem_singleton.mp hmem).symm

/-- An escaped text has no carriage return. -/
theorem cr_not_mem_escapeText (s : JsString) : cr ∉ escapeText s := by
  induction s with
  | nil => exact List.not_mem_nil
  | cons u s ih =>
    rw [escapeText_cons, List.mem_append, not_or]
    exact ⟨cr_not_mem_escaped u, ih⟩

/-! ## Folding -/

/-- A chunk that goes on with a line is short. -/
theorem octets_space_cons {point s : JsString} (h : point ∈ codePoints s) :
    octets (space :: point) ≤ 73 := by
  have hspace : codePoints (space :: point) = [space] :: [point] := by
    rw [codePoints_cons (by decide), codePoints_of_mem h]
  have hpoint := pointOctets_le point
  have hone : pointOctets [space] = 1 := by decide
  rw [octets, hspace, List.map_cons, List.map_cons, List.map_nil, List.sum_cons, List.sum_cons,
    List.sum_nil, hone]
  omega

/-- **Chunks have at most 73 octets.** -/
theorem octets_foldChunks {points : List JsString} {current s : JsString}
    (hpoints : ∀ point ∈ points, point ∈ codePoints s) (hcurrent : octets current ≤ 73) :
    ∀ chunk ∈ foldChunks points current, octets chunk ≤ 73 := by
  induction points generalizing current with
  | nil => exact fun chunk hmem => List.mem_singleton.mp hmem ▸ hcurrent
  | cons char rest ih =>
    obtain ⟨hchar, hrest⟩ := List.forall_mem_cons.mp hpoints
    rw [foldChunks]
    split_ifs with hfull
    · exact List.forall_mem_cons.mpr ⟨hcurrent, ih hrest (octets_space_cons hchar)⟩
    · exact ih hrest (not_lt.mp hfull)

theorem octets_chunks (line : JsString) : ∀ chunk ∈ chunks line, octets chunk ≤ 73 :=
  octets_foldChunks (fun _ h => h) (by decide)

/-- **Chunks make up the chunk that is being filled and what is left of the line**,
each but the first after a space. -/
theorem foldChunks_eq (points : List JsString) (current : JsString) :
    ∃ (added : JsString) (rest : List JsString),
      foldChunks points current = (current ++ added) :: rest.map (space :: ·) ∧
        added ++ rest.flatten = points.flatten := by
  induction points generalizing current with
  | nil => exact ⟨[], [], by rw [List.append_nil]; rfl, rfl⟩
  | cons char points ih =>
    rw [foldChunks]
    split_ifs with hfull
    · obtain ⟨added, rest, hchunks, hline⟩ := ih (space :: char)
      refine ⟨[], (char ++ added) :: rest, ?_, ?_⟩
      · rw [hchunks, List.append_nil]
        rfl
      · rw [List.nil_append, List.flatten_cons, List.flatten_cons, List.append_assoc, hline]
    · obtain ⟨added, rest, hchunks, hline⟩ := ih (current ++ char)
      refine ⟨char ++ added, rest, ?_, ?_⟩
      · rw [hchunks, List.append_assoc]
      · rw [List.append_assoc, hline, List.flatten_cons]

/-- **The chunks of a line are the line, folded.** -/
theorem folded_chunks {line : JsString} (h : isContinuation line = false) :
    Folded line (chunks line) := by
  obtain ⟨first, rest, hchunks, hline⟩ := foldChunks_eq (codePoints line) []
  rw [flatten_codePoints] at hline
  exact ⟨⟨first, rest, hchunks, hline⟩, h⟩

/-- Chunks hold no carriage return if the line holds none. -/
theorem cr_not_mem_chunks {line : JsString} (h : cr ∉ line) : ∀ chunk ∈ chunks line, cr ∉ chunk := by
  obtain ⟨first, rest, hchunks, hline⟩ := foldChunks_eq (codePoints line) []
  rw [flatten_codePoints, List.nil_append] at *
  rw [chunks, hchunks]
  rw [← hline, List.mem_append, not_or, List.mem_flatten] at h
  refine List.forall_mem_cons.mpr ⟨h.1, fun chunk hmem hcr => ?_⟩
  obtain ⟨part, hpart, rfl⟩ := List.mem_map.mp hmem
  rcases List.mem_cons.mp hcr with hspace | hcr
  · exact absurd hspace (by decide)
  · exact h.2 ⟨part, hpart, hcr⟩

/-- The text of a file, by the chunks of its lines. -/
theorem calendarFile_eq (input : CalendarInput) :
    calendarFile input = ((calendarLines input).flatMap chunks).flatMap (· ++ crlf) := by
  have hfold : ∀ line, fold line ++ crlf = (chunks line).flatMap (· ++ crlf) := by
    intro line
    obtain ⟨first, rest, hchunks, -⟩ := foldChunks_eq (codePoints line) []
    refine intercalate_append crlf ?_
    rw [chunks, hchunks]
    exact List.cons_ne_nil _ _
  have hlines : (calendarLines input).map fold ≠ [] := by simp [calendarLines]
  rw [calendarFile, intercalate_append crlf hlines, List.flatMap_map, List.flatMap_assoc]
  exact List.flatMap_congr fun line _ => hfold line

/-! ## Stamps -/

/-- An instant of a year of four digits, the first of which may be zeros. -/
def PlainYear (t : Instant) : Prop :=
  0 ≤ (CivilDate.ofDays (t / msPerDay)).year ∧ (CivilDate.ofDays (t / msPerDay)).year ≤ 9999

/-- The digits of a stamp, and what stands between them. -/
theorem stampText_eq {t : Instant} (h : PlainYear t) {date : CivilDate} {ms : ℕ}
    (hdate : CivilDate.ofDays (t / msPerDay) = date) (hms : (t % msPerDay).toNat = ms) :
    stampText t = zeroPad 4 date.year.natAbs ++ (zeroPad 2 date.month ++ (zeroPad 2 date.day
      ++ 'T' :: (zeroPad 2 (ms / 3600000) ++ (zeroPad 2 (ms / 60000 % 60)
        ++ (zeroPad 2 (ms / 1000 % 60) ++ ['Z']))))) := by
  have hpad : ∀ w n, (zeroPad w n).filter (fun c => !isSeparator c) = zeroPad w n := by
    intro w n
    refine List.filter_eq_self.mpr fun c hc => ?_
    have hdigit := isDigit_of_mem_zeroPad hc
    have hdash : c ≠ '-' := by rintro rfl; cases hdigit
    have hcolon : c ≠ ':' := by rintro rfl; cases hdigit
    simp [isSeparator, hdash, hcolon]
  have hmarks : isSeparator '-' = true ∧ isSeparator ':' = true ∧ isSeparator 'T' = false
      ∧ isSeparator '.' = false ∧ isSeparator 'Z' = false := by decide
  obtain ⟨hdash, hcolon, hT, hdot, hZ⟩ := hmarks
  have hyear : yearText date.year = zeroPad 4 date.year.natAbs := if_pos (hdate ▸ h)
  have hbound : ms < 86400000 := by rw [← hms]; unfold msPerDay; omega
  have hnat : date.year.natAbs < 10 ^ 4 := by
    have hrange : 0 ≤ date.year ∧ date.year ≤ 9999 := hdate ▸ h
    omega
  set kept := zeroPad 4 date.year.natAbs ++ (zeroPad 2 date.month ++ (zeroPad 2 date.day
      ++ 'T' :: (zeroPad 2 (ms / 3600000) ++ (zeroPad 2 (ms / 60000 % 60)
        ++ zeroPad 2 (ms / 1000 % 60))))) with hkept
  have hlength : kept.length = 15 := by
    simp only [hkept, List.length_append, List.length_cons,
      length_zeroPad (w := 4) (by decide) hnat, CivilDate.length_month, CivilDate.length_day,
      length_hour hbound, length_minute, length_second]
  have htext : (toISOText t).filter (fun c => !isSeparator c)
      = kept ++ '.' :: (zeroPad 3 (ms % 1000) ++ ['Z']) := by
    simp [toISOText, timeText, hdate, hms, hyear, hpad, hkept, hdash, hcolon, hT, hdot, hZ]
  rw [stampText, htext, List.take_left' hlength, hkept]
  simp

/-- The hours, minutes and seconds of a day leave out what is less than a second. -/
theorem seconds_of_parts {days t : ℤ} {ms : ℕ} (h : days * msPerDay + ms = t) :
    days * msPerDay
        + (ms / 3600000 * 3600000 + ms / 60000 % 60 * 60000 + ms / 1000 % 60 * 1000 : ℕ)
      = t / 1000 * 1000 := by
  unfold msPerDay at *
  omega

/-- **A stamp is the instant cut to whole seconds.** -/
theorem readStamp_stampText {t : Instant} (h : PlainYear t) :
    readStamp (stampText t) = some (wholeSeconds t) := by
  have hdays := CivilDate.days_ofDays (t / msPerDay)
  rw [stampText_eq h rfl rfl]
  have hrange : 0 ≤ (CivilDate.ofDays (t / msPerDay)).year
      ∧ (CivilDate.ofDays (t / msPerDay)).year ≤ 9999 := h
  generalize CivilDate.ofDays (t / msPerDay) = date at *
  have hnat : date.year.natAbs < 10 ^ 4 := by omega
  have hyear : (date.year.natAbs : ℤ) = date.year := Int.natAbs_of_nonneg hrange.1
  have hms : ((t % msPerDay).toNat : ℤ) = t % msPerDay :=
    Int.toNat_of_nonneg (Int.emod_nonneg _ (by decide))
  have hbound : (t % msPerDay).toNat < 86400000 := by unfold msPerDay; omega
  generalize (t % msPerDay).toNat = ms at *
  unfold readStamp
  simp only [takeDigits_zeroPad (by decide : 0 < 4) hnat,
    takeDigits_month, takeDigits_day, takeDigits_hour _ hbound, takeDigits_minute,
    takeDigits_second, takeChar_cons, Option.bind_eq_bind, Option.bind_some, hyear]
  rw [if_pos ⟨trivial, date.month_pos, date.month_le, date.day_pos, date.day_le, by omega, by omega,
    by omega⟩]
  have hsum := days_mul_add hdays
  rw [← hms] at hsum
  generalize dayFromYear date.year + daysBeforeMonth date.year date.month + ((date.day : ℤ) - 1)
    = days at *
  exact congrArg some (seconds_of_parts hsum)

/-! ## Properties -/

/-- **What stands before a value**: the name of a property, and a colon. -/
structure Label (label name : JsString) : Prop where
  eq : label = name ++ [unit ':']
  colon : unit ':' ∉ name

/-- The name of a property ends where its value begins. -/
theorem readProperty_append {label name : JsString} (h : Label label name) (value : JsString) :
    readProperty (label ++ value)
      = ⟨name, readContent (name.takeWhile (· ≠ unit ';')) value⟩ := by
  have hline : label ++ value = name ++ unit ':' :: value := by
    rw [h.eq, List.append_assoc, List.singleton_append]
  have hname : (name ++ unit ':' :: value).takeWhile (· ≠ unit ':') = name := by
    rw [List.takeWhile_append_of_pos, List.takeWhile_cons_of_neg (by decide), List.append_nil]
    intro u hu
    exact decide_eq_true fun heq => h.colon (heq ▸ hu)
  have hvalue : (name ++ unit ':' :: value).drop (name.length + 1) = value := by
    rw [← List.drop_drop, List.drop_left]
    rfl
  rw [hline, readProperty, hname, hvalue]

/-- A word is read as it stands. -/
theorem readProperty_word {label name : JsString} (h : Label label name)
    (hplain : name.takeWhile (· ≠ unit ';') ∉ textNames ++ mailboxNames ++ timeNames)
    (value : JsString) : readProperty (label ++ value) = ⟨name, .word value⟩ := by
  rw [List.mem_append, List.mem_append, not_or, not_or] at hplain
  rw [readProperty_append h, readContent, if_neg hplain.1.1, if_neg hplain.1.2, if_neg hplain.2]

theorem readProperty_text {label name : JsString} (h : Label label name)
    (htext : name.takeWhile (· ≠ unit ';') ∈ textNames) (text : JsString) :
    readProperty (label ++ escapeText text) = ⟨name, .text (withoutCr text)⟩ := by
  rw [readProperty_append h, readContent, if_pos htext, unescape_escapeText]

/-- An address is read without its scheme. -/
theorem readProperty_mailbox {label name : JsString} (h : Label label name)
    (htext : name.takeWhile (· ≠ unit ';') ∉ textNames)
    (hmailbox : name.takeWhile (· ≠ unit ';') ∈ mailboxNames) (address : JsString) :
    readProperty (label ++ (units "mailto:" ++ escapeText address))
      = ⟨name, .mailbox (withoutCr address)⟩ := by
  have hscheme : (units "mailto:").isPrefixOf (units "mailto:" ++ escapeText address) = true :=
    List.isPrefixOf_iff_prefix.mpr (List.prefix_append _ _)
  have haddress : (units "mailto:" ++ escapeText address).drop 7 = escapeText address := rfl
  rw [readProperty_append h, readContent, if_neg htext, if_pos hmailbox, if_pos hscheme, haddress,
    unescape_escapeText]

/-- A stamp is of characters of the basic plane. -/
theorem stamp_back {t : Instant} :
    (stamp t).map (fun u => Char.ofNat u.toNat) = stampText t := by
  have hback : ∀ c ∈ stampText t, Char.ofNat (unit c).toNat = c := by
    intro c hc
    refine ofNat_unit ?_
    rcases List.mem_append.mp hc with hc | hc
    · rcases mem_toISOText (List.mem_of_mem_filter (List.mem_of_mem_take hc)) with hdigit | hmark
      · exact (Char.isDigit_iff_toNat.mp hdigit).2.trans_lt (by decide)
      · have hmarks : ∀ c ∈ ['+', '-', 'T', ':', '.', 'Z'], c.toNat < 2 ^ 16 :=
          List.all_iff_forall_prop.mp (by decide)
        exact hmarks c hmark
    · rw [List.mem_singleton.mp hc]
      decide
  rw [stamp, List.map_map]
  exact (List.map_congr_left hback).trans (List.map_id _)

/-- A time is read from its stamp. -/
theorem readProperty_time {label name : JsString} (h : Label label name)
    (hplain : name.takeWhile (· ≠ unit ';') ∉ textNames ++ mailboxNames)
    (htime : name.takeWhile (· ≠ unit ';') ∈ timeNames) {t : Instant} (ht : PlainYear t) :
    readProperty (label ++ stamp t) = ⟨name, .time (wholeSeconds t)⟩ := by
  rw [List.mem_append, not_or] at hplain
  rw [readProperty_append h, readContent, if_neg hplain.1, if_neg hplain.2, if_pos htime,
    stamp_back, readStamp_stampText ht]

/-- The summary is read without the carriage returns of the reference. -/
theorem withoutCr_title (input : CalendarInput) (reference : JsString) :
    withoutCr (units input.title ++ reference) = units input.title ++ withoutCr reference := by
  have htitle : (units input.title).filter (· ≠ cr) = units input.title := by
    unfold CalendarInput.title
    split_ifs <;> decide
  rw [withoutCr, List.filter_append, htitle]
  rfl

theorem readProperty_organizer (organizer : JsString) :
    readProperty (units "ORGANIZER:mailto:" ++ escapeText organizer)
      = ⟨units "ORGANIZER", .mailbox (withoutCr organizer)⟩ := by
  have hscheme : units "ORGANIZER:mailto:" = units "ORGANIZER:" ++ units "mailto:" := by decide
  have hlabel : Label (units "ORGANIZER:") (units "ORGANIZER") := ⟨by decide, by decide⟩
  rw [hscheme, List.append_assoc]
  exact readProperty_mailbox hlabel (by decide) (by decide) organizer

theorem readProperty_attendee (input : CalendarInput) (attendee : JsString) :
    readProperty (units "ATTENDEE" ++ units input.attendeeParameters ++ units ":mailto:"
        ++ escapeText attendee)
      = ⟨units "ATTENDEE" ++ units input.attendeeParameters, .mailbox (withoutCr attendee)⟩ := by
  set name := units "ATTENDEE" ++ units input.attendeeParameters with hname
  have hscheme : units ":mailto:" = [unit ':'] ++ units "mailto:" := by decide
  have hparts : unit ':' ∉ name ∧ name.takeWhile (· ≠ unit ';') = units "ATTENDEE" := by
    rw [hname]
    unfold CalendarInput.attendeeParameters
    split_ifs <;> decide
  rw [hscheme, ← List.append_assoc, List.append_assoc (name ++ [unit ':'])]
  exact readProperty_mailbox ⟨rfl, hparts.1⟩ (by rw [hparts.2]; decide)
    (by rw [hparts.2]; decide) attendee

theorem readProperty_uid (uid : JsString) :
    readProperty (units "UID:" ++ escapeText uid) = ⟨units "UID", .text (withoutCr uid)⟩ :=
  readProperty_text ⟨by decide, by decide⟩ (by decide) uid

theorem readProperty_summary (input : CalendarInput) (reference : JsString) :
    readProperty (units "SUMMARY:" ++ escapeText (units input.title ++ reference))
      = ⟨units "SUMMARY", .text (units input.title ++ withoutCr reference)⟩ := by
  rw [← withoutCr_title]
  exact readProperty_text ⟨by decide, by decide⟩ (by decide) _

/-- A line that is always the same. -/
theorem readProperty_fixed {line label name value : JsString} (hline : line = label ++ value)
    (h : Label label name)
    (hplain : name.takeWhile (· ≠ unit ';') ∉ textNames ++ mailboxNames ++ timeNames) :
    readProperty line = ⟨name, .word value⟩ := by
  rw [hline, readProperty_word h hplain]

/-- **The lines of a file are read as the properties it is to have.** -/
theorem readProperty_calendarLines {input : CalendarInput} (hupdated : PlainYear input.updatedAt)
    (hstart : PlainYear input.start) (hfinish : PlainYear input.finish) :
    (calendarLines input).map readProperty = properties input := by
  have hbegin : Label (units "BEGIN:") (units "BEGIN") := ⟨by decide, by decide⟩
  have hend : Label (units "END:") (units "END") := ⟨by decide, by decide⟩
  have hcalendar : readProperty (units "BEGIN:VCALENDAR")
      = ⟨units "BEGIN", .word (units "VCALENDAR")⟩ :=
    readProperty_fixed (by decide) hbegin (by decide)
  have hversion : readProperty (units "VERSION:2.0") = ⟨units "VERSION", .word (units "2.0")⟩ :=
    readProperty_fixed (by decide) (⟨by decide, by decide⟩ : Label (units "VERSION:") _) (by decide)
  have hprodid : readProperty (units "PRODID:-//MS Realty//Agency appointments//EN")
      = ⟨units "PRODID", .word (units "-//MS Realty//Agency appointments//EN")⟩ :=
    readProperty_fixed (by decide) (⟨by decide, by decide⟩ : Label (units "PRODID:") _) (by decide)
  have hevent : readProperty (units "BEGIN:VEVENT")
      = ⟨units "BEGIN", .word (units "VEVENT")⟩ :=
    readProperty_fixed (by decide) hbegin (by decide)
  have hendEvent : readProperty (units "END:VEVENT") = ⟨units "END", .word (units "VEVENT")⟩ :=
    readProperty_fixed (by decide) hend (by decide)
  have hendCalendar : readProperty (units "END:VCALENDAR")
      = ⟨units "END", .word (units "VCALENDAR")⟩ :=
    readProperty_fixed (by decide) hend (by decide)
  have hmethod : ∀ value, readProperty (units "METHOD:" ++ value)
      = ⟨units "METHOD", .word value⟩ :=
    readProperty_word ⟨by decide, by decide⟩ (by decide)
  have hsequence : ∀ value, readProperty (units "SEQUENCE:" ++ value)
      = ⟨units "SEQUENCE", .word value⟩ :=
    readProperty_word ⟨by decide, by decide⟩ (by decide)
  have hstatus : ∀ value, readProperty (units "STATUS:" ++ value)
      = ⟨units "STATUS", .word value⟩ :=
    readProperty_word ⟨by decide, by decide⟩ (by decide)
  have hstamp : ∀ t, PlainYear t → readProperty (units "DTSTAMP:" ++ stamp t)
      = ⟨units "DTSTAMP", .time (wholeSeconds t)⟩ := fun t =>
    readProperty_time ⟨by decide, by decide⟩ (by decide) (by decide)
  have hdtstart : ∀ t, PlainYear t → readProperty (units "DTSTART:" ++ stamp t)
      = ⟨units "DTSTART", .time (wholeSeconds t)⟩ := fun t =>
    readProperty_time ⟨by decide, by decide⟩ (by decide) (by decide)
  have hdtend : ∀ t, PlainYear t → readProperty (units "DTEND:" ++ stamp t)
      = ⟨units "DTEND", .time (wholeSeconds t)⟩ := fun t =>
    readProperty_time ⟨by decide, by decide⟩ (by decide) (by decide)
  rw [calendarLines, properties, List.map_append, List.map_append, List.map_flatMap]
  simp only [List.map_cons, List.map_nil, hcalendar, hversion, hprodid, hevent, hendEvent,
    hendCalendar, hmethod, hsequence, hstatus, hstamp _ hupdated, hdtstart _ hstart,
    hdtend _ hfinish, readProperty_uid, readProperty_summary, readProperty_organizer,
    readProperty_attendee]

/-! ## Lines -/

/-- A line that ends nowhere within, and goes on with no other. -/
def Plain (line : JsString) : Prop := cr ∉ line ∧ line ≠ [] ∧ isContinuation line = false

instance : DecidablePred Plain := fun line =>
  inferInstanceAs (Decidable (cr ∉ line ∧ line ≠ [] ∧ isContinuation line = false))

theorem plain_append {label value : JsString} (h : Plain label) (hvalue : cr ∉ value) :
    Plain (label ++ value) := by
  obtain ⟨hcr, hne, hfirst⟩ := h
  refine ⟨?_, List.append_ne_nil_of_left_ne_nil hne value, ?_⟩
  · rw [List.mem_append, not_or]
    exact ⟨hcr, hvalue⟩
  · cases label with
    | nil => exact absurd rfl hne
    | cons u label => exact hfirst

theorem cr_not_mem_stamp (t : Instant) : cr ∉ stamp t := by
  intro hmem
  obtain ⟨c, hc, hunit⟩ := List.mem_map.mp hmem
  have hdigits : ∀ c : Char, c.isDigit = true → unit c ≠ cr := by
    intro c hc heq
    have hbound := Char.isDigit_iff_toNat.mp hc
    have hlow : '0'.toNat = 48 := rfl
    have hhigh : '9'.toNat = 57 := rfl
    have hnat : c.toNat % 2 ^ 16 = 13 := congrArg UInt16.toNat heq
    omega
  have hmarks : ∀ c ∈ ['+', '-', 'T', ':', '.', 'Z'], unit c ≠ cr :=
    List.all_iff_forall_prop.mp (by decide)
  rcases List.mem_append.mp hc with hc | hc
  · rcases mem_toISOText (List.mem_of_mem_filter (List.mem_of_mem_take hc)) with hdigit | hmark
    · exact hdigits c hdigit hunit
    · exact hmarks c hmark hunit
  · exact hmarks c (by rw [List.mem_singleton.mp hc]; decide) hunit

theorem cr_not_mem_number (x : JsNumber) : cr ∉ x.text := by
  cases x with
  | finite x =>
    intro hmem
    obtain ⟨c, hc, hunit⟩ := List.mem_map.mp hmem
    have hnumber := Doubles.isNumberChar_text x c hc
    have hback := ofNat_unit (toNat_lt_of_isNumberChar hnumber)
    rw [hunit] at hback
    rw [← hback] at hnumber
    exact absurd hnumber (by decide)
  | negativeZero => decide
  | nan => decide
  | infinity negative => cases negative <;> decide

/-- **The lines of a file are plain**, whatever the texts in them. -/
theorem plain_calendarLines (input : CalendarInput) : ∀ line ∈ calendarLines input, Plain line := by
  have hmethod : cr ∉ units input.method := by
    unfold CalendarInput.method
    split_ifs <;> decide
  have hattendee : Plain (units "ATTENDEE" ++ units input.attendeeParameters
      ++ units ":mailto:") := by
    unfold CalendarInput.attendeeParameters
    split_ifs <;> decide
  have hstatus : cr ∉ units (if input.cancelled then "CANCELLED" else "CONFIRMED") := by
    split_ifs <;> decide
  refine List.forall_mem_append.mpr ⟨List.forall_mem_append.mpr ⟨?_, ?_⟩, by decide⟩
  · simp only [List.forall_mem_cons]
    exact ⟨by decide, by decide, by decide, plain_append (by decide) hmethod, by decide,
      plain_append (by decide) (cr_not_mem_escapeText _),
      plain_append (by decide) (cr_not_mem_number _), plain_append (by decide) (cr_not_mem_stamp _),
      plain_append (by decide) (cr_not_mem_stamp _), plain_append (by decide) (cr_not_mem_stamp _),
      plain_append (by decide) (cr_not_mem_escapeText _), plain_append (by decide) hstatus, by simp⟩
  · intro line hmem
    obtain ⟨invitation, -, hmem⟩ := List.mem_flatMap.mp hmem
    rcases List.mem_cons.mp hmem with rfl | hmem
    · exact plain_append (by decide) (cr_not_mem_escapeText _)
    · rw [List.mem_singleton.mp hmem]
      exact plain_append hattendee (cr_not_mem_escapeText _)

/-- The physical lines of a file are the chunks of its lines. -/
theorem splitLines_calendarFile (input : CalendarInput) :
    splitLines (calendarFile input) = (calendarLines input).flatMap chunks ++ [[]] := by
  rw [calendarFile_eq, splitLines_flatMap]
  intro chunk hmem
  obtain ⟨line, hline, hchunk⟩ := List.mem_flatMap.mp hmem
  exact cr_not_mem_chunks (plain_calendarLines input line hline).1 chunk hchunk

/-- **A calendar file cannot be broken by its content.** Its physical lines have at
most 75 octets. Unfolded, they are the lines of the file and nothing else. And
these are read as the properties the file is to have, with the texts as they were
given, without carriage returns, and the instants cut to whole seconds. -/
theorem calendarFile_reads (input : CalendarInput) (hupdated : PlainYear input.updatedAt)
    (hstart : PlainYear input.start) (hfinish : PlainYear input.finish) :
    (∀ line ∈ splitLines (calendarFile input), octets line ≤ 75) ∧
      unfoldLines (splitLines (calendarFile input)) = calendarLines input ++ [[]] ∧
      (calendarLines input).map readProperty = properties input := by
  rw [splitLines_calendarFile]
  refine ⟨fun line hmem => ?_, ?_, readProperty_calendarLines hupdated hstart hfinish⟩
  · rcases List.mem_append.mp hmem with hmem | hmem
    · obtain ⟨_, -, hchunk⟩ := List.mem_flatMap.mp hmem
      exact (octets_chunks _ line hchunk).trans (by decide)
    · rw [List.mem_singleton.mp hmem]
      decide
  · exact unfoldLines_flatMap fun line hline =>
      folded_chunks (plain_calendarLines input line hline).2.2

/-- A viewing, by a text with line breaks and what separates values. -/
def sampleInput : CalendarInput :=
  { uid := units "viewing\n;1"
    sequence := .negativeZero
    reference := [unit 'A', cr, lf, unit ',', unit ';']
    purpose := some .photography
    start := 1768000000123
    finish := 1768003600456
    cancelled := false
    updatedAt := 1767990000000
    invitation := some ⟨units "desk@example.test", units "a
STATUS:CANCELLED"⟩ }

theorem calendarFile_reads_sample :
    (∀ line ∈ splitLines (calendarFile sampleInput), octets line ≤ 75) ∧
      unfoldLines (splitLines (calendarFile sampleInput)) = calendarLines sampleInput ++ [[]] ∧
      (calendarLines sampleInput).map readProperty = properties sampleInput :=
  calendarFile_reads sampleInput ⟨by decide, by decide⟩ ⟨by decide, by decide⟩
    ⟨by decide, by decide⟩

end CalendarFile
