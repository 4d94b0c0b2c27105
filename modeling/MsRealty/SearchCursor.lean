import MsRealty.Base64Url
import MsRealty.CanonicalJson
import MsRealty.IsoInstant
import MsRealty.Numeric
import MsRealty.SearchInput

/-!
# The cursor of a search

The cursor a page hands out for the next one (`src/server/search/search.ts`):
the JSON of the identity of the query, the sort key of the last row shown, and
the total and the instant of the first page, in URL-safe base64. The keys of a
row are exact decimals and travel as their text. A cursor is checked when it
comes back: the form of its keys, the listing id, that its total is a number
and its instant a date, and that it belongs to the query.

Date texts other than those of ISO 8601 are the host's, and so is SHA-256.
-/

namespace Search

open JsonText

/-! ## The host -/

/-- What the runtime does. -/
structure Host where
  /-- The SHA-256 of a text, in hexadecimal. -/
  sha256Hex : List Char → List Char
  /-- How `Date.parse` reads a text that is not in ISO 8601 form. -/
  parseOther : List Char → Option Instant

/-- A digest is 64 hexadecimal digits of lower case. -/
def Host.HexDigests (host : Host) : Prop :=
  ∀ text, (host.sha256Hex text).length = 64 ∧
    ∀ c ∈ host.sha256Hex text, c.isDigit = true ∨ 'a' ≤ c ∧ c ≤ 'f'

/-- `Date.parse`: no instant is `NaN`. -/
def Host.dateParse (host : Host) (text : List Char) : Option Instant :=
  (IsoInstant.parseISO text).or (host.parseOther text)

mutual

/-- An element of an array that is joined. -/
def jsElement : JsonValue → List Char
  | .null => []
  | .bool b => if b then "true".toList else "false".toList
  | .num n => numberText n
  | .str s => s.toList
  | .arr [] => []
  | .arr (item :: items) => jsElement item ++ jsElements items
  | .obj _ => "[object Object]".toList

/-- The elements after the first. -/
def jsElements : List JsonValue → List Char
  | [] => []
  | item :: items => ',' :: jsElement item ++ jsElements items

end

/-- `String(value)`: null, which an array drops, is written out. -/
def jsString : JsonValue → List Char
  | .null => "null".toList
  | value => jsElement value

/-- `new Date(value)`. -/
def Host.dateOf (host : Host) : JsonValue → Option Instant
  | .num n => if |n| ≤ IsoInstant.maxTime then some (if 0 ≤ n then ⌊n⌋ else ⌈n⌉) else none
  | .bool b => some (if b then 1 else 0)
  | .null => some 0
  | value => host.dateParse (jsString value)

/-! ## The identity of a query -/

/-- A member that is there if its value is. -/
def optionalMember (key : String) (value : Option JsonValue) : List (String × JsonValue) :=
  (value.map (fun value => (key, value))).toList

/-- A list of names. -/
def namesJson {α : Type*} (name : α → String) (values : List α) : JsonValue :=
  .arr (values.map (fun v => .str (name v)))

/-- The bounds of a range. -/
def rangeMembers {α : Type*} (number : α → ℚ) (range : Range α) : List (String × JsonValue) :=
  optionalMember "min" (range.min.map (fun n => .num (number n)))
    ++ optionalMember "max" (range.max.map (fun n => .num (number n)))

/-- The criteria of a search as JSON. -/
def SearchCriteria.toJson (criteria : SearchCriteria) : JsonValue :=
  .obj ([("purpose", .str criteria.purpose.name)]
    ++ optionalMember "propertyTypes" (criteria.propertyTypes.map (namesJson PropertyType.name))
    ++ optionalMember "placeIds" (criteria.placeIds.map (namesJson id))
    ++ optionalMember "availability"
      (criteria.availability.map (namesJson CommercialState.name))
    ++ optionalMember "price" (criteria.price.map (fun price =>
      .obj (("currency", .str price.currency.name) :: rangeMembers Int.cast price.toRange)))
    ++ optionalMember "bedrooms"
      (criteria.bedrooms.map (fun range => .obj (rangeMembers Int.cast range)))
    ++ optionalMember "rooms"
      (criteria.rooms.map (fun range => .obj (rangeMembers Int.cast range)))
    ++ optionalMember "area" (criteria.area.map (fun area =>
      .obj (("basis", .str area.basis.basis.name) :: rangeMembers id area.toRange)))
    ++ optionalMember "mustHave" (criteria.mustHave.map (namesJson id))
    ++ [("includeNeedsConfirmation", .bool criteria.includeNeedsConfirmation)])

/-- A search without its cursor. -/
def NormalizedSearch.identity (search : NormalizedSearch) : JsonValue :=
  .obj [("locale", .str search.locale.name), ("criteria", search.criteria.toJson),
    ("q", (search.q.map JsonValue.str).getD .null), ("sort", .str search.sort.name),
    ("pageSize", .num search.pageSize)]

/-- **The identity of a query**, whatever its page. -/
def queryIdOf (host : Host) (search : NormalizedSearch) : String :=
  String.ofList ((host.sha256Hex (canonicalJson search.identity)).take 24)

/-! ## Cursors -/

/-- **A cursor.** -/
structure Cursor where
  /-- The query it belongs to. -/
  query : String
  /-- The keys of the last row shown: two decimals and the listing. -/
  key : String × String × String
  /-- The total the first page counted. -/
  total : ℚ
  /-- When the first page was read. -/
  asOf : JsonValue

/-- A cursor as JSON. -/
def Cursor.toJson (cursor : Cursor) : JsonValue :=
  .obj [("query", .str cursor.query),
    ("key", .arr [.str cursor.key.fst, .str cursor.key.snd.fst, .str cursor.key.snd.snd]),
    ("total", .num cursor.total), ("asOf", cursor.asOf)]

/-- **The text of a cursor.** -/
def encodeCursor (cursor : Cursor) : String :=
  String.ofList (Base64Url.encode (Utf8.encode (stringify cursor.toJson)))

/-- A refused cursor. -/
def cursorError (code : String) : AppError Unit :=
  { AppError.ofCode .validationFailed with fieldErrors := some [("cursor", [code])] }

/-- The keys of a cursor: the first three items, if it has them as strings. -/
def cursorKey? : Option JsonValue → Option (String × String × String)
  | some (.arr (.str k1 :: .str k2 :: .str id :: _)) => some (k1, k2, id)
  | _ => none

/-- The fields of a cursor, if they have the form a cursor has. -/
def readCursor (host : Host) (json : JsonValue) :
    Option (Option JsonValue × (String × String × String) × ℚ × JsonValue) := do
  let (k1, k2, id) ← cursorKey? (json.get? "key")
  let total ← match json.get? "total" with
    | some (.num total) => some total
    | _ => none
  -- A missing instant is no date.
  let asOf ← json.get? "asOf"
  let _ ← host.dateParse (jsString asOf)
  if Numeric.isText k1.toList ∧ Numeric.isText k2.toList ∧ isUuid id.toList then
    some (json.get? "query", (k1, k2, id), total, asOf)
  else none

/-- **Reads a cursor** that belongs to a query. -/
def decodeCursor (host : Host) (value : String) (queryId : String) :
    Except (AppError Unit) Cursor :=
  match (parse (Utf8.decode (Base64Url.decode value.toList))).bind (readCursor host) with
  | none => .error (cursorError "invalid")
  | some (query, key, total, asOf) =>
    match query with
    | some (.str query) =>
      if query = queryId then .ok ⟨query, key, total, asOf⟩
      else .error (cursorError "query_changed")
    | _ => .error (cursorError "query_changed")

/-! ## A cursor is read back -/

/-- A cursor as a page hands it out: its keys are the texts of decimals, its
total is a whole number and its instant the text of a date. -/
structure Cursor.WellFormed (cursor : Cursor) : Prop where
  key₁ : Numeric.isText cursor.key.fst.toList = true
  key₂ : Numeric.isText cursor.key.snd.fst.toList = true
  id : isUuid cursor.key.snd.snd.toList = true
  total : PlainNumber cursor.total
  asOf : ∃ t, IsoInstant.ValidTime t ∧
    cursor.asOf = .str (String.ofList (IsoInstant.toISOText t))

theorem Cursor.WellFormed.plain {cursor : Cursor} (h : cursor.WellFormed) :
    Plain cursor.toJson := by
  obtain ⟨t, -, hasOf⟩ := h.asOf
  refine ⟨trivial, ⟨trivial, trivial, trivial, trivial⟩, h.total.decimal, ?_, trivial⟩
  rw [hasOf]
  trivial

theorem Host.dateParse_toISOText (host : Host) {t : Instant} (h : IsoInstant.ValidTime t) :
    host.dateParse (IsoInstant.toISOText t) = some t := by
  rw [Host.dateParse, IsoInstant.parseISO_toISOText h]
  rfl

/-- **A well-formed cursor passes its check** and is read back as it was. -/
theorem decodeCursor_encodeCursor (host : Host) {cursor : Cursor} (h : cursor.WellFormed) :
    decodeCursor host (encodeCursor cursor) cursor.query = .ok cursor := by
  obtain ⟨t, ht, hasOf⟩ := h.asOf
  have hparse : parse (Utf8.decode (Base64Url.decode (encodeCursor cursor).toList))
      = some cursor.toJson := by
    rw [encodeCursor, String.toList_ofList, Base64Url.decode_encode (Utf8.encode_lt _),
      Utf8.decode_encode, parse_stringify h.plain]
  have hstring : jsString cursor.asOf = IsoInstant.toISOText t := by
    rw [hasOf]
    exact String.toList_ofList
  have hdate : host.dateParse (jsString cursor.asOf) = some t := by
    rw [hstring]
    exact host.dateParse_toISOText ht
  have hread : readCursor host cursor.toJson
      = some (some (.str cursor.query), cursor.key, cursor.total, cursor.asOf) := by
    have hquery : cursor.toJson.get? "query" = some (.str cursor.query) := by
      simp [Cursor.toJson, JsonValue.get?]
    have hkey : cursorKey? (cursor.toJson.get? "key") = some cursor.key := by
      simp [Cursor.toJson, JsonValue.get?, cursorKey?]
    have htotal : cursor.toJson.get? "total" = some (.num cursor.total) := by
      simp [Cursor.toJson, JsonValue.get?]
    have hasOf' : cursor.toJson.get? "asOf" = some cursor.asOf := by
      simp [Cursor.toJson, JsonValue.get?]
    simp only [readCursor, hquery, hkey, htotal, hasOf', hdate, Option.bind_eq_bind,
      Option.bind_some]
    exact if_pos ⟨h.key₁, h.key₂, h.id⟩
  rw [decodeCursor, hparse, Option.bind_some, hread]
  exact if_pos rfl

/-! ## The cursors that are handed out -/

/-- The cursor after a row: its keys, the listing, the total and the instant
of the first page. -/
def cursorAfter (query : String) (k1 k2 : Numeric) (id : Uuid) (total : ℕ) (asOf : Instant) :
    Cursor where
  query := query
  key := (String.ofList k1.text, String.ofList k2.text, id)
  total := total
  asOf := .str (String.ofList (IsoInstant.toISOText asOf))

/-- A total is a plain number. -/
theorem plainNumber_total {total : ℕ} (htotal : total < 10 ^ 21) :
    PlainNumber (total : ℚ) := by
  refine ⟨Rat.den_natCast total, ?_⟩
  rw [Rat.num_natCast, Int.natAbs_natCast]
  exact htotal

theorem cursorAfter_wellFormed {query : String} {k1 k2 : Numeric} {id : Uuid} {total : ℕ}
    {asOf : Instant} (hid : isUuid id.toList = true) (htotal : total < 10 ^ 21)
    (hasOf : IsoInstant.ValidTime asOf) :
    (cursorAfter query k1 k2 id total asOf).WellFormed where
  key₁ := by
    show Numeric.isText (String.ofList k1.text).toList = true
    rw [String.toList_ofList, Numeric.isText_text]
  key₂ := by
    show Numeric.isText (String.ofList k2.text).toList = true
    rw [String.toList_ofList, Numeric.isText_text]
  id := hid
  total := plainNumber_total htotal
  asOf := ⟨asOf, hasOf, rfl⟩

theorem isHexDigit_plain {c : Char} (h : isHexDigit c = true) : plainChar c = true := by
  simp only [isHexDigit, Bool.or_eq_true, Bool.and_eq_true, decide_eq_true_eq] at h
  have hplain : ∀ {low high : Char}, low ≤ c → c ≤ high → 0x23 ≤ low.toNat →
      high.toNat < 0x5c ∨ 0x5c < low.toNat ∧ high.toNat < 0x80 → plainChar c = true := by
    intro low high hlow hhigh hl hh
    have hlow' : low.toNat ≤ c.toNat := hlow
    have hhigh' : c.toNat ≤ high.toNat := hhigh
    have hquote : c ≠ '"' := by rintro rfl; simp only [Char.reduceToNat] at hlow'; omega
    have hslash : c ≠ '\\' := by
      rintro rfl
      simp only [Char.reduceToNat] at hlow' hhigh'
      omega
    simp only [plainChar, Bool.and_eq_true, decide_eq_true_eq, bne_iff_ne, ne_eq]
    exact ⟨⟨⟨by omega, by omega⟩, hquote⟩, hslash⟩
  obtain (hdigit | ⟨hlow, hhigh⟩) | ⟨hlow, hhigh⟩ := h
  · exact plainChar_of_isDigit hdigit
  · exact hplain hlow hhigh (by decide) (by decide)
  · exact hplain hlow hhigh (by decide) (by decide)

theorem plainText_of_all {text : List Char} (h : text.all plainChar = true) : PlainText text :=
  List.all_eq_true.mp h

/-- A UUID is a plain text of 36 characters. -/
theorem isUuid_plain {s : List Char} (h : isUuid s = true) : s.length = 36 ∧ PlainText s := by
  simp only [isUuid, Bool.or_eq_true, Bool.and_eq_true, decide_eq_true_eq] at h
  obtain (⟨⟨⟨hlength, hchars⟩, -⟩, -⟩ | rfl) | rfl := h
  · refine ⟨hlength, fun c hc => ?_⟩
    obtain ⟨i, hi, rfl⟩ := List.getElem_of_mem hc
    have hchar := List.all_eq_true.mp hchars (s[i], i) (by
      rw [List.mem_zipIdx_iff_getElem?]
      exact List.getElem?_eq_getElem hi)
    dsimp only at hchar
    split_ifs at hchar with hdash
    · rw [of_decide_eq_true hchar]
      decide
    · exact isHexDigit_plain hchar
  · exact ⟨by decide +kernel, plainText_of_all (by decide +kernel)⟩
  · exact ⟨by decide +kernel, plainText_of_all (by decide +kernel)⟩

theorem plainText_numeric (n : Numeric) : PlainText n.text := by
  intro c hc
  obtain rfl | rfl | hdigit := Numeric.mem_text hc
  · decide
  · decide
  · exact plainChar_of_isDigit hdigit

theorem plainText_toISOText (t : Instant) : PlainText (IsoInstant.toISOText t) := by
  intro c hc
  obtain hdigit | hmark := IsoInstant.mem_toISOText hc
  · exact plainChar_of_isDigit hdigit
  · have hmarks : PlainText ['+', '-', 'T', ':', '.', 'Z'] := plainText_of_all (by decide)
    exact hmarks c hmark

section Length

variable {query : String} {k1 k2 : Numeric} {id : Uuid} {total : ℕ} {asOf : Instant}

/-- The JSON of a cursor, written out. -/
theorem stringify_cursorAfter : stringify (cursorAfter query k1 k2 id total asOf).toJson
    = '{' :: (stringText "query" ++ ':' :: (stringText query
      ++ ',' :: (stringText "key" ++ ':' :: '[' :: (stringText (String.ofList k1.text)
      ++ ',' :: (stringText (String.ofList k2.text) ++ ',' :: (stringText id
      ++ ']' :: ',' :: (stringText "total" ++ ':' :: (numberText total
      ++ ',' :: (stringText "asOf"
      ++ ':' :: (stringText (String.ofList (IsoInstant.toISOText asOf)) ++ ['}'])))))))))) := by
  simp only [Cursor.toJson, cursorAfter, stringify, membersText, itemsText, List.cons_append,
    List.append_assoc, List.nil_append]

theorem plainText_fields : PlainText "query".toList ∧ PlainText "key".toList ∧
    PlainText "total".toList ∧ PlainText "asOf".toList := by
  exact ⟨plainText_of_all (by decide +kernel), plainText_of_all (by decide +kernel),
    plainText_of_all (by decide +kernel), plainText_of_all (by decide +kernel)⟩

theorem plainText_ofList {text : List Char} (h : PlainText text) :
    PlainText (String.ofList text).toList := by
  rw [String.toList_ofList]
  exact h

/-- The JSON of a cursor is ASCII. -/
theorem stringify_cursorAfter_ascii (hquery : PlainText query.toList)
    (hid : isUuid id.toList = true) (htotal : total < 10 ^ 21) :
    ∀ c ∈ stringify (cursorAfter query k1 k2 id total asOf).toJson, c.toNat < 0x80 := by
  obtain ⟨hq, hk, ht, ha⟩ := plainText_fields
  rw [stringify_cursorAfter]
  simp only [List.forall_mem_cons, List.forall_mem_append]
  exact ⟨by decide, stringText_ascii hq, by decide, stringText_ascii hquery, by decide,
    stringText_ascii hk, by decide, by decide,
    stringText_ascii (plainText_ofList (plainText_numeric k1)), by decide,
    stringText_ascii (plainText_ofList (plainText_numeric k2)), by decide,
    stringText_ascii (isUuid_plain hid).2, by decide, by decide, stringText_ascii ht, by decide,
    numberText_ascii (plainNumber_total htotal), by decide, stringText_ascii ha, by decide,
    stringText_ascii (plainText_ofList (plainText_toISOText asOf)), by decide,
    fun _ h => (List.not_mem_nil h).elim⟩

theorem length_numberText_total (htotal : total < 10 ^ 5) :
    (numberText (total : ℚ)).length ≤ 5 := by
  have hlength : (Nat.toDigits 10 total).length ≤ 5 :=
    (Nat.length_toDigits_le_iff (by decide) (by decide)).mpr htotal
  rw [numberText_plain (plainNumber_total (lt_trans htotal (by decide))),
    if_neg (not_lt.mpr (Nat.cast_nonneg total)), Rat.num_natCast, Int.natAbs_natCast]
  exact hlength

/-- **The text of a cursor fits its field.** -/
theorem utf16Length_encodeCursor_le (hquery : PlainText query.toList)
    (hlength : query.toList.length ≤ 24) (hk1 : k1.text.length ≤ 64) (hk2 : k2.text.length ≤ 64)
    (hid : isUuid id.toList = true) (htotal : total < 10 ^ 5)
    (hasOf : IsoInstant.ValidTime asOf) :
    utf16Length (encodeCursor (cursorAfter query k1 k2 id total asOf)).toList ≤ 512 := by
  obtain ⟨hq, hk, ht, ha⟩ := plainText_fields
  have hascii : ∀ c ∈ stringify (cursorAfter query k1 k2 id total asOf).toJson, c.toNat < 0x80 :=
    stringify_cursorAfter_ascii hquery hid (lt_trans htotal (by decide))
  have hjson : (stringify (cursorAfter query k1 k2 id total asOf).toJson).length ≤ 300 := by
    have hdate := IsoInstant.length_toISOText_le hasOf
    have hnumber := length_numberText_total htotal
    have huuid := isUuid_plain hid
    have hfields : "query".toList.length = 5 ∧ "key".toList.length = 3 ∧
        "total".toList.length = 5 ∧ "asOf".toList.length = 4 := by decide +kernel
    obtain ⟨h1, h2, h3, h4⟩ := hfields
    rw [stringify_cursorAfter]
    simp only [List.length_cons, List.length_append, List.length_nil, length_stringText hq,
      length_stringText hk, length_stringText ht, length_stringText ha,
      length_stringText hquery, length_stringText huuid.2,
      length_stringText (plainText_ofList (plainText_numeric k1)),
      length_stringText (plainText_ofList (plainText_numeric k2)),
      length_stringText (plainText_ofList (plainText_toISOText asOf)), String.toList_ofList,
      huuid.1, h1, h2, h3, h4]
    omega
  rw [utf16Length, encodeCursor, String.toList_ofList,
    Utf16.length_encode_ascii (Base64Url.encode_ascii (Utf8.encode_lt _)),
    Base64Url.length_encode, Utf8.length_encode_ascii hascii]
  omega

end Length

end Search
