import Mathlib.Data.Bool.AllAny
import MsRealty.Binary64
import MsRealty.DecimalText
import MsRealty.PercentEncoding

/-!
# The response that downloads a file

`downloadResponse` of `src/server/files/download.ts`: the bytes of a file that the caller may
read, or the part of them that a `Range` header asks for. The bounds are numbers of the
language, as the source computes them: they may be rounded, negative or infinite until the
response has checked them.
-/

namespace Download

/-! ## Numbers -/

/-- The numbers of the language but `NaN`, which no bound of a range becomes. -/
abbrev Number := WithBot (WithTop ℚ)

/-- A rational number as a number. -/
def Number.ofRat (q : ℚ) : Number := ((q : WithTop ℚ) : Number)

/-- `Number.POSITIVE_INFINITY`. -/
def Number.infinity : Number := ((⊤ : WithTop ℚ) : Number)

/-- The number closest to a rational number, either sign. -/
def round (q : ℚ) : ℚ := if q < 0 then -Binary64.nearest (-q) else Binary64.nearest q

/-- **`Number(digits)`**, a magnitude above every number being infinite. -/
def Number.ofDigits (digits : List Char) : Number :=
  let value := Binary64.nearest (Nat.ofDigitChars 10 digits 0)
  if value < 2 ^ 1024 then .ofRat value else .infinity

/-- `length - number`. -/
def Number.before (length : ℕ) : Number → Number
  | none => .infinity
  | some none => ⊥
  | some (some q) => .ofRat (round (length - q))

/-- `Number.isSafeInteger(number)`, with the integer. -/
def Number.safeInteger? : Number → Option ℤ
  | some (some q) => if q.den = 1 ∧ |q.num| ≤ 2 ^ 53 - 1 then some q.num else none
  | _ => none

/-! ## Headers -/

/-- **A value that a header may have**: bytes without a null or a line break, and no blank at
either end. The constructor of `Headers` refuses every other value. -/
def IsHeaderValue (text : String) : Prop :=
  (∀ c ∈ text.toList, c.toNat < 256 ∧ c ≠ Char.ofNat 0 ∧ c ≠ '\n' ∧ c ≠ '\r') ∧
    (∀ c ∈ text.toList.head?, c ≠ ' ' ∧ c ≠ '\t') ∧
    ∀ c ∈ text.toList.getLast?, c ≠ ' ' ∧ c ≠ '\t'

instance (text : String) : Decidable (IsHeaderValue text) :=
  @instDecidableAnd _ _ (List.decidableBAll _ _)
    (@instDecidableAnd _ _ (Option.decidableForallMem _) (Option.decidableForallMem _))

/-- A header's value. -/
structure HeaderValue where
  text : String
  valid : IsHeaderValue text

/-- The headers of a response, by their names in lower case. -/
abbrev Headers := List (String × String)

/-- `headers.get(name)`. -/
def Headers.get (headers : Headers) (name : String) : Option String := headers.lookup name

/-- `headers.set(name, value)`. -/
def Headers.set (headers : Headers) (name value : String) : Headers :=
  headers.filter (fun header => header.1 ≠ name) ++ [(name, value)]

theorem Headers.get_set (headers : Headers) (name value other : String) :
    (headers.set name value).get other =
      if other = name then some value else headers.get other := by
  induction headers with
  | nil =>
    show ((name, value) :: ([] : Headers)).lookup other = if other = name then some value else none
    rw [List.lookup_cons, List.lookup_nil]
    by_cases h : other = name
    · rw [if_pos h, beq_iff_eq.mpr h]
    · rw [if_neg h, beq_false_of_ne h]
  | cons header headers ih =>
    obtain ⟨key, text⟩ := header
    simp only [Headers.set, Headers.get] at ih ⊢
    by_cases hkey : key = name
    · rw [List.filter_cons_of_neg (by simp [hkey]), ih]
      by_cases h : other = name
      · simp [h]
      · have hne : (other == key) = false := by simp [hkey, h]
        simp [h, List.lookup_cons, hne]
    · rw [List.filter_cons_of_pos (by simp [hkey]), List.cons_append, List.lookup_cons, ih,
        List.lookup_cons]
      by_cases h : other = name
      · have hne : (other == key) = false := by simp [h, Ne.symm hkey]
        rw [hne, if_pos h]
      · rw [if_neg h, if_neg h]

/-- The characters that `encodeURIComponent` leaves as they are. -/
def isUnreserved (c : Char) : Bool :=
  c.isAlphanum || c ∈ ['-', '_', '.', '!', '~', '*', '\'', '(', ')']

/-- `encodeURIComponent(text)`. -/
def encodeURIComponent (text : List Char) : List Char := Percent.encode isUnreserved text

/-- `text.replace(/['()*]/g, (char) => "%" + char.charCodeAt(0).toString(16))`. -/
def escapeQuotes (text : List Char) : List Char :=
  text.flatMap fun c =>
    if c ∈ ['\'', '(', ')', '*'] then '%' :: Nat.toDigits 16 c.toNat else [c]

/-! ## The response -/

/-- The bytes of a buffer, of which there are fewer than `2 ** 53`. -/
structure Buffer where
  data : List UInt8
  bound : data.length < 2 ^ 53

/-- `bytes.length`. -/
abbrev Buffer.length (bytes : Buffer) : ℕ := bytes.data.length

/-- `bytes.subarray(start, end)`: a negative position counts from the end. -/
def Buffer.subarray (bytes : Buffer) (start stop : ℤ) : List UInt8 :=
  let position (i : ℤ) : ℕ :=
    if i < 0 then (bytes.length + i).toNat else min i.toNat bytes.length
  (bytes.data.drop (position start)).take (position stop - position start)

/-- `FileDownload`. -/
structure FileDownload where
  bytes : Buffer
  contentType : HeaderValue
  fileName : String
  inline : Bool

/-- A response, of which the bytes of the body are read. -/
structure Response where
  status : ℕ
  headers : Headers
  body : Option (List UInt8)

/-- The value of `content-disposition`. -/
def disposition (file : FileDownload) : String :=
  (if file.inline then "inline" else "attachment") ++
    "; filename=\"download\"; filename*=UTF-8''" ++
    String.ofList (escapeQuotes (encodeURIComponent file.fileName.toList))

/-- The headers that every response starts from. -/
def baseHeaders (file : FileDownload) (cacheControl : HeaderValue) : Headers :=
  [("content-type", file.contentType.text),
    ("cache-control", cacheControl.text),
    ("x-content-type-options", "nosniff"),
    ("content-security-policy", "sandbox; default-src 'none'"),
    ("cross-origin-resource-policy", "same-origin"),
    ("referrer-policy", "no-referrer"),
    ("accept-ranges", "bytes"),
    ("content-disposition", disposition file)]

/-- **`unsatisfiable`**: never cached, whatever the representation's own policy. -/
def unsatisfiable (file : FileDownload) (cacheControl : HeaderValue) : Response where
  status := 416
  headers := ((baseHeaders file cacheControl).set "cache-control" "private, no-store").set
    "content-range" ("bytes */" ++ toString file.bytes.length)
  body := none

/-- `/^bytes=(\d*)-(\d*)$/.exec(range)`. -/
def rangeMatch (range : List Char) : Option (List Char × List Char) :=
  match range.dropPrefix? ['b', 'y', 't', 'e', 's', '='] with
  | none => none
  | some rest =>
    match rest.dropWhile Char.isDigit with
    | '-' :: last =>
      if last.all Char.isDigit then some (rest.takeWhile Char.isDigit, last) else none
    | _ => none

/-- **The bounds that a range header asks for**, where it has the form of one range. -/
def bounds (length : ℕ) (range : String) : Option (Number × Number) :=
  match rangeMatch range.toList with
  | none => none
  | some ([], []) => none
  | some ([], last) => some (max (.ofRat 0) (.before length (.ofDigits last)),
      .before length (.ofRat 1))
  | some (first, []) => some (.ofDigits first, .before length (.ofRat 1))
  | some (first, last) => some (.ofDigits first,
      min (.before length (.ofRat 1)) (.ofDigits last))

/-- **The bounds as positions**, if they select a byte: the checks before a partial response. -/
def checkedBounds (length : ℕ) (range : String) : Option (ℤ × ℤ) :=
  match bounds length range with
  | none => none
  | some (start, stop) =>
    match start.safeInteger?, stop.safeInteger? with
    | some start, some stop => if start > stop ∨ start ≥ length then none else some (start, stop)
    | _, _ => none

/-- The response with the bytes from one position to another. -/
def respond (file : FileDownload) (headers : Headers) (status : ℕ) (start stop : ℤ) :
    Response where
  status := status
  headers := headers.set "content-length" (toString (stop - start + 1))
  body := some (file.bytes.subarray start (stop + 1))

/-- **`downloadResponse`.** A header without a text is falsy, and counts as none. -/
def downloadResponse (file : FileDownload) (range : Option String)
    (cacheControl : HeaderValue) : Response :=
  let headers := baseHeaders file cacheControl
  match range with
  | none | some "" => respond file headers 200 0 (file.bytes.length - 1)
  | some range =>
    match checkedBounds file.bytes.length range with
    | none => unsatisfiable file cacheControl
    | some (start, stop) =>
      respond file (headers.set "content-range"
        ("bytes " ++ toString start ++ "-" ++ toString stop ++ "/" ++
          toString file.bytes.length)) 206 start stop

end Download
