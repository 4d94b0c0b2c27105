import MsRealty.FileResponses

/-!
# Byte ranges are exact

What a single byte range is, how a header writes it and which positions of a file it selects,
next to what the response of `src/server/files/download.ts` does with a header. A bound is
read as a number of the language, which is exact up to `2 ** 53` and no less than that beyond:
as every position of a buffer is below, the response selects what the range says, whatever the
size of its numbers.
-/

namespace Download

/-! ## Ranges -/

/-- **A single range of bytes.** -/
inductive ByteRange
  | closed (first last : ℕ)
  | openEnd (first : ℕ)
  | suffix (count : ℕ)

/-- The digits are a way to write the number. -/
def Spells (digits : List Char) (n : ℕ) : Prop :=
  digits ≠ [] ∧ (∀ c ∈ digits, c.isDigit = true) ∧ Nat.ofDigitChars 10 digits 0 = n

/-- The text of a header with these bounds. -/
def headerText (first last : List Char) : List Char :=
  ['b', 'y', 't', 'e', 's', '='] ++ first ++ '-' :: last

/-- **The text is a range header for the range.** -/
def ByteRange.Writes (text : String) : ByteRange → Prop
  | .closed first last => ∃ a b, Spells a first ∧ Spells b last ∧ text.toList = headerText a b
  | .openEnd first => ∃ a, Spells a first ∧ text.toList = headerText a []
  | .suffix count => ∃ b, Spells b count ∧ text.toList = headerText [] b

/-- **The range selects the position** of a file with this length. -/
def ByteRange.Selects (length : ℕ) (p : ℕ) : ByteRange → Prop
  | .closed first last => first ≤ p ∧ p ≤ last ∧ p < length
  | .openEnd first => first ≤ p ∧ p < length
  | .suffix count => length ≤ p + count ∧ p < length

/-- The first position that the range asks for. -/
def ByteRange.first (length : ℕ) : ByteRange → ℕ
  | .closed first _ => first
  | .openEnd first => first
  | .suffix count => length - count

/-- The last position that the range asks for, of those before the end of the file. It is
`-1` when there are none. -/
def ByteRange.last (length : ℕ) : ByteRange → ℤ
  | .closed _ last => min (length - 1) last
  | .openEnd _ => length - 1
  | .suffix _ => length - 1

/-- The positions that a range selects are an interval. -/
theorem ByteRange.selects_iff {length p : ℕ} {range : ByteRange} :
    range.Selects length p ↔ range.first length ≤ p ∧ p ≤ range.last length := by
  cases range with
  | closed f l => simp only [Selects, ByteRange.first, ByteRange.last]; omega
  | openEnd f => simp only [Selects, ByteRange.first, ByteRange.last]; omega
  | suffix count => simp only [Selects, ByteRange.first, ByteRange.last]; omega

/-! ## The numbers that bounds are read as -/

/-- **A number is a reading of a natural number**: exact as far as all integers are, and as
large otherwise. -/
def Number.Reads (x : Number) (n : ℕ) : Prop :=
  n ≤ 2 ^ 53 ∧ x = .ofRat n ∨ 2 ^ 53 < n ∧ .ofRat (2 ^ 53) ≤ x

@[simp] theorem Number.ofRat_le {p q : ℚ} : Number.ofRat p ≤ Number.ofRat q ↔ p ≤ q := by
  simp [Number.ofRat]

theorem Number.ofDigits_reads (digits : List Char) :
    (Number.ofDigits digits).Reads (Nat.ofDigitChars 10 digits 0) := by
  set n := Nat.ofDigitChars 10 digits 0 with hn
  simp only [Number.ofDigits, ← hn, Number.Reads]
  by_cases h : n ≤ 2 ^ 53
  · left
    rw [Binary64.nearest_natCast h, if_pos]
    · exact ⟨h, rfl⟩
    · have hcast : (n : ℚ) ≤ 2 ^ 53 := by exact_mod_cast h
      exact hcast.trans_lt (pow_lt_pow_right₀ (by norm_num) (by norm_num))
  · right
    refine ⟨not_le.mp h, ?_⟩
    -- rounding is monotone, and `2 ** 53` is itself a number
    have hlarge : (2 ^ 53 : ℚ) ≤ Binary64.nearest n := by
      have hmono := Binary64.nearest_mono (p := ((2 ^ 53 : ℕ) : ℚ)) (q := n) (by positivity)
        (by exact_mod_cast (not_le.mp h).le)
      rw [Binary64.nearest_natCast le_rfl] at hmono
      exact_mod_cast hmono
    split
    · simpa using hlarge
    · simp [Number.ofRat, Number.infinity]

theorem round_natCast {n : ℕ} (h : n ≤ 2 ^ 53) : round n = n := by
  rw [round, if_neg (by simp), Binary64.nearest_natCast h]

theorem round_neg_one : round (-1) = -1 := by
  have h := Binary64.nearest_natCast (n := 1) (by norm_num)
  simp only [Nat.cast_one] at h
  simp [round, h]

theorem round_neg {q : ℚ} (h : q < 0) : round q ≤ 0 := by
  rw [round, if_pos h]
  linarith [Binary64.nearest_pos (q := -q) (by linarith)]

/-- The last position of a file. -/
theorem Number.before_one {length : ℕ} (h : length < 2 ^ 53) :
    Number.before length (.ofRat 1) = .ofRat ((length - 1 : ℤ) : ℚ) := by
  show Number.ofRat (round ((length : ℚ) - 1)) = _
  cases length with
  | zero => simp [round_neg_one]
  | succ n =>
    have hround := round_natCast (n := n) (by omega)
    simp [hround]

/-- A number from `2 ** 53` on is finite and at least that, or infinite. -/
theorem Number.large_cases {x : Number} (h : .ofRat (2 ^ 53) ≤ x) :
    x = .infinity ∨ ∃ q : ℚ, x = .ofRat q ∧ 2 ^ 53 ≤ q := by
  match x with
  | none => exact absurd (le_bot_iff.mp h) (WithBot.coe_ne_bot)
  | some none => exact Or.inl rfl
  | some (some q) => exact Or.inr ⟨q, rfl, Number.ofRat_le.mp h⟩

/-- The first position of a suffix. -/
theorem Number.max_before {length n : ℕ} (h : length < 2 ^ 53) {x : Number} (hx : x.Reads n) :
    max (.ofRat 0) (Number.before length x) = .ofRat ((length - n : ℕ) : ℚ) := by
  rcases hx with ⟨hn, rfl⟩ | ⟨hn, hx⟩
  · show max (Number.ofRat 0) (Number.ofRat (round ((length : ℚ) - n))) = _
    rcases le_or_gt n length with hle | hlt
    · rw [← Nat.cast_sub hle, round_natCast (by omega), max_eq_right (by simp)]
    · have hneg : (length : ℚ) - n < 0 := sub_neg.mpr (by exact_mod_cast hlt)
      rw [max_eq_left (by simpa using round_neg hneg), Nat.sub_eq_zero_of_le hlt.le]
      simp
  · rw [Nat.sub_eq_zero_of_le (by omega), Nat.cast_zero, max_eq_left]
    -- the difference with a finite number is negative, and with infinity it is `-Infinity`
    rcases Number.large_cases hx with rfl | ⟨q, rfl, hq⟩
    · exact bot_le
    · have hneg : (length : ℚ) - q < 0 := by
        have hlength : (length : ℚ) < 2 ^ 53 := by exact_mod_cast h
        linarith
      exact Number.ofRat_le.mpr (round_neg hneg)

/-- The smaller of a bound and the last position. -/
theorem Number.min_reads {length n : ℕ} (h : length < 2 ^ 53) {x : Number} (hx : x.Reads n) :
    min (.ofRat ((length - 1 : ℤ) : ℚ)) x = .ofRat ((min (length - 1) n : ℤ) : ℚ) := by
  rcases hx with ⟨hn, rfl⟩ | ⟨hn, hx⟩
  · rcases le_total ((length : ℤ) - 1) n with hle | hle
    · rw [min_eq_left hle, min_eq_left]
      simp only [Number.ofRat_le]
      exact_mod_cast hle
    · rw [min_eq_right hle, min_eq_right]
      · simp
      · simp only [Number.ofRat_le]
        exact_mod_cast hle
  · have hlast : (length : ℤ) - 1 ≤ 2 ^ 53 := by omega
    rw [min_eq_left (show (length : ℤ) - 1 ≤ n by omega), min_eq_left]
    refine le_trans ?_ hx
    simp only [Number.ofRat_le]
    exact_mod_cast hlast

theorem Number.safeInteger?_intCast {n : ℤ} (h : |n| ≤ 2 ^ 53 - 1) :
    (Number.ofRat n).safeInteger? = some n := by
  show (if (n : ℚ).den = 1 ∧ |(n : ℚ).num| ≤ 2 ^ 53 - 1 then some (n : ℚ).num else none) = _
  rw [if_pos ⟨Rat.den_intCast n, by rwa [Rat.num_intCast]⟩, Rat.num_intCast]

theorem Number.safeInteger?_large {x : Number} (h : .ofRat (2 ^ 53) ≤ x) :
    x.safeInteger? = none := by
  rcases Number.large_cases h with rfl | ⟨q, rfl, hq⟩
  · rfl
  · show (if q.den = 1 ∧ |q.num| ≤ 2 ^ 53 - 1 then some q.num else none) = none
    rw [if_neg]
    rintro ⟨hden, hnum⟩
    have hint : (q.num : ℚ) = q := Rat.den_eq_one_iff q |>.mp hden
    have hle : q.num ≤ 2 ^ 53 - 1 := (le_abs_self _).trans hnum
    have hlarge : (2 ^ 53 : ℤ) ≤ q.num := by
      rw [← hint] at hq
      exact_mod_cast hq
    omega

/-! ## Headers -/

theorem rangeMatch_headerText {a b : List Char} (ha : ∀ c ∈ a, c.isDigit = true)
    (hb : ∀ c ∈ b, c.isDigit = true) : rangeMatch (headerText a b) = some (a, b) := by
  have hdrop : (headerText a b).dropPrefix? ['b', 'y', 't', 'e', 's', '='] =
      some (a ++ '-' :: b) := by
    rw [headerText, List.append_assoc]
    exact List.dropPrefix?_append_of_beq _ (by simp)
  have hend : DecimalText.NoDigit ('-' :: b) := by simp [DecimalText.NoDigit]
  simp only [rangeMatch, hdrop, DecimalText.dropWhile_digits ha hend,
    DecimalText.takeWhile_digits ha hend]
  rw [if_pos (List.all_eq_true.mpr hb)]

theorem headerText_of_rangeMatch {text a b : List Char} (h : rangeMatch text = some (a, b)) :
    text = headerText a b ∧ (∀ c ∈ a, c.isDigit = true) ∧ ∀ c ∈ b, c.isDigit = true := by
  rw [rangeMatch.eq_def] at h
  split at h
  · cases h
  · rename_i rest hrest
    obtain ⟨start, rfl, hstart⟩ := List.dropPrefix?_eq_some_iff.mp hrest
    split at h
    · rename_i last hlast
      split at h
      · rename_i hall
        obtain ⟨rfl, rfl⟩ := Prod.mk.inj (Option.some.inj h)
        refine ⟨?_, List.all_eq_true.mp List.all_takeWhile, List.all_eq_true.mp hall⟩
        rw [eq_of_beq hstart, headerText, ← hlast, List.append_assoc,
          List.takeWhile_append_dropWhile]
      · cases h
    · cases h

/-- **The bounds of a header that writes a range** are a reading of its first position and
its last position before the end of the file. -/
theorem bounds_of_writes {length : ℕ} (hlength : length < 2 ^ 53) {text : String}
    {range : ByteRange} (h : range.Writes text) :
    ∃ start : Number, start.Reads (range.first length) ∧
      bounds length text = some (start, .ofRat (range.last length)) := by
  cases range with
  | closed first last =>
    obtain ⟨a, b, ⟨ha, hda, rfl⟩, ⟨hb, hdb, rfl⟩, htext⟩ := h
    refine ⟨.ofDigits a, Number.ofDigits_reads a, ?_⟩
    simp only [bounds, htext, rangeMatch_headerText hda hdb]
    cases a with
    | nil => exact absurd rfl ha
    | cons c a =>
      cases b with
      | nil => exact absurd rfl hb
      | cons d b =>
        simp only [Number.before_one hlength, Number.min_reads hlength (Number.ofDigits_reads _)]
        rfl
  | openEnd first =>
    obtain ⟨a, ⟨ha, hda, rfl⟩, htext⟩ := h
    refine ⟨.ofDigits a, Number.ofDigits_reads a, ?_⟩
    simp only [bounds, htext, rangeMatch_headerText hda (fun _ h => absurd h List.not_mem_nil)]
    cases a with
    | nil => exact absurd rfl ha
    | cons c a =>
      simp only [Number.before_one hlength]
      rfl
  | suffix count =>
    obtain ⟨b, ⟨hb, hdb, rfl⟩, htext⟩ := h
    refine ⟨.ofRat ((length - Nat.ofDigitChars 10 b 0 : ℕ) : ℚ),
      Or.inl ⟨by simp only [ByteRange.first]; omega, rfl⟩, ?_⟩
    simp only [bounds, htext, rangeMatch_headerText (fun _ h => absurd h List.not_mem_nil) hdb]
    cases b with
    | nil => exact absurd rfl hb
    | cons d b =>
      simp only [Number.before_one hlength, Number.max_before hlength (Number.ofDigits_reads _)]
      rfl

/-- Only a header that writes a range has bounds. -/
theorem writes_of_bounds {length : ℕ} {text : String} {found : Number × Number}
    (h : bounds length text = some found) : ∃ range : ByteRange, range.Writes text := by
  rw [bounds.eq_def] at h
  -- no match, neither bound, the last only, the first only, both
  split at h
  · cases h
  · cases h
  · rename_i last hlast hmatch
    obtain ⟨htext, -, hdigits⟩ := headerText_of_rangeMatch hmatch
    exact ⟨.suffix _, _, ⟨hlast, hdigits, rfl⟩, htext⟩
  · rename_i first hfirst hmatch
    obtain ⟨htext, hdigits, -⟩ := headerText_of_rangeMatch hmatch
    exact ⟨.openEnd _, _, ⟨hfirst, hdigits, rfl⟩, htext⟩
  · rename_i first last hnone hfirst hlast hmatch
    obtain ⟨htext, hda, hdb⟩ := headerText_of_rangeMatch hmatch
    exact ⟨.closed _ _, _, _, ⟨hfirst, hda, rfl⟩, ⟨hlast, hdb, rfl⟩, htext⟩

theorem ByteRange.last_bounds (length : ℕ) (range : ByteRange) :
    -1 ≤ range.last length ∧ range.last length < length := by
  cases range with
  | closed f l => simp only [ByteRange.last]; omega
  | openEnd f => simp only [ByteRange.last]; omega
  | suffix count => simp only [ByteRange.last]; omega

/-- **The positions that the response serves are those of the range**, and there are none when
the range selects no byte. -/
theorem checkedBounds_of_writes {length : ℕ} (hlength : length < 2 ^ 53) {text : String}
    {range : ByteRange} (h : range.Writes text) :
    checkedBounds length text =
      if (range.first length : ℤ) ≤ range.last length then
        some ((range.first length : ℤ), range.last length) else none := by
  obtain ⟨start, hstart, hbounds⟩ := bounds_of_writes hlength h
  obtain ⟨hlow, hhigh⟩ := range.last_bounds length
  have hsafe := Number.safeInteger?_intCast (n := range.last length) (abs_le.mpr (by omega))
  simp only [checkedBounds, hbounds, hsafe]
  rcases hstart with ⟨hle, rfl⟩ | ⟨hgt, hlarge⟩
  · rcases hle.eq_or_lt with heq | hlt
    · -- `2 ** 53` is read exactly, and is no safe integer
      rw [Number.safeInteger?_large (Number.ofRat_le.mpr (by exact_mod_cast heq.ge)),
        if_neg (by omega)]
    · have hfirst := Number.safeInteger?_intCast (n := range.first length)
        (abs_le.mpr (by omega))
      rw [Int.cast_natCast] at hfirst
      simp only [hfirst]
      by_cases hcross : (range.first length : ℤ) ≤ range.last length
      · rw [if_pos hcross, if_neg (by omega)]
      · rw [if_neg hcross, if_pos (by omega)]
  · rw [Number.safeInteger?_large hlarge, if_neg (by omega)]

/-- A header that writes no range selects no positions. -/
theorem checkedBounds_of_not_writes {length : ℕ} {text : String}
    (h : ¬ ∃ range : ByteRange, range.Writes text) : checkedBounds length text = none := by
  have hbounds : bounds length text = none := by
    cases hb : bounds length text with
    | none => rfl
    | some found => exact absurd (writes_of_bounds hb) h
  simp only [checkedBounds, hbounds]

/-! ## The response -/

/-- **An exact response**: to no header, or an empty one, all bytes; to a header that writes a
range which selects a byte, the selected bytes, and nothing to any other header. -/
structure Exact (file : FileDownload) (range : Option String) (response : Response) : Prop where
  whole : (range = none ∨ range = some "") → response.status = 200 ∧
    response.body = some file.bytes.data ∧
    response.headers.get "content-length" = some (toString file.bytes.length)
  part : ∀ text r p, range = some text → ByteRange.Writes text r →
    ByteRange.Selects file.bytes.length p r →
    ∃ (first last : ℕ) (body : List UInt8),
      (∀ q, ByteRange.Selects file.bytes.length q r ↔ first ≤ q ∧ q ≤ last) ∧
      response.status = 206 ∧ response.body = some body ∧ body.length = last + 1 - first ∧
      (∀ q, first ≤ q → q ≤ last → body[q - first]? = file.bytes.data[q]?) ∧
      response.headers.get "content-range" = some
        ("bytes " ++ toString first ++ "-" ++ toString last ++ "/" ++
          toString file.bytes.length) ∧
      response.headers.get "content-length" = some (toString (last + 1 - first))
  refused : ∀ text, range = some text → text ≠ "" →
    (¬ ∃ r p, ByteRange.Writes text r ∧ ByteRange.Selects file.bytes.length p r) →
    response.status = 416 ∧ response.body = none ∧
      response.headers.get "content-range" =
        some ("bytes */" ++ toString file.bytes.length)

theorem Buffer.length_lt (bytes : Buffer) : bytes.length < 2 ^ 53 := bytes.bound

/-- The bytes from a position of the buffer up to another one. -/
theorem Buffer.subarray_eq (bytes : Buffer) {first stop : ℕ} (hfirst : first ≤ bytes.length)
    (hstop : stop ≤ bytes.length) :
    bytes.subarray first stop = (bytes.data.drop first).take (stop - first) := by
  have hf : ¬ (first : ℤ) < 0 := by omega
  have hs : ¬ (stop : ℤ) < 0 := by omega
  simp only [Buffer.subarray, if_neg hf, if_neg hs, Int.toNat_natCast, min_eq_left hfirst,
    min_eq_left hstop]

theorem respond_whole (file : FileDownload) (headers : Headers) :
    (respond file headers 200 0 (file.bytes.length - 1)).body = some file.bytes.data ∧
      (respond file headers 200 0 (file.bytes.length - 1)).headers.get "content-length" =
        some (toString file.bytes.length) := by
  constructor
  · have hall := file.bytes.subarray_eq (Nat.zero_le _) le_rfl
    simp only [respond, sub_add_cancel]
    rw [Nat.cast_zero] at hall
    rw [hall, List.drop_zero, Nat.sub_zero, List.take_length]
  · simp only [respond, Headers.get_set, if_true, sub_zero, sub_add_cancel]
    rfl

theorem respond_part (file : FileDownload) (headers : Headers) {first last : ℕ}
    (hle : first ≤ last) (hlast : last < file.bytes.length) :
    ∃ body, (respond file headers 206 first last).body = some body ∧
      body.length = last + 1 - first ∧
      (∀ q, first ≤ q → q ≤ last → body[q - first]? = file.bytes.data[q]?) ∧
      (respond file headers 206 first last).headers.get "content-length" =
        some (toString (last + 1 - first)) := by
  refine ⟨(file.bytes.data.drop first).take (last + 1 - first), ?_, ?_, fun q hfirst hq => ?_, ?_⟩
  · have hpart := file.bytes.subarray_eq (show first ≤ file.bytes.length by omega)
      (show last + 1 ≤ file.bytes.length from hlast)
    simp only [respond]
    rw [← hpart, Nat.cast_add, Nat.cast_one]
  · rw [List.length_take, List.length_drop]
    exact min_eq_left (Nat.sub_le_sub_right hlast first)
  · rw [List.getElem?_take_of_lt (by omega), List.getElem?_drop, Nat.add_sub_cancel' hfirst]
  · have hcount : (last : ℤ) - first + 1 = ((last + 1 - first : ℕ) : ℤ) := by omega
    simp only [respond, Headers.get_set, if_true, hcount]
    rfl

theorem ByteRange.not_writes_empty (range : ByteRange) : ¬ range.Writes "" := by
  cases range <;> simp [Writes, headerText]

/-- What a header with a text is answered with. -/
theorem downloadResponse_some {file : FileDownload} {text : String} (h : text ≠ "")
    (cacheControl : HeaderValue) :
    downloadResponse file (some text) cacheControl =
      match checkedBounds file.bytes.length text with
      | none => unsatisfiable file cacheControl
      | some (start, stop) =>
        respond file ((baseHeaders file cacheControl).set "content-range"
          ("bytes " ++ toString start ++ "-" ++ toString stop ++ "/" ++
            toString file.bytes.length)) 206 start stop := by
  rw [downloadResponse.eq_def]
  split
  · rename_i hnone; cases hnone
  · rename_i hempty; exact absurd (Option.some.inj hempty) h
  · rename_i range hne hsome
    cases Option.some.inj hsome
    rfl

/-- **Byte ranges are exact**, for every file, every header and every cache policy. -/
theorem downloadResponse_exact (file : FileDownload) (range : Option String)
    (cacheControl : HeaderValue) :
    Exact file range (downloadResponse file range cacheControl) where
  whole := by
    rintro (rfl | rfl)
    · exact ⟨rfl, respond_whole file _⟩
    · exact ⟨rfl, respond_whole file _⟩
  part := by
    rintro text r p rfl hwrites hselects
    have hne : text ≠ "" := by
      rintro rfl
      exact r.not_writes_empty hwrites
    have hmem := ByteRange.selects_iff.mp hselects
    obtain ⟨hlow, hhigh⟩ := r.last_bounds file.bytes.length
    obtain ⟨last, hlast⟩ : ∃ last : ℕ, r.last file.bytes.length = last :=
      Int.eq_ofNat_of_zero_le (by omega)
    rw [hlast] at hmem hhigh
    rw [downloadResponse_some hne, checkedBounds_of_writes file.bytes.length_lt hwrites, hlast,
      if_pos (by omega)]
    obtain ⟨body, hbody, hcount, hbytes, hlength⟩ := respond_part file
      ((baseHeaders file cacheControl).set "content-range" ("bytes " ++
        toString ((r.first file.bytes.length : ℕ) : ℤ) ++ "-" ++ toString (last : ℤ) ++ "/" ++
        toString file.bytes.length)) (show r.first file.bytes.length ≤ last by omega) (by omega)
    refine ⟨r.first file.bytes.length, last, body, fun q => ?_, rfl, hbody, hcount, hbytes,
      ?_, hlength⟩
    · rw [ByteRange.selects_iff, hlast]
      omega
    · simp only [respond, Headers.get_set]
      rfl
  refused := by
    rintro text rfl hne hnone
    have hchecked : checkedBounds file.bytes.length text = none := by
      -- a range is refused for its bounds, and anything else does not match
      by_cases hwrites : ∃ r : ByteRange, r.Writes text
      · obtain ⟨r, hr⟩ := hwrites
        rw [checkedBounds_of_writes file.bytes.length_lt hr, if_neg]
        intro hle
        exact hnone ⟨r, r.first file.bytes.length, hr,
          ByteRange.selects_iff.mpr ⟨le_rfl, hle⟩⟩
      · exact checkedBounds_of_not_writes hwrites
    rw [downloadResponse_some hne, hchecked]
    refine ⟨rfl, rfl, ?_⟩
    simp only [unsatisfiable, Headers.get_set, if_true]

/-- Three bytes of a text. -/
def sampleFile : FileDownload where
  bytes := ⟨[104, 105, 10], by decide⟩
  contentType := ⟨"text/plain", by decide⟩
  fileName := "greeting.txt"
  inline := false

/-- An empty header writes no range, and is answered with all bytes instead of a refusal. -/
theorem downloadResponse_emptyHeader :
    (¬ ∃ r p, ByteRange.Writes "" r ∧ ByteRange.Selects sampleFile.bytes.length p r) ∧
      (downloadResponse sampleFile (some "") ⟨"private, no-store", by decide⟩).status = 200 ∧
      (downloadResponse sampleFile (some "") ⟨"private, no-store", by decide⟩).body =
        some [104, 105, 10] :=
  ⟨fun ⟨r, _, hwrites, _⟩ => r.not_writes_empty hwrites, rfl, rfl⟩

end Download
