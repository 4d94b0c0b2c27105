import MsRealty.JsText
import MsRealty.Positional

/-!
# The check code of an inquiry

A short code a caller reads aloud, and the search it leads to
(`src/domain/inquiry-check-code.ts`). The code is the first 30 bits of a
submission key, five letters of one alphabet, as six letters of another.

Both are the digits of one number, in the bases 64 and 32, so the code leads back
to the five letters and they to the code. What a person may change about the code
when it is written down is undone before it is read (`normalized_of_respells`).
-/

namespace InquiryCheckCode

open CanonicalText Positional

/-! ## Texts -/

/-- `String.prototype.indexOf`. -/
def indexOf (text search : JsString) : ℤ :=
  match text.tails.findIdx? (fun rest => search.isPrefixOf rest) with
  | some i => i
  | none => -1

/-- `String.prototype.charAt`. -/
def charAt (text : JsString) (i : ℕ) : JsString := text[i]?.toList

/-- The operator `>>>`. -/
def unsignedRightShift (n : ℤ) (shift : ℕ) : ℕ := (n % 2 ^ 32).toNat >>> shift

/-- `\s`, in a pattern. -/
def isSpaceUnit (u : UInt16) : Bool :=
  [0x09, 0x0a, 0x0b, 0x0c, 0x0d, 0x20, 0xa0, 0x1680, 0x2028, 0x2029, 0x202f, 0x205f, 0x3000,
    0xfeff].contains u || (0x2000 ≤ u && u ≤ 0x200a)

/-- The upper case of an ASCII character. -/
def asciiUpper (u : UInt16) : UInt16 := if 0x61 ≤ u && u ≤ 0x7a then u - 0x20 else u

/-- **`String.prototype.toUpperCase`**, whose tables come with the version of
Unicode. -/
structure UpperCase where
  toUpperCase : JsString → JsString
  /-- ASCII characters are mapped one by one. -/
  ascii : ∀ s : JsString, (∀ u ∈ s, u < 0x80) → toUpperCase s = s.map asciiUpper

/-! ## The codes -/

def base64url : JsString := units "ABCDEFGHIJKLMNOPQRSTUVWXYZabcdefghijklmnopqrstuvwxyz0123456789-_"

def crockford : JsString := units "0123456789ABCDEFGHJKMNPQRSTVWXYZ"

/-- `[A-Za-z0-9_-]`. -/
def isNonceUnit (u : UInt16) : Bool :=
  (0x41 ≤ u && u ≤ 0x5a) || (0x61 ≤ u && u ≤ 0x7a) || (0x30 ≤ u && u ≤ 0x39)
    || u = 0x5f || u = 0x2d

/-- `[0-9a-f]`. -/
def isHexUnit (u : UInt16) : Bool := (0x30 ≤ u && u ≤ 0x39) || (0x61 ≤ u && u ≤ 0x66)

/-- **`issuedKeyShape`**: `/^[A-Za-z0-9_-]{43}\.[0-9a-f]{32}$/`. -/
def issuedKeyShape (key : JsString) : Bool :=
  key.length = 76 && (key.take 43).all isNonceUnit && (key.drop 43).head? = some (unit '.')
    && (key.drop 44).all isHexUnit

/-- **`inquiryCheckCode`.** -/
def inquiryCheckCode (submissionKey : JsString) : Option JsString :=
  if !issuedKeyShape submissionKey then none
  else
    let bits := (codePoints (submissionKey.take 5)).foldl
      (fun bits char => bits * 64 + indexOf base64url char) 0
    some ([25, 20, 15, 10, 5, 0].flatMap fun shift =>
      charAt crockford (unsignedRightShift bits shift &&& 31))

/-- The canonical form of an input, with its separators removed and the letters
that are mistaken for digits replaced. -/
def normalized (upper : UpperCase) (input : JsString) : JsString :=
  ((upper.toUpperCase (input.filter fun u => !(isSpaceUnit u || u = unit '-'))).map
    fun u => if u = unit 'O' then unit '0' else u).map
    fun u => if u = unit 'I' ∨ u = unit 'L' then unit '1' else u

/-- The loop that reads the characters of a code. -/
def readCode : List JsString → ℤ → Option ℤ
  | [], bits => some bits
  | char :: rest, bits =>
    let value := indexOf crockford char
    if value < 0 then none else readCode rest (bits * 32 + value)

/-- **`checkCodeNoncePrefix`.** -/
def checkCodeNoncePrefix (upper : UpperCase) (input : JsString) : Option JsString :=
  let code := normalized upper input
  if code.length ≠ 6 then none
  else
    (readCode (codePoints code) 0).map fun bits =>
      [24, 18, 12, 6, 0].flatMap fun shift =>
        charAt base64url (unsignedRightShift bits shift &&& 63)

/-- **What a person may write for a character of a code**: either case, `O` for
`0`, and `I` or `L` for `1`. -/
inductive Spells (c : UInt16) : UInt16 → Prop where
  | case {u : UInt16} (h : asciiUpper u = c) : Spells c u
  | zero {u : UInt16} (hc : c = unit '0') (h : asciiUpper u = unit 'O') : Spells c u
  | one {u : UInt16} (hc : c = unit '1') (h : asciiUpper u = unit 'I' ∨ asciiUpper u = unit 'L') :
    Spells c u

/-- **A respelling of a code**, with spaces and hyphens anywhere. -/
def Respells (code spoken : JsString) : Prop :=
  List.Forall₂ Spells code (spoken.filter fun u => !(isSpaceUnit u || u = unit '-'))

/-! ## The alphabets -/

/-- The 64 letters of a nonce. -/
def nonceAlphabet : Alphabet UInt16 := ⟨base64url, by decide⟩

/-- The 32 letters of a code. -/
def codeAlphabet : Alphabet UInt16 := ⟨crockford, by decide⟩

theorem lt_of_mem_base64url : ∀ u ∈ base64url, u < 0x80 :=
  List.all_iff_forall_prop.mp (by decide)

theorem lt_of_mem_crockford : ∀ u ∈ crockford, u < 0x80 :=
  List.all_iff_forall_prop.mp (by decide)

theorem not_high_of_lt {u : UInt16} (h : u < 0x80) : isHighSurrogate u = false := by
  have h' : u.toNat < 0x80 := UInt16.lt_iff_toNat_lt.mp h
  have hlow : ¬ (0xd800 : UInt16) ≤ u := fun hle => by
    have := UInt16.le_iff_toNat_le.mp hle
    simp at this
    omega
  simp [isHighSurrogate, hlow]

theorem lt_of_isNonceUnit {u : UInt16} (h : isNonceUnit u = true) : u.toNat < 0x80 := by
  simp only [isNonceUnit, Bool.or_eq_true, Bool.and_eq_true, decide_eq_true_eq,
    UInt16.le_iff_toNat_le] at h
  rcases h with (((h | h) | h) | rfl) | rfl
  · exact h.2.trans_lt (by decide)
  · exact h.2.trans_lt (by decide)
  · exact h.2.trans_lt (by decide)
  · decide
  · decide

set_option maxRecDepth 4000 in
theorem mem_base64url_of_isNonceUnit {u : UInt16} (h : isNonceUnit u = true) : u ∈ base64url := by
  have hall : ∀ n < 0x80, isNonceUnit (UInt16.ofNat n) = true → UInt16.ofNat n ∈ base64url := by
    decide
  have hu := hall u.toNat (lt_of_isNonceUnit h)
  rw [UInt16.ofNat_toNat] at hu
  exact hu h

/-! ## The numbers of both -/

/-- A unit of a text is found at its first place. -/
theorem indexOf_of_mem {text : JsString} {u : UInt16} (h : u ∈ text) :
    indexOf text [u] = text.idxOf u := by
  have hfind : text.tails.findIdx? (fun rest => [u].isPrefixOf rest) = some (text.idxOf u) := by
    induction text with
    | nil => simp at h
    | cons c text ih =>
      rw [List.tails_cons, List.findIdx?_cons, List.idxOf_cons]
      by_cases hc : c = u
      · simp [hc, List.isPrefixOf]
      · have hne : (c == u) = false := beq_false_of_ne hc
        have hne' : (u == c) = false := beq_false_of_ne (Ne.symm hc)
        rw [ih ((List.mem_cons.mp h).resolve_left (Ne.symm hc))]
        simp [List.isPrefixOf, hne, hne']
  rw [indexOf, hfind]

/-- What is found in a text is made of its units. -/
theorem mem_of_indexOf {text search : JsString} (h : 0 ≤ indexOf text search) :
    ∀ u ∈ search, u ∈ text := by
  unfold indexOf at h
  split at h
  · rename_i i hfind
    obtain ⟨hi, hprefix, -⟩ := List.findIdx?_eq_some_iff_getElem.mp hfind
    have hsub := (List.isPrefixOf_iff_prefix.mp hprefix).subset
    have hsuffix := ((List.mem_tails _ _).mp (List.getElem_mem hi)).subset
    exact fun u hu => hsuffix (hsub hu)
  · omega

/-- The loop that reads the letters of a nonce, on letters of it. -/
theorem foldl_indexOf {s : JsString} (h : ∀ u ∈ s, u ∈ base64url) :
    (codePoints s).foldl (fun bits char => bits * 64 + indexOf base64url char) 0
      = (value 64 (nonceAlphabet.indices s) : ℤ) := by
  rw [codePoints_of_not_high fun u hu => not_high_of_lt (lt_of_mem_base64url u (h u hu)),
    List.foldl_map]
  induction s using List.reverseRecOn with
  | nil => rfl
  | append_singleton s u ih =>
    have hu : indexOf base64url [u] = base64url.idxOf u := indexOf_of_mem (h u (by simp))
    have hindices : nonceAlphabet.indices (s ++ [u])
        = nonceAlphabet.indices s ++ [base64url.idxOf u] := List.map_append
    rw [List.foldl_append, ih fun u hu => h u (by simp [hu]), hindices, value_append_singleton,
      List.foldl_cons, List.foldl_nil, hu]
    push_cast
    rfl

/-- The loop that reads the letters of a code, on letters of it. -/
theorem readCode_of_mem {s : JsString} (h : ∀ u ∈ s, u ∈ crockford) (n : ℕ) :
    readCode (codePoints s) n
      = some ((codeAlphabet.indices s).foldl (fun n d => n * 32 + d) n : ℕ) := by
  rw [codePoints_of_not_high fun u hu => not_high_of_lt (lt_of_mem_crockford u (h u hu))]
  induction s generalizing n with
  | nil => rfl
  | cons u s ih =>
    have hu : indexOf crockford [u] = crockford.idxOf u := indexOf_of_mem (h u List.mem_cons_self)
    have hnot : ¬ ((crockford.idxOf u : ℤ) < 0) := not_lt.mpr (Int.natCast_nonneg _)
    rw [List.map_cons, readCode, hu, if_neg hnot]
    exact_mod_cast ih (fun u hu => h u (List.mem_cons_of_mem _ hu)) (n * 32 + crockford.idxOf u)

/-- What the loop reads are letters of a code. -/
theorem mem_of_readCode {points : List JsString} {bits result : ℤ}
    (h : readCode points bits = some result) : ∀ u ∈ points.flatten, u ∈ crockford := by
  induction points generalizing bits with
  | nil => simp
  | cons char rest ih =>
    rw [readCode] at h
    split_ifs at h with hvalue
    intro u hu
    rw [List.flatten_cons, List.mem_append] at hu
    rcases hu with hu | hu
    · exact mem_of_indexOf (not_lt.mp hvalue) u hu
    · exact ih h u hu

/-- **The loop that writes letters writes the digits of a number.** -/
theorem flatMap_charAt (A : Alphabet UInt16) {w k n : ℕ} (hn : n < 2 ^ 32) :
    ((List.range k).reverse.map (· * w)).flatMap
        (fun shift => charAt A.letters (unsignedRightShift n shift &&& (2 ^ w - 1)))
      = A.text (digits (2 ^ w) k n) := by
  rw [Alphabet.text, digits_eq_map, List.flatMap_map, List.flatMap_map]
  refine List.flatMap_congr fun i _ => ?_
  have hbits : unsignedRightShift n (i * w) = n / (2 ^ w) ^ i := by
    have hmod : ((n : ℤ) % 2 ^ 32).toNat = n := by omega
    rw [unsignedRightShift, hmod, Nat.shiftRight_eq_div_pow, Nat.mul_comm, pow_mul]
  rw [hbits, Nat.and_two_pow_sub_one_eq_mod]
  rfl

/-! ## Keys and codes -/

/-- The number of the first 30 bits of a key. -/
def nonceBits (key : JsString) : ℕ := value 64 (nonceAlphabet.indices (key.take 5))

theorem mem_base64url_of_issued {key : JsString} (h : issuedKeyShape key = true) :
    key.length = 76 ∧ ∀ u ∈ key.take 5, u ∈ base64url := by
  simp only [issuedKeyShape, Bool.and_eq_true, decide_eq_true_eq, List.all_eq_true] at h
  refine ⟨h.1.1.1, fun u hu => mem_base64url_of_isNonceUnit (h.1.1.2 u ?_)⟩
  exact (List.take_subset_take_left key (by decide : 5 ≤ 43)) hu

theorem length_take_of_issued {key : JsString} (h : issuedKeyShape key = true) :
    (key.take 5).length = 5 := by
  rw [List.length_take, (mem_base64url_of_issued h).1]
  rfl

theorem nonceBits_lt {key : JsString} (h : issuedKeyShape key = true) : nonceBits key < 2 ^ 30 := by
  have hlt := value_lt (nonceAlphabet.indices_lt (mem_base64url_of_issued h).2)
  rwa [Alphabet.indices, List.length_map, length_take_of_issued h] at hlt

/-- The first letters of a key are the digits of its number. -/
theorem take_eq_text {key : JsString} (h : issuedKeyShape key = true) :
    key.take 5 = nonceAlphabet.text (digits 64 5 (nonceBits key)) := by
  have hmem := (mem_base64url_of_issued h).2
  have hdigits := digits_value (nonceAlphabet.indices_lt hmem)
  rw [Alphabet.indices, List.length_map, length_take_of_issued h] at hdigits
  rw [nonceBits, Alphabet.indices]
  exact (nonceAlphabet.text_indices hmem).symm.trans (congrArg nonceAlphabet.text hdigits.symm)

/-- **The check code of a key** is the digits of its number. -/
theorem inquiryCheckCode_of_issued {key : JsString} (h : issuedKeyShape key = true) :
    inquiryCheckCode key = some (codeAlphabet.text (digits 32 6 (nonceBits key))) := by
  have hlt : nonceBits key < 2 ^ 32 := (nonceBits_lt h).trans (by decide)
  rw [inquiryCheckCode, h, foldl_indexOf (mem_base64url_of_issued h).2]
  exact congrArg some (flatMap_charAt codeAlphabet (w := 5) (k := 6) hlt)

/-- The number of the letters of a code. -/
def codeBits (code : JsString) : ℕ := value 32 (codeAlphabet.indices code)

theorem codeBits_lt {code : JsString} (h : ∀ u ∈ code, u ∈ crockford) (hlength : code.length = 6) :
    codeBits code < 2 ^ 30 := by
  have hlt := value_lt (codeAlphabet.indices_lt h)
  rwa [Alphabet.indices, List.length_map, hlength] at hlt

/-- A code is the digits of its number. -/
theorem text_codeBits {code : JsString} (h : ∀ u ∈ code, u ∈ crockford) (hlength : code.length = 6) :
    codeAlphabet.text (digits 32 6 (codeBits code)) = code := by
  have hdigits := digits_value (codeAlphabet.indices_lt h)
  rw [Alphabet.indices, List.length_map, hlength] at hdigits
  rw [codeBits, Alphabet.indices]
  exact (congrArg codeAlphabet.text hdigits).trans (codeAlphabet.text_indices h)

/-- **What is read of a code** are the digits of its number. -/
theorem checkCodeNoncePrefix_of_normalized {upper : UpperCase} {input : JsString}
    (h : ∀ u ∈ normalized upper input, u ∈ crockford)
    (hlength : (normalized upper input).length = 6) :
    checkCodeNoncePrefix upper input
      = some (nonceAlphabet.text (digits 64 5 (codeBits (normalized upper input)))) := by
  have hlt : codeBits (normalized upper input) < 2 ^ 32 :=
    (codeBits_lt h hlength).trans (by decide)
  have hread : readCode (codePoints (normalized upper input)) 0
      = some (codeBits (normalized upper input) : ℤ) := readCode_of_mem h 0
  rw [checkCodeNoncePrefix, if_neg (not_not.mpr hlength), hread]
  exact congrArg some (flatMap_charAt nonceAlphabet (w := 6) (k := 5) hlt)

/-- An input that is accepted is a code, once it is normalized. -/
theorem normalized_of_accepted {upper : UpperCase} {input found : JsString}
    (h : checkCodeNoncePrefix upper input = some found) :
    (normalized upper input).length = 6 ∧ ∀ u ∈ normalized upper input, u ∈ crockford := by
  rw [checkCodeNoncePrefix] at h
  split_ifs at h with hlength
  obtain ⟨bits, hread, -⟩ := Option.map_eq_some_iff.mp h
  have hmem := mem_of_readCode hread
  rw [flatten_codePoints] at hmem
  exact ⟨not_not.mp hlength, hmem⟩

/-! ## Respellings -/

/-- What is written for a letter of a code is an ASCII character. -/
theorem lt_of_spells {c u : UInt16} (hc : c ∈ crockford) (h : Spells c u) : u < 0x80 := by
  have hupper : asciiUpper u < 0x80 := by
    cases h with
    | case h => rw [h]; exact lt_of_mem_crockford c hc
    | zero _ h => rw [h]; decide
    | one _ h => rcases h with h | h <;> (rw [h]; decide)
  unfold asciiUpper at hupper
  split_ifs at hupper with hlow
  · rw [Bool.and_eq_true, decide_eq_true_eq, decide_eq_true_eq] at hlow
    exact UInt16.lt_of_le_of_lt hlow.2 (by decide)
  · exact hupper

/-- What is written for a letter of a code is read as that letter. -/
theorem letter_of_spells {c u : UInt16} (hc : c ∈ crockford) (h : Spells c u) :
    (fun u => if u = unit 'I' ∨ u = unit 'L' then unit '1' else u)
      (if asciiUpper u = unit 'O' then unit '0' else asciiUpper u) = c := by
  cases h with
  | case h =>
    have hall : ∀ c ∈ crockford, c ≠ unit 'O' ∧ c ≠ unit 'I' ∧ c ≠ unit 'L' :=
      List.all_iff_forall_prop.mp (by decide)
    obtain ⟨ho, hi, hl⟩ := hall c hc
    rw [h, if_neg ho]
    exact if_neg (not_or.mpr ⟨hi, hl⟩)
  | zero hzero h =>
    rw [h, hzero]
    decide
  | one hone h =>
    rw [hone]
    rcases h with h | h <;> (rw [h]; decide)

/-- **A respelling of a code is normalized to the code.** -/
theorem normalized_of_respells {upper : UpperCase} {code spoken : JsString}
    (hcode : ∀ u ∈ code, u ∈ crockford) (h : Respells code spoken) :
    normalized upper spoken = code := by
  unfold Respells at h
  unfold normalized
  generalize spoken.filter (fun u => !(isSpaceUnit u || u = unit '-')) = letters at h
  have hascii : ∀ u ∈ letters, u < 0x80 := by
    intro u hu
    obtain ⟨c, hc, hspells⟩ := exists_mem_of_forall₂ h.flip u hu
    exact lt_of_spells (hcode c hc) hspells
  rw [upper.ascii letters hascii, List.map_map, List.map_map]
  clear hascii
  induction h with
  | nil => rfl
  | @cons c u code letters hspells _ ih =>
    rw [List.map_cons, ih fun u hu => hcode u (List.mem_cons_of_mem _ hu)]
    exact congrArg (· :: code) (letter_of_spells (hcode c List.mem_cons_self) hspells)

/-- A code is a respelling of itself. -/
theorem respells_self {code : JsString} (h : ∀ u ∈ code, u ∈ crockford) : Respells code code := by
  have hkept : ∀ u ∈ crockford, (!(isSpaceUnit u || u = unit '-')) = true ∧ asciiUpper u = u :=
    List.all_iff_forall_prop.mp (by decide)
  rw [Respells, List.filter_eq_self.mpr fun u hu => (hkept u (h u hu)).1, List.forall₂_same]
  exact fun u hu => .case (hkept u (h u hu)).2

/-- **The code of a key is read as its first letters**, and so is a respelling
of it. -/
theorem checkCodeNoncePrefix_of_respells {upper : UpperCase} {key spoken : JsString}
    (hkey : issuedKeyShape key = true)
    (hspoken : Respells (codeAlphabet.text (digits 32 6 (nonceBits key))) spoken) :
    checkCodeNoncePrefix upper spoken = some (key.take 5) := by
  set code := codeAlphabet.text (digits 32 6 (nonceBits key)) with hcode
  have hmem : ∀ u ∈ code, u ∈ crockford := codeAlphabet.mem_of_text
  have hlt : ∀ d ∈ digits 32 6 (nonceBits key), d < codeAlphabet.base := digits_lt (by decide)
  have hlength : code.length = 6 := (codeAlphabet.length_text hlt).trans (length_digits 32 6 _)
  have hbits : codeBits code = nonceBits key := by
    rw [codeBits, hcode, codeAlphabet.indices_text hlt]
    exact value_digits ((nonceBits_lt hkey).trans_eq (by norm_num))
  have hnormal : normalized upper spoken = code := normalized_of_respells hmem hspoken
  rw [checkCodeNoncePrefix_of_normalized (hnormal.symm ▸ hmem) (hnormal.symm ▸ hlength), hnormal,
    hbits, take_eq_text hkey]

/-- **The letters an input leads to are those of one code**, the input as it is
normalized. -/
theorem inquiryCheckCode_of_accepted {upper : UpperCase} {input found key : JsString}
    (haccepted : checkCodeNoncePrefix upper input = some found) (hkey : issuedKeyShape key = true)
    (hbegins : found <+: key) : inquiryCheckCode key = some (normalized upper input) := by
  obtain ⟨hlength, hmem⟩ := normalized_of_accepted haccepted
  rw [checkCodeNoncePrefix_of_normalized hmem hlength] at haccepted
  set code := normalized upper input with hcode
  have hlt : ∀ d ∈ digits 64 5 (codeBits code), d < nonceAlphabet.base := digits_lt (by decide)
  have hfound : nonceAlphabet.text (digits 64 5 (codeBits code)) = found := Option.some.inj haccepted
  have hfoundLength : found.length = 5 := by
    rw [← hfound, nonceAlphabet.length_text hlt, length_digits]
  have htake : key.take 5 = found := by
    rw [List.prefix_iff_eq_take.mp hbegins, hfoundLength]
  have hbits : nonceBits key = codeBits code := by
    rw [nonceBits, htake, ← hfound, nonceAlphabet.indices_text hlt]
    exact value_digits ((codeBits_lt hmem hlength).trans_eq (by norm_num))
  rw [inquiryCheckCode_of_issued hkey, hbits, text_codeBits hmem hlength]

end InquiryCheckCode
