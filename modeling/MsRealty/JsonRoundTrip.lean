import MsRealty.JsonNumber

/-!
# JSON values are read back from their text

Every part of a text is read back where it stands, before whatever follows:
numbers before a text that does not go on as a number, strings after their
quote, values before the comma, bracket or brace that ends them. The fuel of
the parser is bounded by the length of the text it reads.
-/

namespace JsonText

open DecimalText

/-! ## Numbers -/

/-- A number the source writes with its digits alone: whole and below 10²¹. -/
def PlainNumber (q : ℚ) : Prop := q.den = 1 ∧ q.num.natAbs < 10 ^ 21

/-- **The text of a whole number** is its digits. -/
theorem positiveText_natCast {n : ℕ} (hn : n < 10 ^ 21) :
    positiveText (n : ℚ) = Nat.toDigits 10 n := by
  have hdecimals : decimals (n : ℚ) = 0 := by
    unfold decimals
    rw [Rat.den_natCast]
    rfl
  have hnum : ((n : ℚ) * 10 ^ decimals (n : ℚ)).num.natAbs = n := by
    rw [hdecimals, pow_zero, mul_one, Rat.num_natCast, Int.natAbs_natCast]
  have hlength : (Nat.toDigits 10 n).length ≤ 21 :=
    (Nat.length_toDigits_le_iff (by decide) (by decide)).mpr hn
  have htrim : (trimZeros (Nat.toDigits 10 n)).length ≤ (Nat.toDigits 10 n).length := by
    have h := congrArg List.length (trimZeros_append (Nat.toDigits 10 n))
    rw [List.length_append] at h
    omega
  unfold positiveText
  dsimp only
  rw [hnum, hdecimals, if_pos (by push_cast; omega)]
  conv_rhs => rw [← trimZeros_append (Nat.toDigits 10 n)]
  congr 2
  omega

/-- A plain number is its sign and its digits. -/
theorem plainNumber_eq {q : ℚ} (h : PlainNumber q) :
    (if q < 0 then -(q.num.natAbs : ℚ) else q.num.natAbs) = q := by
  have hq : (q.num : ℚ) = q := (Rat.den_eq_one_iff q).mp h.1
  split_ifs with hneg
  · have hnum : q.num < 0 := Rat.num_neg.mpr hneg
    have habs : (q.num.natAbs : ℤ) = -q.num := by omega
    rw [← Int.cast_natCast, habs, Int.cast_neg, neg_neg, hq]
  · have hnum : 0 ≤ q.num := Rat.num_nonneg.mpr (le_of_not_gt hneg)
    have habs : (q.num.natAbs : ℤ) = q.num := by omega
    rw [← Int.cast_natCast, habs, hq]

theorem numberText_plain {q : ℚ} (h : PlainNumber q) :
    numberText q = (if q < 0 then ['-'] else []) ++ Nat.toDigits 10 q.num.natAbs := by
  have hq := plainNumber_eq h
  unfold numberText
  by_cases hzero : q = 0
  · rw [if_pos hzero, hzero]
    rfl
  rw [if_neg hzero]
  by_cases hneg : q < 0
  · rw [if_pos hneg] at hq
    rw [if_pos hneg, if_pos hneg, ← positiveText_natCast h.2, ← neg_eq_iff_eq_neg.mpr hq.symm]
    rfl
  · rw [if_neg hneg] at hq
    rw [if_neg hneg, if_neg hneg, List.nil_append, ← positiveText_natCast h.2, hq]

theorem PlainNumber.decimal {q : ℚ} (h : PlainNumber q) : Decimal q :=
  (decimal_iff q).mpr ⟨0, by rw [h.1]; exact Nat.one_dvd _⟩

/-! ## Strings -/

/-- What an escaped character adds to the code units read after it. -/
def consUnits (c : Char) (p : List ℕ × List Char) : List ℕ × List Char :=
  (Utf16.encodeChar c ++ p.fst, p.snd)

theorem hexVal?_hexChar {n : ℕ} (h : n < 16) : hexVal? (hexChar n) = some n := by
  have hall : ∀ n < 16, hexVal? (hexChar n) = some n := by decide +kernel
  exact hall n h

/-- An escape of one letter is read as its character. -/
theorem parseUnits_letter {e c : Char} (he : escaped? e = some c) (rest : List Char) :
    parseUnits ('\\' :: e :: rest) = (parseUnits rest).map (consUnits c) := by
  have hu : e ≠ 'u' := by
    rintro rfl
    cases he
  rw [parseUnits]
  · rw [he]
    cases parseUnits rest <;> rfl
  · intro _ _ _ _ _ heq
    exact absurd heq hu

/-- **A character is read back from its escape.** -/
theorem parseUnits_escape (c : Char) (rest : List Char) :
    parseUnits (escape c ++ rest) = (parseUnits rest).map (consUnits c) := by
  unfold escape
  split_ifs with h1 h2 h3 h4 h5 h6 h7 h8
  · rw [h1]; exact parseUnits_letter rfl rest
  · rw [h2]; exact parseUnits_letter rfl rest
  · rw [h3]; exact parseUnits_letter rfl rest
  · rw [h4]; exact parseUnits_letter rfl rest
  · rw [h5]; exact parseUnits_letter rfl rest
  · rw [h6]; exact parseUnits_letter rfl rest
  · rw [h7]; exact parseUnits_letter rfl rest
  · have hzero : hexVal? '0' = some 0 := by decide
    have hunit : 0 * 4096 + 0 * 256 + c.toNat / 16 * 16 + c.toNat % 16 = c.toNat := by omega
    have hencode : Utf16.encodeChar c = [c.toNat] := if_pos (by omega)
    show parseUnits ('\\' :: 'u' :: '0' :: '0' :: hexChar (c.toNat / 16)
      :: hexChar (c.toNat % 16) :: rest) = _
    rw [parseUnits, hzero, hexVal?_hexChar (by omega), hexVal?_hexChar (by omega)]
    cases parseUnits rest with
    | none => rfl
    | some p => simp only [Option.bind_eq_bind, Option.bind_some, hunit, Option.map_some,
        consUnits, hencode]; rfl
  · rw [List.singleton_append, parseUnits]
    · rw [if_neg (by simp [h2, h8])]
      cases parseUnits rest <;> rfl
    · intro heq
      exact h1 heq
    · intro _ _ _ _ _ heq
      exact absurd heq h2
    · intro _ _ heq
      exact absurd heq h2

/-- **A string is read back** up to its closing quote. -/
theorem parseString_stringText (s : String) (rest : List Char) :
    parseString (s.toList.flatMap escape ++ '"' :: rest) = some (s, rest) := by
  have hunits : ∀ text : List Char, parseUnits (text.flatMap escape ++ '"' :: rest)
      = some (Utf16.encode text, rest) := by
    intro text
    induction text with
    | nil => rw [List.flatMap_nil, List.nil_append, parseUnits]; rfl
    | cons c text ih =>
      rw [List.flatMap_cons, List.append_assoc, parseUnits_escape, ih]
      rfl
  rw [parseString, hunits, Option.map_some, Utf16.decode_encode, String.ofList_toList]

/-! ## Values -/

mutual

/-- **A value whose numbers are finite decimals.** -/
def Plain : JsonValue → Prop
  | .null => True
  | .bool _ => True
  | .num q => Decimal q
  | .str _ => True
  | .arr items => PlainItems items
  | .obj members => PlainMembers members

/-- Items whose numbers are finite decimals. -/
def PlainItems : List JsonValue → Prop
  | [] => True
  | item :: items => Plain item ∧ PlainItems items

/-- Members whose numbers are finite decimals. -/
def PlainMembers : List (String × JsonValue) → Prop
  | [] => True
  | (_, value) :: members => Plain value ∧ PlainMembers members

end

/-- A character that begins neither whitespace nor the end of a list. -/
def BeginsValue (text : List Char) : Prop :=
  ∃ c rest, text = c :: rest ∧ isSpace c = false ∧ c ≠ ']' ∧ c ≠ '}'

theorem skipSpace_of_begins {c : Char} {rest : List Char} (h : isSpace c = false) :
    skipSpace (c :: rest) = c :: rest :=
  List.dropWhile_cons_of_neg (by simp [h])

/-- Nothing else begins a number. -/
theorem BeginsNumber.ne {c d : Char} (h : BeginsNumber c) (hsign : d ≠ '-')
    (hdigit : d.isDigit = false) : c ≠ d := by
  rintro rfl
  obtain heq | hc := h
  · exact hsign heq
  · rw [hc] at hdigit
    cases hdigit

theorem BeginsNumber.not_isSpace {c : Char} (h : BeginsNumber c) : isSpace c = false := by
  have hne : c ≠ ' ' ∧ c ≠ '\t' ∧ c ≠ '\n' ∧ c ≠ '\r' :=
    ⟨h.ne (by decide) (by decide), h.ne (by decide) (by decide), h.ne (by decide) (by decide),
      h.ne (by decide) (by decide)⟩
  simp [isSpace, hne]

theorem stringify_begins {v : JsonValue} (h : Plain v) : BeginsValue (stringify v) := by
  cases v with
  | null => exact ⟨_, _, rfl, by decide⟩
  | bool b => cases b <;> exact ⟨_, _, rfl, by decide⟩
  | num q =>
    obtain ⟨c, rest, hc, hbegins⟩ := numberText_begins h
    exact ⟨c, rest, hc, hbegins.not_isSpace, hbegins.ne (by decide) (by decide),
      hbegins.ne (by decide) (by decide)⟩
  | str s => exact ⟨_, _, rfl, by decide⟩
  | arr items => cases items <;> exact ⟨_, _, rfl, by decide⟩
  | obj members => rcases members with _ | ⟨⟨key, value⟩, members⟩ <;> exact ⟨_, _, rfl, by decide⟩

theorem itemsText_numberEnd (items : List JsonValue) (rest : List Char) :
    NumberEnd (itemsText items ++ rest) := by
  cases items with
  | nil => rintro c ⟨⟩; decide
  | cons item items => rintro c ⟨⟩; decide

theorem membersText_numberEnd (members : List (String × JsonValue)) (rest : List Char) :
    NumberEnd (membersText members ++ rest) := by
  rcases members with _ | ⟨⟨key, value⟩, members⟩
  · rintro c ⟨⟩; decide
  · rintro c ⟨⟩; decide

/-- What begins as a number is read as one. -/
theorem parseValue_number (fuel : ℕ) {c : Char} (h : BeginsNumber c) (rest : List Char) :
    parseValue (fuel + 1) (c :: rest)
      = (parseNumber (c :: rest)).map (fun p => (.num p.fst, p.snd)) := by
  have hn := h.ne (d := 'n') (by decide) (by decide)
  have ht := h.ne (d := 't') (by decide) (by decide)
  have hf := h.ne (d := 'f') (by decide) (by decide)
  have hquote := h.ne (d := '"') (by decide) (by decide)
  have hbracket := h.ne (d := '[') (by decide) (by decide)
  have hbrace := h.ne (d := '{') (by decide) (by decide)
  rw [parseValue, skipSpace_of_begins h.not_isSpace]
  split <;> simp_all

/-- An array that is not empty is read item by item. -/
theorem parseValue_arr (fuel : ℕ) {text : List Char} (h : BeginsValue text) :
    parseValue (fuel + 1) ('[' :: text) = (do
      let (item, rest) ← parseValue fuel text
      let (items, rest) ← parseItems fuel rest
      return (.arr (item :: items), rest)) := by
  obtain ⟨c, rest, rfl, hspace, hbracket, -⟩ := h
  have hskip : skipSpace ('[' :: c :: rest) = '[' :: c :: rest := skipSpace_of_begins (by decide)
  simp only [parseValue, hskip, skipSpace_of_begins hspace]
  split
  · rename_i heq
    exact absurd (List.cons.inj heq).1 hbracket
  · rfl

/-- An object that is not empty is read member by member. -/
theorem parseValue_obj (fuel : ℕ) (text : List Char) :
    parseValue (fuel + 1) ('{' :: '"' :: text) = (do
      let (member, rest) ← parseMember fuel ('"' :: text)
      let (members, rest) ← parseMembers fuel rest
      return (.obj (member :: members), rest)) := by
  have hskip : skipSpace ('{' :: '"' :: text) = '{' :: '"' :: text :=
    skipSpace_of_begins (by decide)
  have hskip' : skipSpace ('"' :: text) = '"' :: text := skipSpace_of_begins (by decide)
  simp only [parseValue, hskip, hskip']
  split
  · rename_i heq
    exact absurd (List.cons.inj heq).1 (by decide)
  · rfl

/-- A member is read back if its value is. -/
theorem parseMember_text (fuel : ℕ) (key : String) {value : JsonValue} {text rest : List Char}
    (h : parseValue fuel text = some (value, rest)) :
    parseMember (fuel + 1) (stringText key ++ ':' :: text) = some ((key, value), rest) := by
  have hskip : ∀ tail, skipSpace ('"' :: tail) = '"' :: tail := fun tail =>
    skipSpace_of_begins (by decide)
  have hcolon : skipSpace (':' :: text) = ':' :: text := skipSpace_of_begins (by decide)
  simp only [stringText, List.cons_append, List.append_assoc, List.nil_append, parseMember, hskip,
    parseString_stringText, Option.bind_eq_bind, Option.bind_some, hcolon, h]
  rfl

mutual

/-- **A value is read back from its text**, before whatever ends it. -/
theorem parseValue_stringify : ∀ (v : JsonValue) (fuel : ℕ) (rest : List Char), Plain v →
    (stringify v).length < fuel → NumberEnd rest →
    parseValue fuel (stringify v ++ rest) = some (v, rest)
  | _, 0, _, _, hfuel, _ => absurd hfuel (Nat.not_lt_zero _)
  | .null, fuel + 1, rest, _, _, _ => by
    have hskip : skipSpace ('n' :: 'u' :: 'l' :: 'l' :: rest) = 'n' :: 'u' :: 'l' :: 'l' :: rest :=
      skipSpace_of_begins (by decide)
    simp only [stringify, List.cons_append, List.nil_append, parseValue, hskip]
  | .bool true, fuel + 1, rest, _, _, _ => by
    have hskip : skipSpace ('t' :: 'r' :: 'u' :: 'e' :: rest) = 't' :: 'r' :: 'u' :: 'e' :: rest :=
      skipSpace_of_begins (by decide)
    simp only [stringify, List.cons_append, List.nil_append, parseValue, hskip]
  | .bool false, fuel + 1, rest, _, _, _ => by
    have hskip : skipSpace ('f' :: 'a' :: 'l' :: 's' :: 'e' :: rest)
        = 'f' :: 'a' :: 'l' :: 's' :: 'e' :: rest := skipSpace_of_begins (by decide)
    simp only [stringify, List.cons_append, List.nil_append, parseValue, hskip]
  | .num q, fuel + 1, rest, hplain, _, hend => by
    obtain ⟨c, text, htext, hbegins⟩ := numberText_begins hplain
    rw [stringify, htext, List.cons_append, parseValue_number fuel hbegins, ← List.cons_append,
      ← htext, parseNumber_numberText hplain hend]
    rfl
  | .str s, fuel + 1, rest, _, _, _ => by
    have hskip : ∀ tail, skipSpace ('"' :: tail) = '"' :: tail := fun tail =>
      skipSpace_of_begins (by decide)
    simp only [stringify, stringText, List.cons_append, List.append_assoc, List.nil_append,
      parseValue, hskip, parseString_stringText, Option.map_some]
  | .arr [], fuel + 1, rest, _, _, _ => by
    have hskip : skipSpace ('[' :: ']' :: rest) = '[' :: ']' :: rest :=
      skipSpace_of_begins (by decide)
    have hskip' : skipSpace (']' :: rest) = ']' :: rest := skipSpace_of_begins (by decide)
    simp only [stringify, List.cons_append, List.nil_append, parseValue, hskip, hskip']
  | .arr (item :: items), fuel + 1, rest, hplain, hfuel, _ => by
    simp only [stringify, List.length_cons, List.length_append] at hfuel
    have hitem := parseValue_stringify item fuel (itemsText items ++ rest) hplain.1 (by omega)
      (itemsText_numberEnd items rest)
    have hitems := parseItems_itemsText items fuel rest hplain.2 (by omega)
    have hbegins : BeginsValue (stringify item ++ (itemsText items ++ rest)) := by
      obtain ⟨c, text, htext, hc⟩ := stringify_begins hplain.1
      exact ⟨c, text ++ (itemsText items ++ rest), by rw [htext]; rfl, hc⟩
    simp only [stringify, List.cons_append, List.append_assoc]
    rw [parseValue_arr fuel hbegins, hitem]
    simp only [Option.bind_eq_bind, Option.bind_some, hitems]
    rfl
  | .obj [], fuel + 1, rest, _, _, _ => by
    have hskip : skipSpace ('{' :: '}' :: rest) = '{' :: '}' :: rest :=
      skipSpace_of_begins (by decide)
    have hskip' : skipSpace ('}' :: rest) = '}' :: rest := skipSpace_of_begins (by decide)
    simp only [stringify, List.cons_append, List.nil_append, parseValue, hskip, hskip']
  | .obj ((key, value) :: members), fuel + 1, rest, hplain, hfuel, _ => by
    simp only [stringify, stringText, List.length_cons, List.length_append,
      List.length_nil] at hfuel
    obtain ⟨fuel, rfl⟩ : ∃ n, fuel = n + 1 := ⟨fuel - 1, by omega⟩
    have hvalue := parseValue_stringify value fuel (membersText members ++ rest) hplain.1
      (by omega) (membersText_numberEnd members rest)
    have hmember := parseMember_text fuel key hvalue
    have hmembers := parseMembers_membersText members (fuel + 1) rest hplain.2 (by omega)
    simp only [stringText, List.cons_append, List.append_assoc, List.nil_append] at hmember
    simp only [stringify, stringText, List.cons_append, List.append_assoc, List.nil_append]
    rw [parseValue_obj, hmember]
    simp only [Option.bind_eq_bind, Option.bind_some, hmembers]
    rfl

theorem parseItems_itemsText : ∀ (items : List JsonValue) (fuel : ℕ) (rest : List Char),
    PlainItems items → (itemsText items).length < fuel →
    parseItems fuel (itemsText items ++ rest) = some (items, rest)
  | _, 0, _, _, hfuel => absurd hfuel (Nat.not_lt_zero _)
  | [], fuel + 1, rest, _, _ => by
    have hskip : skipSpace (']' :: rest) = ']' :: rest := skipSpace_of_begins (by decide)
    simp only [itemsText, List.cons_append, List.nil_append, parseItems, hskip]
  | item :: items, fuel + 1, rest, hplain, hfuel => by
    simp only [itemsText, List.length_cons, List.length_append] at hfuel
    have hitem := parseValue_stringify item fuel (itemsText items ++ rest) hplain.1 (by omega)
      (itemsText_numberEnd items rest)
    have hitems := parseItems_itemsText items fuel rest hplain.2 (by omega)
    have hskip : ∀ tail, skipSpace (',' :: tail) = ',' :: tail := fun tail =>
      skipSpace_of_begins (by decide)
    simp only [itemsText, List.cons_append, List.append_assoc, parseItems, hskip, hitem,
      Option.bind_eq_bind, Option.bind_some, hitems]
    rfl

theorem parseMembers_membersText : ∀ (members : List (String × JsonValue)) (fuel : ℕ)
    (rest : List Char), PlainMembers members → (membersText members).length < fuel →
    parseMembers fuel (membersText members ++ rest) = some (members, rest)
  | _, 0, _, _, hfuel => absurd hfuel (Nat.not_lt_zero _)
  | [], fuel + 1, rest, _, _ => by
    have hskip : skipSpace ('}' :: rest) = '}' :: rest := skipSpace_of_begins (by decide)
    simp only [membersText, List.cons_append, List.nil_append, parseMembers, hskip]
  | (key, value) :: members, fuel + 1, rest, hplain, hfuel => by
    simp only [membersText, stringText, List.length_cons, List.length_append,
      List.length_nil] at hfuel
    obtain ⟨n, hn⟩ : ∃ n, fuel = n + 1 := ⟨fuel - 1, by omega⟩
    have hvalue := parseValue_stringify value n (membersText members ++ rest) hplain.1
      (by omega) (membersText_numberEnd members rest)
    have hmember := parseMember_text n key hvalue
    have hmembers := parseMembers_membersText members fuel rest hplain.2 (by omega)
    rw [← hn] at hmember
    have hskip : ∀ tail, skipSpace (',' :: tail) = ',' :: tail := fun tail =>
      skipSpace_of_begins (by decide)
    simp only [membersText, List.cons_append, List.append_assoc, parseMembers, hskip, hmember,
      Option.bind_eq_bind, Option.bind_some, hmembers]
    rfl

end

/-- **`JSON.parse` reads back what `JSON.stringify` wrote.** -/
theorem parse_stringify {v : JsonValue} (h : Plain v) : parse (stringify v) = some v := by
  have hread := parseValue_stringify v ((stringify v).length + 1) [] h (Nat.lt_succ_self _)
    (fun _ hc => nomatch hc)
  rw [List.append_nil] at hread
  rw [parse, hread]
  rfl

/-! ## Plain text -/

/-- A character that a string shows as it is, and that is one byte. -/
def plainChar (c : Char) : Bool :=
  0x20 ≤ c.toNat && c.toNat < 0x80 && c != '"' && c != '\\'

/-- A text of such characters. -/
def PlainText (text : List Char) : Prop := ∀ c ∈ text, plainChar c = true

theorem plainChar_of_isDigit {c : Char} (h : c.isDigit = true) : plainChar c = true := by
  obtain ⟨hlow, hhigh⟩ := Char.isDigit_iff_toNat.mp h
  have hquote : c ≠ '"' := by rintro rfl; cases h
  have hslash : c ≠ '\\' := by rintro rfl; cases h
  simp only [Char.reduceToNat] at hlow hhigh
  simp only [plainChar, Bool.and_eq_true, decide_eq_true_eq, bne_iff_ne, ne_eq]
  exact ⟨⟨⟨by omega, by omega⟩, hquote⟩, hslash⟩

theorem plainChar_lt {c : Char} (h : plainChar c = true) : c.toNat < 0x80 := by
  simp only [plainChar, Bool.and_eq_true, decide_eq_true_eq] at h
  exact h.1.1.2

theorem escape_plainChar {c : Char} (h : plainChar c = true) : escape c = [c] := by
  have hcontrol : ∀ d : Char, plainChar d = false → c ≠ d := by
    rintro d hd rfl
    rw [h] at hd
    cases hd
  have hlow : ¬ c.toNat < 0x20 := by
    simp only [plainChar, Bool.and_eq_true, decide_eq_true_eq] at h
    omega
  unfold escape
  rw [if_neg (hcontrol _ (by decide)), if_neg (hcontrol _ (by decide)),
    if_neg (hcontrol _ (by decide)), if_neg (hcontrol _ (by decide)),
    if_neg (hcontrol _ (by decide)), if_neg (hcontrol _ (by decide)),
    if_neg (hcontrol _ (by decide)), if_neg hlow]

/-- **A plain text is written between quotes.** -/
theorem stringText_plain {s : String} (h : PlainText s.toList) :
    stringText s = '"' :: s.toList ++ ['"'] := by
  have hescape : ∀ text : List Char, PlainText text → text.flatMap escape = text := by
    intro text htext
    induction text with
    | nil => rfl
    | cons c text ih =>
      obtain ⟨hc, hrest⟩ := List.forall_mem_cons.mp htext
      rw [List.flatMap_cons, escape_plainChar hc, ih hrest, List.singleton_append]
  rw [stringText, hescape _ h]

theorem length_stringText {s : String} (h : PlainText s.toList) :
    (stringText s).length = s.toList.length + 2 := by
  rw [stringText_plain h, List.length_append, List.length_cons, List.length_singleton]

theorem stringText_ascii {s : String} (h : PlainText s.toList) :
    ∀ c ∈ stringText s, c.toNat < 0x80 := by
  rw [stringText_plain h]
  intro c hc
  simp only [List.cons_append, List.mem_cons, List.mem_append, List.not_mem_nil, or_false] at hc
  obtain rfl | hc | rfl := hc
  · decide
  · exact plainChar_lt (h c hc)
  · decide

theorem numberText_ascii {q : ℚ} (h : PlainNumber q) : ∀ c ∈ numberText q, c.toNat < 0x80 := by
  rw [numberText_plain h]
  intro c hc
  obtain hsign | hdigit := List.mem_append.mp hc
  · split_ifs at hsign
    · rw [List.mem_singleton.mp hsign]
      decide
    · cases hsign
  · exact plainChar_lt (plainChar_of_isDigit
      (Nat.isDigit_of_mem_toDigits (by decide) (by decide) hdigit))

end JsonText
