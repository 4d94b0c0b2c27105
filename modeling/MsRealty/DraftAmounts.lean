import MsRealty.DraftTexts

/-!
# Amounts that are read and written again

A number that was read from the text of a draft is written as a text that is
read as the same number (`scalar_centsText`, `scalar_numberString`). From a
number to a fact is one step: the values of a fact are read, formatted, and
read again as they were (`factValue_editableFact`).
-/

namespace Inventory

open PlainDecimal Binary64 Search DecimalText

/-! ## One number -/

theorem scalar_price {value : String} {integer : Bool} {n : ℚ} :
    scalar value "price" integer = .ok n ↔ ∃ d, ofText? value.toList = some d ∧
      minorUnits d ≤ maxSafeInteger ∧ n = minorUnits d := by
  unfold scalar
  rw [Tx.found_bind]
  refine exists_congr (fun d => and_congr_right (fun _ => ?_))
  rw [if_pos rfl, Tx.demand_bind, Except.ok.injEq]
  exact and_congr_right (fun _ => eq_comm)

/-- What is read as a number other than a price. -/
structure ReadAs (d : Digits) (key : String) (integer : Bool) (n : ℚ) : Prop where
  number : n = d.toNumber
  positive : key = "area" → 0 < n
  safe : hundredthsSafe n = true
  whole : integer = true → n.den = 1

theorem scalar_other {value key : String} (hkey : key ≠ "price") {integer : Bool} {n : ℚ} :
    scalar value key integer = .ok n ↔
      ∃ d, ofText? value.toList = some d ∧ ReadAs d key integer n := by
  unfold scalar
  rw [Tx.found_bind]
  refine exists_congr (fun d => and_congr_right (fun _ => ?_))
  rw [if_neg hkey]
  dsimp only
  rw [Tx.demand_bind, Tx.demand_bind, Except.ok.injEq]
  refine ⟨?_, ?_⟩
  · rintro ⟨hpositive, ⟨hsafe, hwhole⟩, rfl⟩
    exact ⟨rfl, hpositive, hsafe, hwhole⟩
  · rintro ⟨rfl, hpositive, hsafe, hwhole⟩
    exact ⟨hpositive, ⟨hsafe, hwhole⟩, rfl⟩

/-- The characters of a number. -/
def isAmount (c : Char) : Bool := c.isDigit || c == '.'

theorem isAmount_text {d : Digits} (h : d.isPlain = true) : ∀ c ∈ d.text, isAmount c = true := by
  obtain ⟨-, hwhole, hfraction, -⟩ := Digits.isPlain_iff.mp h
  intro c hc
  unfold isAmount
  rw [Bool.or_eq_true]
  obtain hc | hc := List.mem_append.mp hc
  · exact .inl (hwhole c hc)
  · unfold JsonText.fractionText at hc
    split_ifs at hc
    · exact absurd hc List.not_mem_nil
    · obtain rfl | hc := List.mem_cons.mp hc
      · exact .inr rfl
      · exact .inl (hfraction c hc)

/-- The digits of an amount in cents. -/
theorem ofText?_centsText (minor : ℕ) : ofText? (centsText minor).toList =
    some ⟨Nat.toDigits 10 (minor / 100), zeroPad 2 (minor % 100)⟩ := by
  have hlength : (zeroPad 2 (minor % 100)).length = 2 := length_zeroPad (by decide) (by omega)
  have hne : zeroPad 2 (minor % 100) ≠ [] := by
    rw [← List.length_pos_iff, hlength]
    decide
  refine ofText?_eq_some.mpr ⟨Digits.isPlain_iff.mpr ⟨Nat.toDigits_ne_nil, ?_, ?_, hlength.le⟩, ?_⟩
  · exact fun c hc => Nat.isDigit_of_mem_toDigits (by decide) (by decide) hc
  · exact fun c hc => isDigit_of_mem_zeroPad hc
  · rw [centsText, String.toList_ofList, Digits.text, JsonText.fractionText, if_neg hne]

/-- **An amount in cents is read back.** -/
theorem scalar_centsText {minor : ℕ} (h : minor ≤ maxSafeInteger) (integer : Bool) :
    scalar (centsText minor) "price" integer = .ok (minor : ℚ) := by
  have hlength : (zeroPad 2 (minor % 100)).length = 2 := length_zeroPad (by decide) (by omega)
  have hminor : minorUnits ⟨Nat.toDigits 10 (minor / 100), zeroPad 2 (minor % 100)⟩ = minor := by
    rw [minorUnits, hlength, Nat.sub_self, List.replicate_zero, List.append_nil,
      ofDigitChars_zeroPad, Nat.ofDigitChars_ten_toDigits]
    omega
  refine scalar_price.mpr ⟨_, ofText?_centsText minor, ?_, ?_⟩
  · rwa [hminor]
  · rw [hminor]

/-- A number whose hundredths are safe is not too large. -/
theorem lt_of_hundredthsSafe {n : ℚ} (h : hundredthsSafe n = true) : n < 10 ^ 14 := by
  by_contra hlarge
  have hhundred : (10 : ℚ) ^ 16 ≤ n * 100 := by
    calc (10 : ℚ) ^ 16 = 10 ^ 14 * 100 := by norm_num
      _ ≤ n * 100 := mul_le_mul_of_nonneg_right (not_lt.mp hlarge) (by norm_num)
  have hround := nearest_mono (by positivity) hhundred
  rw [nearest_ten_pow (by norm_num)] at hround
  have hfloor : (10 ^ 16 : ℤ) ≤ mathRound (nearest (n * 100)) := by
    refine Int.le_floor.mpr ?_
    push_cast
    linarith
  have hsafe := of_decide_eq_true h
  have hmax : (maxSafeInteger : ℤ) < 10 ^ 16 := by decide
  omega

/-- **A number that was read is written as it can be read again.** -/
theorem scalar_numberString {value key : String} (hkey : key ≠ "price") {integer : Bool} {n : ℚ}
    (h : scalar value key integer = .ok n) : ∃ d', ofText? (numberString n) = some d' ∧
      scalar (String.ofList (numberString n)) key integer = .ok n ∧
      (numberString n).length ≤ value.toList.length := by
  obtain ⟨d, htext, hread⟩ := (scalar_other hkey).mp h
  obtain ⟨hplain, hvalue⟩ := ofText?_eq_some.mp htext
  have hsmall := lt_of_hundredthsSafe hread.safe
  rw [hread.number] at hsmall
  obtain ⟨d', htext', hnumber, -, hlength⟩ := numberString_ofText hplain hsmall
  rw [← hread.number] at htext' hnumber
  refine ⟨d', htext', (scalar_other hkey).mpr ⟨d', ?_, hnumber.symm, hread.positive, hread.safe,
    hread.whole⟩, ?_⟩
  · rw [String.toList_ofList]
    exact htext'
  · rw [(ofText?_eq_some.mp htext').2, hvalue]
    exact hlength

/-! ## The values of a fact -/

theorem mapM_eq_ok {α β : Type} {f : α → Tx β} {xs : List α} {ys : List β} :
    xs.mapM f = .ok ys ↔ List.Forall₂ (fun x y => f x = .ok y) xs ys := by
  induction xs generalizing ys with
  | nil =>
    rw [List.mapM_nil, List.forall₂_nil_left_iff]
    exact ⟨fun h => (Except.ok.inj h).symm, fun h => congrArg Except.ok h.symm⟩
  | cons x xs ih =>
    rw [List.mapM_cons, Tx.bind_eq_ok, List.forall₂_cons_left_iff]
    refine exists_congr (fun y => ?_)
    rw [Tx.bind_eq_ok]
    refine ⟨?_, ?_⟩
    · rintro ⟨hx, rest, hrest, hys⟩
      exact ⟨rest, hx, ih.mp hrest, (Except.ok.inj hys).symm⟩
    · rintro ⟨rest, hx, hrest, rfl⟩
      exact ⟨hx, rest, ih.mpr hrest, rfl⟩

theorem mapM_eq_some {α β : Type} {f : α → Option β} {xs : List α} {ys : List β}
    (h : List.Forall₂ (fun x y => f x = some y) xs ys) : xs.mapM f = some ys := by
  induction h with
  | nil => rfl
  | cons hx _ ih =>
    rw [List.mapM_cons, hx, ih]
    rfl

/-- A part of a text is read as a value. -/
def Reads (transform : ℚ → JsonValue) (key part : String) (value : JsonValue) : Prop :=
  (scalar part key (key = "bedrooms")).map transform = .ok value

variable {transform : ℚ → JsonValue} {key : String}

theorem factValue_absent {state : FactState} (h : state ≠ .known ∧ state ≠ .conflicting)
    (raw : String) : factValue state raw key transform = .ok none :=
  if_pos h

theorem factValue_known {raw : String} {v : Option JsonValue} :
    factValue .known raw key transform = .ok v ↔
      ∃ value, Reads transform key raw value ∧ v = some value := by
  unfold factValue
  rw [if_neg (fun h => h.1 rfl), if_neg (by decide), Tx.demand_bind, Tx.bind_eq_ok]
  refine ⟨?_, ?_⟩
  · rintro ⟨-, values, hvalues, hv⟩
    obtain ⟨value, rest, hvalue, hrest, rfl⟩ :=
      List.forall₂_cons_left_iff.mp (mapM_eq_ok.mp hvalues)
    exact ⟨value, hvalue, (Except.ok.inj hv).symm⟩
  · rintro ⟨value, hvalue, rfl⟩
    exact ⟨fun h => (nomatch h), [value], mapM_eq_ok.mpr (.cons hvalue .nil), rfl⟩

theorem factValue_conflicting {raw : String} {v : Option JsonValue} :
    factValue .conflicting raw key transform = .ok v ↔ ∃ values, 2 ≤ (splitBars raw).length ∧
      List.Forall₂ (Reads transform key) (splitBars raw) values ∧ v = some (.arr values) := by
  unfold factValue
  rw [if_neg (fun h => h.2 rfl), if_pos rfl, Tx.demand_bind, Tx.bind_eq_ok]
  refine ⟨?_, ?_⟩
  · rintro ⟨hlength, values, hvalues, hv⟩
    exact ⟨values, hlength rfl, mapM_eq_ok.mp hvalues, (Except.ok.inj hv).symm⟩
  · rintro ⟨values, hlength, hvalues, rfl⟩
    exact ⟨fun _ => hlength, values, mapM_eq_ok.mpr hvalues, rfl⟩

/-! ## Writing the values -/

/-- **A text that stands for a value**: the value is written as it, and it is
read as the value. A price takes at most 17 characters, another number no more
than it was read from. -/
structure Stands (format : Option JsonValue → Option String) (transform : ℚ → JsonValue)
    (key part : String) (value : JsonValue) (written : String) : Prop where
  format : format (some value) = some written
  reads : Reads transform key written value
  amount : ∀ c ∈ written.toList, isAmount c = true
  length : written.toList.length ≤ if key = "price" then 17 else part.toList.length

/-- A format that writes every value that is read. -/
def Writes (format : Option JsonValue → Option String) (transform : ℚ → JsonValue)
    (key : String) : Prop :=
  ∀ part value, Reads transform key part value → ∃ written, Stands format transform key part value
    written

/-- A character that is written is no space and no bar. -/
theorem isSpace_of_isAmount {c : Char} (h : isAmount c = true) : isSpace c = false ∧ c ≠ '|' := by
  obtain h | h := Bool.or_eq_true_iff.mp h
  · obtain ⟨hfirst, hlast⟩ : 48 ≤ c.toNat ∧ c.toNat ≤ 57 := Char.isDigit_iff_toNat.mp h
    rw [← Char.ofNat_toNat c]
    generalize c.toNat = n at hfirst hlast
    interval_cases n <;> decide
  · rw [eq_of_beq h]
    decide

theorem trim_of_isAmount {s : String} (h : ∀ c ∈ s.toList, isAmount c = true) : trim s = s :=
  trim_of_forall (fun c hc => (isSpace_of_isAmount (h c hc)).1)

/-- **Texts without bars are split again as they were joined.** -/
theorem splitBars_joinBars {parts : List String} (hne : parts ≠ [])
    (h : ∀ part ∈ parts, ∀ c ∈ part.toList, isAmount c = true) :
    splitBars (joinBars parts) = parts := by
  have hbars : ∀ l ∈ parts.map String.toList, '|' ∉ l := by
    intro l hl hbar
    obtain ⟨part, hpart, rfl⟩ := List.mem_map.mp hl
    exact (isSpace_of_isAmount (h part hpart '|' hbar)).2 rfl
  unfold splitBars joinBars
  rw [String.toList_ofList, List.splitOn_intercalate '|' hbars
    (fun hnil => hne (List.map_eq_nil_iff.mp hnil)), List.map_map]
  refine (List.map_congr_left (fun part hpart => ?_)).trans (List.map_id parts)
  show trim (String.ofList part.toList) = part
  rw [String.ofList_toList]
  exact trim_of_isAmount (h part hpart)

theorem length_intercalate_le {s : Char} {xs ys : List (List Char)}
    (h : List.Forall₂ (fun x y => x.length ≤ y.length) xs ys) :
    ([s].intercalate xs).length ≤ ([s].intercalate ys).length := by
  induction h with
  | nil => exact le_rfl
  | cons hhead htail ih =>
    cases htail with
    | nil => simpa using hhead
    | cons hnext hrest =>
      rw [List.intercalate_cons_cons, List.intercalate_cons_cons]
      simp only [List.length_append]
      omega

/-- Every part of a text that is read is written again. -/
theorem exists_written {format : Option JsonValue → Option String}
    (hwrites : Writes format transform key)
    {parts : List String} {values : List JsonValue}
    (h : List.Forall₂ (Reads transform key) parts values) :
    ∃ written, List.Forall₂ (fun value w => format (some value) = some w) values written ∧
      List.Forall₂ (Reads transform key) written values ∧
      (∀ w ∈ written, ∀ c ∈ w.toList, isAmount c = true) ∧
      (key ≠ "price" → List.Forall₂ (fun w part => w.toList.length ≤ part.toList.length) written
        parts) := by
  induction h with
  | nil => exact ⟨[], .nil, .nil, fun w hw => absurd hw List.not_mem_nil, fun _ => .nil⟩
  | cons hread _ ih =>
    obtain ⟨written, hformat, hreads, hamount, hlength⟩ := ih
    obtain ⟨w, hw⟩ := hwrites _ _ hread
    refine ⟨w :: written, .cons hw.format hformat, .cons hw.reads hreads,
      List.forall_mem_cons.mpr ⟨hw.amount, hamount⟩, fun hkey => .cons ?_ (hlength hkey)⟩
    have hle := hw.length
    rwa [if_neg hkey] at hle

/-- **What a fact is written as**: a text that is trimmed, is read as the same
value, and is not too long unless it has several prices. -/
structure Rewritten (state : FactState) (raw key : String) (transform : ℚ → JsonValue)
    (v : Option JsonValue) (written : String) : Prop where
  value : factValue state written key transform = .ok v
  trimmed : trim written = written
  ascii : ∀ c ∈ written.toList, c.toNat < 0x80
  length : key ≠ "price" → written.toList.length ≤ raw.toList.length
  price : key = "price" → state ≠ .conflicting → written.toList.length ≤ 17

/-- The characters of an amount, and the bar, are ASCII and no spaces. -/
theorem ascii_of_isAmount {c : Char} (h : isAmount c = true) : c.toNat < 0x80 := by
  obtain h | h := Bool.or_eq_true_iff.mp h
  · have hlast : c.toNat ≤ 57 := (Char.isDigit_iff_toNat.mp h).2
    omega
  · rw [eq_of_beq h]
    decide

theorem mem_intercalate {s c : Char} {xs : List (List Char)} (h : c ∈ [s].intercalate xs) :
    c = s ∨ ∃ x ∈ xs, c ∈ x := by
  induction xs with
  | nil => exact absurd h List.not_mem_nil
  | cons x xs ih =>
    cases xs with
    | nil => exact .inr ⟨x, List.mem_cons_self, by simpa using h⟩
    | cons y ys =>
      rw [List.intercalate_cons_cons, List.mem_append, List.mem_append, List.mem_singleton] at h
      obtain (hx | hs) | hrest := h
      · exact .inr ⟨x, List.mem_cons_self, hx⟩
      · exact .inl hs
      · obtain hs | ⟨z, hz, hc⟩ := ih hrest
        · exact .inl hs
        · exact .inr ⟨z, List.mem_cons_of_mem _ hz, hc⟩

/-- The characters of joined amounts. -/
theorem mem_joinBars {parts : List String} {c : Char} (h : c ∈ (joinBars parts).toList)
    (hparts : ∀ part ∈ parts, ∀ c ∈ part.toList, isAmount c = true) :
    isSpace c = false ∧ c.toNat < 0x80 := by
  rw [joinBars, String.toList_ofList] at h
  obtain rfl | ⟨l, hl, hc⟩ := mem_intercalate h
  · decide
  · obtain ⟨part, hpart, rfl⟩ := List.mem_map.mp hl
    exact ⟨(isSpace_of_isAmount (hparts part hpart c hc)).1,
      ascii_of_isAmount (hparts part hpart c hc)⟩

/-- Joining texts that are no longer gives a text that is no longer. -/
theorem length_joinBars_le {raw : String} {written : List String}
    (h : List.Forall₂ (fun w part => w.toList.length ≤ part.toList.length) written
      (splitBars raw)) : (joinBars written).toList.length ≤ raw.toList.length := by
  rw [joinBars, String.toList_ofList]
  refine le_trans (@length_intercalate_le '|' _ (raw.toList.splitOn '|') ?_)
    (le_of_eq (congrArg List.length (List.intercalate_splitOn '|')))
  rw [List.forall₂_map_left_iff]
  refine (List.forall₂_map_right_iff.mp h).imp (fun w part hle => hle.trans ?_)
  have htrim := (trim_part (String.ofList part)).length_le
  rwa [String.toList_ofList] at htrim

/-- The text of a known fact. -/
theorem editableFact_known {format : Option JsonValue → Option String} {input : Option JsonValue}
    {value : JsonValue} {written : String}
    (hstate : field "state" input = some (.str FactState.known.name))
    (hvalue : field "value" input = some value) (hformat : format (some value) = some written) :
    editableFact input format = (.known, written) := by
  unfold editableFact
  rw [hstate, member_factState, hvalue]
  dsimp only
  rw [hformat]

/-- The text of a conflicting fact. -/
theorem editableFact_conflicting {format : Option JsonValue → Option String}
    {input : Option JsonValue} {values : List JsonValue} {written : List String}
    (hstate : field "state" input = some (.str FactState.conflicting.name))
    (hvalue : field "value" input = some (.arr values))
    (hformat : List.Forall₂ (fun value w => format (some value) = some w) values written)
    (htwo : 2 ≤ values.length) :
    editableFact input format = (.conflicting, joinBars written) := by
  unfold editableFact
  rw [hstate, member_factState, hvalue]
  dsimp only
  rw [mapM_eq_some hformat]
  dsimp only
  rw [if_neg (by omega)]

/-- **A fact that was read is shown as a text that is read as the fact.** -/
theorem editableFact_factValue {format : Option JsonValue → Option String}
    (hwrites : Writes format transform key) {state : FactState} {raw : String}
    {v : Option JsonValue} (h : factValue state raw key transform = .ok v)
    (input : Option JsonValue) (hstate : field "state" input = some (.str state.name))
    (hvalue : field "value" input = some (v.getD .null)) :
    ∃ written, editableFact input format = (state, written) ∧
      Rewritten state raw key transform v written := by
  by_cases habsent : state ≠ .known ∧ state ≠ .conflicting
  · rw [factValue_absent habsent] at h
    obtain rfl := Except.ok.inj h
    refine ⟨"", ?_, factValue_absent habsent "", rfl, by simp, fun _ => Nat.zero_le _,
      fun _ _ => Nat.zero_le _⟩
    unfold editableFact
    rw [hstate, member_factState]
    cases state with
    | known => exact absurd rfl habsent.1
    | conflicting => exact absurd rfl habsent.2
    | _ => rfl
  by_cases hknown : state = .known
  · subst hknown
    obtain ⟨value, hread, rfl⟩ := factValue_known.mp h
    obtain ⟨written, hwritten⟩ := hwrites raw value hread
    have hlength := hwritten.length
    refine ⟨written, editableFact_known hstate hvalue hwritten.format,
      factValue_known.mpr ⟨value, hwritten.reads, rfl⟩,
      trim_of_isAmount hwritten.amount, fun c hc => ascii_of_isAmount (hwritten.amount c hc),
      fun hkey => ?_, fun hkey _ => ?_⟩
    · rwa [if_neg hkey] at hlength
    · rwa [if_pos hkey] at hlength
  · have hconflicting : state = .conflicting := by
      by_contra hne
      exact habsent ⟨hknown, hne⟩
    subst hconflicting
    obtain ⟨values, htwo, hreads, rfl⟩ := factValue_conflicting.mp h
    obtain ⟨written, hformat, hwritten, hamount, hlength⟩ := exists_written hwrites hreads
    have htwo' : 2 ≤ values.length := by rwa [← hreads.length_eq]
    have hlong : 2 ≤ written.length := by rwa [← hformat.length_eq]
    have hsplit : splitBars (joinBars written) = written := by
      refine splitBars_joinBars (fun hnil => ?_) hamount
      rw [hnil] at hlong
      exact absurd hlong (by decide)
    refine ⟨joinBars written, editableFact_conflicting hstate hvalue hformat htwo',
      factValue_conflicting.mpr ⟨values, ?_, ?_, rfl⟩, ?_,
      fun c hc => (mem_joinBars hc hamount).2, fun hkey => length_joinBars_le (hlength hkey),
      fun _ hne => absurd rfl hne⟩
    · rwa [hsplit]
    · rwa [hsplit]
    · exact trim_of_forall (fun c hc => (mem_joinBars hc hamount).1)

/-! ## The three amounts of a draft -/

theorem reads_eq {part : String} {value : JsonValue} : Reads transform key part value ↔
    ∃ n, scalar part key (key = "bedrooms") = .ok n ∧ value = transform n := by
  unfold Reads
  cases scalar part key (key = "bedrooms") with
  | error e => exact ⟨fun h => (nomatch h), fun ⟨_, h, _⟩ => (nomatch h)⟩
  | ok n =>
    refine ⟨fun h => ⟨n, rfl, (Except.ok.inj h).symm⟩, ?_⟩
    rintro ⟨_, ⟨⟩, rfl⟩
    rfl

/-- **Prices are written as they are read.** -/
theorem writes_price (purpose : ListingPurpose) :
    Writes (fun value => priceText value (some (.str purpose.name))) (priceValue purpose)
      "price" := by
  intro part value hread
  obtain ⟨n, hscalar, rfl⟩ := reads_eq.mp hread
  obtain ⟨d, -, hsafe, rfl⟩ := scalar_price.mp hscalar
  generalize minorUnits d = minor at hsafe
  refine ⟨centsText minor, ?_, reads_eq.mpr ⟨minor, scalar_centsText hsafe _, rfl⟩, ?_, ?_⟩
  · have hpurpose : purposeOf (some (.str purpose.name)) = some purpose := by
      cases purpose <;> decide
    have hminor : wholeNumber? (field "amountMinor" (some (priceValue purpose minor)))
        = some minor := by
      show (if _ then some _ else none) = _
      rw [if_pos ⟨Rat.den_natCast minor, Nat.cast_nonneg minor, by exact_mod_cast hsafe⟩,
        Rat.num_natCast, Int.toNat_natCast]
    have hperiod : text (field "period" (some (priceValue purpose minor)))
        = (pricePeriodByPurpose purpose).name := by
      cases purpose <;> rfl
    have hbasis : (member PriceBasis.name PriceBasis.all
        (field "basis" (some (priceValue purpose minor)))).isSome = true := by
      show (member PriceBasis.name PriceBasis.all (some (.str "asking"))).isSome = true
      decide
    unfold priceText
    rw [hpurpose, hminor]
    exact if_pos ⟨rfl, hbasis, hperiod⟩
  · have hdigits := ofText?_eq_some.mp (ofText?_centsText minor)
    rw [hdigits.2]
    exact isAmount_text hdigits.1
  · have hwhole : (Nat.toDigits 10 (minor / 100)).length ≤ 14 := by
      refine (Nat.length_toDigits_le_iff (by decide) (by decide)).mpr ?_
      have hmax : maxSafeInteger < 10 ^ 16 := by decide
      omega
    have hcents : (zeroPad 2 (minor % 100)).length = 2 := length_zeroPad (by decide) (by omega)
    rw [if_pos rfl, centsText, String.toList_ofList, List.length_append, List.length_cons, hcents]
    omega

/-- **Numbers are written as they are read.** -/
theorem stands_scalarText {key part : String} (hkey : key ≠ "price")
    {format : Option JsonValue → Option String} {n : ℚ}
    (hscalar : scalar part key (key = "bedrooms") = .ok n)
    (hformat : 0 ≤ n → format (some (transform n)) = scalarText (some (.num n)) (key = "bedrooms")) :
    ∃ written, Stands format transform key part (transform n) written := by
  obtain ⟨d, -, hread⟩ := (scalar_other hkey).mp hscalar
  obtain ⟨d', htext, hagain, hlength⟩ := scalar_numberString hkey hscalar
  obtain ⟨hplain, hchars⟩ := ofText?_eq_some.mp htext
  have hnonneg : 0 ≤ n := by
    rw [hread.number]
    exact nearest_zero.ge.trans (nearest_mono le_rfl d.value_nonneg)
  refine ⟨String.ofList (numberString n), ?_, reads_eq.mpr ⟨n, hagain, rfl⟩, ?_, ?_⟩
  · rw [hformat hnonneg, scalarText]
    exact if_pos ⟨hnonneg, hread.safe, hread.whole, by rw [htext]; rfl⟩
  · rw [String.toList_ofList, hchars]
    exact isAmount_text hplain
  · rw [if_neg hkey, String.toList_ofList]
    exact hlength

theorem writes_bedrooms : Writes (fun value => scalarText value true) .num "bedrooms" := by
  intro part value hread
  obtain ⟨n, hscalar, rfl⟩ := reads_eq.mp hread
  exact stands_scalarText (by decide) hscalar (fun _ => rfl)

theorem writes_area (draft : ListingDraft) (basis : AreaBasis) (state : FactState)
    (v : Option JsonValue) :
    Writes (areaText (draft.fact ("area." ++ basis.name) state v (some "m2") (some basis.name)) basis)
      (areaValue basis) "area" := by
  intro part value hread
  obtain ⟨n, hscalar, rfl⟩ := reads_eq.mp hread
  obtain ⟨d, -, hread⟩ := (scalar_other (by decide)).mp hscalar
  refine stands_scalarText (by decide) hscalar (fun _ => ?_)
  show (if _ then _ else none) = _
  rw [if_pos]
  · rfl
  · exact ⟨rfl, rfl, rfl, by simp [ListingDraft.fact], hread.positive rfl⟩

end Inventory
