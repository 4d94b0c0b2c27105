import Mathlib.Tactic.IntervalCases
import MsRealty.CanonicalJson
import MsRealty.DoubleText
import MsRealty.PrefixCodes

/-!
# The canonical text of a value

What `canonicalJson` (`src/domain/approval.ts`) writes for every JSON value the
source can hold: numbers of its format, and texts of any code units, surrogates
that stand alone included, which `JSON.stringify` writes as escapes.

Every part of the text ends by itself, so values of one text are the same value
up to the order of their members (`same_of_canonicalJson`), and such values have
one text (`canonicalJson_of_same`).
-/

namespace CanonicalText

open Doubles JsonText PrefixCodes

/-! ## Texts -/

/-- **A text of the source**, its code units. -/
abbrev JsString := List UInt16

/-- The code unit of a character of the basic plane. -/
def unit (c : Char) : UInt16 := UInt16.ofNat c.toNat

/-- The code units of a text of such characters. -/
def units (s : String) : JsString := s.toList.map unit

/-- The first half of a pair of surrogates. -/
def isHighSurrogate (u : UInt16) : Bool := 0xd800 ≤ u && u ≤ 0xdbff

/-- The second half of a pair. -/
def isLowSurrogate (u : UInt16) : Bool := 0xdc00 ≤ u && u ≤ 0xdfff

/-- A hexadecimal digit. -/
def hexUnit (n : ℕ) : UInt16 := (units "0123456789abcdef").getD n 0

/-- A code unit that stands alone, inside a string (`QuoteJSONString`). -/
def escapeUnit (u : UInt16) : JsString :=
  if u = 0x08 then units "\\b"
  else if u = 0x09 then units "\\t"
  else if u = 0x0a then units "\\n"
  else if u = 0x0c then units "\\f"
  else if u = 0x0d then units "\\r"
  else if u = 0x22 then units "\\\""
  else if u = 0x5c then units "\\\\"
  else if u < 0x20 || isHighSurrogate u || isLowSurrogate u then
    units "\\u" ++ [hexUnit (u.toNat / 4096), hexUnit (u.toNat / 256 % 16),
      hexUnit (u.toNat / 16 % 16), hexUnit (u.toNat % 16)]
  else [u]

/-- The code units of a text, inside a string. A pair of surrogates is kept. -/
def escaped : JsString → JsString
  | [] => []
  | [u] => escapeUnit u
  | u :: v :: rest =>
    if isHighSurrogate u && isLowSurrogate v then u :: v :: escaped rest
    else escapeUnit u ++ escaped (v :: rest)

/-- **The text of a string.** -/
def quote (s : JsString) : JsString := unit '"' :: escaped s ++ [unit '"']

/-! ## Values -/

/-- **A JSON value.** -/
inductive JsValue where
  | null
  | bool (b : Bool)
  | num (x : Double)
  | str (s : JsString)
  | arr (items : List JsValue)
  | obj (members : List (JsString × JsValue))

/-- **The order of the members of an object**: that of their names, by code unit. -/
def memberLE {α : Type*} (a b : JsString × α) : Prop :=
  unitsLE (a.fst.map UInt16.toNat) (b.fst.map UInt16.toNat) = true

instance {α : Type*} : DecidableRel (@memberLE α) := fun a b =>
  inferInstanceAs (Decidable
    (unitsLE (a.fst.map UInt16.toNat) (b.fst.map UInt16.toNat) = true))

mutual

/-- **`canonicalJson`.** -/
def canonicalJson : JsValue → JsString
  | .null => units "null"
  | .bool b => units (if b then "true" else "false")
  | .num x => x.text.map unit
  | .str s => quote s
  | .arr items => unit '[' :: [unit ','].intercalate (canonicalItems items) ++ [unit ']']
  | .obj members =>
    let entries := (canonicalMembers members).insertionSort memberLE
    unit '{' :: [unit ','].intercalate (entries.map (fun e => quote e.fst ++ unit ':' :: e.snd))
      ++ [unit '}']

/-- The texts of the items. -/
def canonicalItems : List JsValue → List JsString
  | [] => []
  | item :: items => canonicalJson item :: canonicalItems items

/-- The texts of the members. -/
def canonicalMembers : List (JsString × JsValue) → List (JsString × JsString)
  | [] => []
  | (key, value) :: members => (key, canonicalJson value) :: canonicalMembers members

end

mutual

/-- **The same value**, objects compared as maps: they have the same names, and
every member of one is the same as one of its name in the other. -/
def Same : JsValue → JsValue → Prop
  | .null, .null => True
  | .bool a, .bool b => a = b
  | .num x, .num y => x = y
  | .str s, .str t => s = t
  | .arr items, .arr items' => SameItems items items'
  | .obj members, .obj members' =>
    (∀ key, key ∈ members.map Prod.fst ↔ key ∈ members'.map Prod.fst)
      ∧ MembersIn members members'
  | _, _ => False

/-- The same items, one after another. -/
def SameItems : List JsValue → List JsValue → Prop
  | [], [] => True
  | item :: items, item' :: items' => Same item item' ∧ SameItems items items'
  | _, _ => False

/-- Every member is the same as one of its name. -/
def MembersIn : List (JsString × JsValue) → List (JsString × JsValue) → Prop
  | [], _ => True
  | (key, value) :: members, members' =>
    (∃ value', (key, value') ∈ members' ∧ Same value value') ∧ MembersIn members members'

end

mutual

/-- **No name twice** in any object of a value. -/
def Distinct : JsValue → Prop
  | .null => True
  | .bool _ => True
  | .num _ => True
  | .str _ => True
  | .arr items => DistinctItems items
  | .obj members => (members.map Prod.fst).Nodup ∧ DistinctMembers members

/-- No name twice in any item. -/
def DistinctItems : List JsValue → Prop
  | [] => True
  | item :: items => Distinct item ∧ DistinctItems items

/-- No name twice in any member. -/
def DistinctMembers : List (JsString × JsValue) → Prop
  | [] => True
  | (_, value) :: members => Distinct value ∧ DistinctMembers members

end

/-! ## A string ends by itself -/

/-- The value of a hexadecimal digit. -/
def hexValue (u : UInt16) : ℕ := (units "0123456789abcdef").idxOf u

/-- The code unit a one-letter escape stands for. -/
def shortEscape (u : UInt16) : UInt16 :=
  if u = unit 'b' then 0x08
  else if u = unit 't' then 0x09
  else if u = unit 'n' then 0x0a
  else if u = unit 'f' then 0x0c
  else if u = unit 'r' then 0x0d
  else u

/-- Reads a code unit of a string, escaped or not. -/
def readUnit : JsString → Option (UInt16 × JsString)
  | [] => none
  | [u] => some (u, [])
  | u :: e :: rest =>
    if u = unit '\\' then
      if e = unit 'u' then
        match rest with
        | a :: b :: c :: d :: rest =>
          some (UInt16.ofNat (hexValue a * 4096 + hexValue b * 256 + hexValue c * 16 + hexValue d),
            rest)
        | _ => none
      else some (shortEscape e, rest)
    else some (u, e :: rest)

theorem hexValue_hexUnit {n : ℕ} (h : n < 16) : hexValue (hexUnit n) = n := by
  interval_cases n <;> decide

theorem readUnit_escapeUnit (u : UInt16) (rest : JsString) :
    readUnit (escapeUnit u ++ rest) = some (u, rest) := by
  unfold escapeUnit
  split_ifs with h1 h2 h3 h4 h5 h6 h7 h8
  · rw [h1]
    rfl
  · rw [h2]
    rfl
  · rw [h3]
    rfl
  · rw [h4]
    rfl
  · rw [h5]
    rfl
  · rw [h6]
    rfl
  · rw [h7]
    rfl
  · have hlt := u.toNat_lt
    rw [List.append_assoc]
    show some (UInt16.ofNat (hexValue (hexUnit (u.toNat / 4096)) * 4096
      + hexValue (hexUnit (u.toNat / 256 % 16)) * 256
      + hexValue (hexUnit (u.toNat / 16 % 16)) * 16 + hexValue (hexUnit (u.toNat % 16))), rest) = _
    rw [hexValue_hexUnit (by omega), hexValue_hexUnit (by omega), hexValue_hexUnit (by omega),
      hexValue_hexUnit (by omega),
      show u.toNat / 4096 * 4096 + u.toNat / 256 % 16 * 256 + u.toNat / 16 % 16 * 16
        + u.toNat % 16 = u.toNat by omega, UInt16.ofNat_toNat]
  · cases rest with
    | nil => rfl
    | cons e rest => exact if_neg h7

/-- What a code unit begins with: itself or a backslash, and neither a quote nor
the first half of a pair. -/
theorem escapeUnit_begins (u : UInt16) : ∃ v rest, escapeUnit u = v :: rest ∧ v ≠ unit '"' ∧
    isHighSurrogate v = false := by
  unfold escapeUnit
  split_ifs with h1 h2 h3 h4 h5 h6 h7 h8
  all_goals first
    | exact ⟨_, _, rfl, by decide, by decide⟩
    | refine ⟨u, [], rfl, h6, ?_⟩
      simp only [Bool.or_eq_true, not_or, Bool.not_eq_true] at h8
      exact h8.1.2

theorem readUnit_inj {u v : UInt16} {x y : JsString}
    (h : escapeUnit u ++ x = escapeUnit v ++ y) : u = v ∧ x = y := by
  have hread := readUnit_escapeUnit u x
  rw [h, readUnit_escapeUnit] at hread
  obtain ⟨rfl, rfl⟩ := Prod.mk.inj (Option.some.inj hread)
  exact ⟨rfl, rfl⟩

/-- What a text begins with: nothing, a pair, or a code unit that stands alone. -/
inductive Begins : JsString → Prop where
  | nil : Begins []
  | pair (u v : UInt16) (rest : JsString) (hu : isHighSurrogate u = true)
      (htext : escaped (u :: v :: rest) = u :: v :: escaped rest) : Begins (u :: v :: rest)
  | alone (u : UInt16) (rest : JsString)
      (htext : escaped (u :: rest) = escapeUnit u ++ escaped rest) : Begins (u :: rest)

theorem begins (s : JsString) : Begins s := by
  cases s with
  | nil => exact .nil
  | cons u rest =>
    cases rest with
    | nil => exact .alone u [] (List.append_nil _).symm
    | cons v rest =>
      by_cases hpair : (isHighSurrogate u && isLowSurrogate v) = true
      · exact .pair u v rest ((Bool.and_eq_true _ _).mp hpair).1 (if_pos hpair)
      · exact .alone u (v :: rest) (if_neg hpair)

/-- A code unit that stands alone does not begin as the end of a string does, or
as a pair. -/
theorem escapeUnit_ne {u v : UInt16} {x y : JsString}
    (h : v = unit '"' ∨ isHighSurrogate v = true) : escapeUnit u ++ x ≠ v :: y := by
  obtain ⟨w, rest, htext, hquote, hhigh⟩ := escapeUnit_begins u
  rw [htext]
  intro heq
  obtain rfl := (List.cons.inj heq).1
  obtain h | h := h
  · exact hquote h
  · rw [hhigh] at h
    cases h

/-- **A string ends by itself**, after its quote. -/
theorem escaped_append {s t : JsString} {r r' : JsString}
    (h : escaped s ++ unit '"' :: r = escaped t ++ unit '"' :: r') : s = t ∧ r = r' := by
  induction hn : s.length using Nat.strong_induction_on generalizing s t with
  | _ n ih =>
    have hquote : ∀ {u : UInt16}, isHighSurrogate u = true → u ≠ unit '"' := by
      rintro u hu rfl
      exact absurd hu (by decide)
    cases begins s with
    | nil =>
      cases begins t with
      | nil => exact ⟨rfl, (List.cons.inj h).2⟩
      | pair u v rest hu htext =>
        rw [htext] at h
        exact absurd (List.cons.inj h).1.symm (hquote hu)
      | alone u rest htext =>
        rw [htext, List.append_assoc] at h
        exact absurd h.symm (escapeUnit_ne (.inl rfl))
    | pair u v rest hu htext =>
      rw [htext] at h
      cases begins t with
      | nil => exact absurd (List.cons.inj h).1 (hquote hu)
      | pair u' v' rest' hu' htext' =>
        rw [htext'] at h
        obtain ⟨rfl, hv⟩ := List.cons.inj h
        obtain ⟨rfl, hrest⟩ := List.cons.inj hv
        obtain ⟨rfl, rfl⟩ := ih rest.length (by rw [← hn]; simp only [List.length_cons]; omega)
          hrest rfl
        exact ⟨rfl, rfl⟩
      | alone u' rest' htext' =>
        rw [htext', List.append_assoc] at h
        exact absurd h.symm (escapeUnit_ne (.inr hu))
    | alone u rest htext =>
      rw [htext, List.append_assoc] at h
      cases begins t with
      | nil => exact absurd h (escapeUnit_ne (.inl rfl))
      | pair u' v' rest' hu' htext' =>
        rw [htext'] at h
        exact absurd h (escapeUnit_ne (.inr hu'))
      | alone u' rest' htext' =>
        rw [htext', List.append_assoc] at h
        obtain ⟨rfl, hrest⟩ := readUnit_inj h
        obtain ⟨rfl, rfl⟩ := ih rest.length (by rw [← hn]; simp only [List.length_cons]; omega)
          hrest rfl
        exact ⟨rfl, rfl⟩

theorem endsItself_quote (s : JsString) : EndsItself Eq Anything quote s := by
  intro t r r' _ _ heq
  simp only [quote, List.cons_append, List.append_assoc, List.cons.injEq, true_and] at heq
  exact escaped_append heq

/-! ## Numbers end by themselves -/

/-- The code units of a number. -/
def isNumberUnit (u : UInt16) : Bool := isNumberChar (Char.ofNat u.toNat)

/-- What may follow a value: no code unit of a number. -/
def Ends (r : JsString) : Prop := ∀ u ∈ r.head?, isNumberUnit u = false

theorem ends_cons {u : UInt16} (h : isNumberUnit u = false) (r : JsString) : Ends (u :: r) := by
  rintro v ⟨⟩
  exact h

theorem ofNat_unit {c : Char} (h : c.toNat < 2 ^ 16) : Char.ofNat (unit c).toNat = c := by
  rw [unit, UInt16.toNat_ofNat', Nat.mod_eq_of_lt h, Char.ofNat_toNat]

theorem toNat_lt_of_isNumberChar {c : Char} (h : isNumberChar c = true) : c.toNat < 2 ^ 16 := by
  obtain h | h := (Bool.or_eq_true _ _).mp h
  · have hlast := (Char.isDigit_iff_toNat.mp h).2
    exact lt_of_le_of_lt hlast (by decide)
  · have hmarks : "+-.e".toList.all (fun c => decide (c.toNat < 2 ^ 16)) = true := by decide
    exact of_decide_eq_true (List.all_eq_true.mp hmarks c (List.contains_iff_mem.mp h))

theorem endsItself_number (x : Double) :
    EndsItself Eq Ends (fun x : Double => x.text.map unit) x := by
  have hback : ∀ x : Double, ∀ c ∈ x.text, Char.ofNat (unit c).toNat = c :=
    fun x c hc => ofNat_unit (toNat_lt_of_isNumberChar (isNumberChar_text x c hc))
  refine EndsItself.of_run (p := isNumberUnit) ?_ ?_ x
  · intro x y hxy
    refine Double.text_injective ?_
    have htext : ∀ x : Double, (x.text.map unit).map (fun u => Char.ofNat u.toNat) = x.text := by
      intro x
      rw [List.map_map]
      exact (List.map_congr_left (hback x)).trans (List.map_id _)
    rw [← htext x, ← htext y]
    exact congrArg _ hxy
  · intro x u hu
    obtain ⟨c, hc, rfl⟩ := List.mem_map.mp hu
    rw [isNumberUnit, hback x c hc]
    exact isNumberChar_text x c hc

/-! ## Values end by themselves -/

theorem canonicalItems_eq (items : List JsValue) :
    canonicalItems items = items.map canonicalJson := by
  induction items with
  | nil => rfl
  | cons item items ih => rw [canonicalItems, ih, List.map_cons]

theorem canonicalMembers_eq (members : List (JsString × JsValue)) :
    canonicalMembers members = members.map (fun m => (m.fst, canonicalJson m.snd)) := by
  induction members with
  | nil => rfl
  | cons m members ih => rw [canonicalMembers, ih, List.map_cons]

/-- The text of a member. -/
def memberText (m : JsString × JsValue) : JsString := quote m.fst ++ unit ':' :: canonicalJson m.snd

theorem canonicalJson_arr (items : List JsValue) : canonicalJson (.arr items)
    = unit '[' :: separated (unit ',') (unit ']') canonicalJson items := by
  rw [canonicalJson, canonicalItems_eq, separated_eq]
  rfl

theorem canonicalJson_obj (members : List (JsString × JsValue)) : canonicalJson (.obj members)
    = unit '{' :: separated (unit ',') (unit '}') memberText
      (members.insertionSort memberLE) := by
  have hsort := List.map_insertionSort (r := memberLE) (s := memberLE)
    (fun m : JsString × JsValue => (m.fst, canonicalJson m.snd)) members (fun _ _ _ _ => Iff.rfl)
  rw [canonicalJson, canonicalMembers_eq, ← hsort, separated_eq, List.map_map]
  rfl

/-- The kinds of values, and of what their texts begin with. -/
inductive Kind where
  | null
  | bool
  | num
  | str
  | arr
  | obj
  | other
  deriving DecidableEq

/-- The kind of a value. -/
def JsValue.kind : JsValue → Kind
  | .null => .null
  | .bool _ => .bool
  | .num _ => .num
  | .str _ => .str
  | .arr _ => .arr
  | .obj _ => .obj

/-- The kind that a code unit begins. -/
def kindOf (u : UInt16) : Kind :=
  if u = unit 'n' then .null
  else if u = unit 't' ∨ u = unit 'f' then .bool
  else if u = unit '"' then .str
  else if u = unit '[' then .arr
  else if u = unit '{' then .obj
  else if u = unit ']' then .other
  else .num

/-- **A text tells the kind of its value** by what it begins with. -/
theorem canonicalJson_begins (v : JsValue) :
    ∃ u rest, canonicalJson v = u :: rest ∧ kindOf u = v.kind := by
  cases v with
  | null => exact ⟨_, _, rfl, by decide⟩
  | bool b => cases b <;> exact ⟨_, _, rfl, by decide⟩
  | num x =>
    obtain ⟨c, rest, htext, hc⟩ := numberText_begins x.decimal_finite
    refine ⟨unit c, rest.map unit, congrArg (List.map unit) htext, ?_⟩
    obtain rfl | hdigit := hc
    · rfl
    · obtain ⟨hfirst, hlast⟩ : 48 ≤ c.toNat ∧ c.toNat ≤ 57 := Char.isDigit_iff_toNat.mp hdigit
      rw [← Char.ofNat_toNat c]
      generalize c.toNat = n at hfirst hlast
      interval_cases n <;> rfl
  | str s => exact ⟨_, _, rfl, rfl⟩
  | arr items => exact ⟨_, _, canonicalJson_arr items, rfl⟩
  | obj members => exact ⟨_, _, canonicalJson_obj members, rfl⟩

theorem kind_eq {v w : JsValue} {r s : JsString} (h : canonicalJson v ++ r = canonicalJson w ++ s) :
    v.kind = w.kind := by
  obtain ⟨u, rest, htext, hkind⟩ := canonicalJson_begins v
  obtain ⟨u', rest', htext', hkind'⟩ := canonicalJson_begins w
  rw [htext, htext'] at h
  rw [← hkind, ← hkind', (List.cons.inj h).1]

/-- No text begins as the end of an array does. -/
theorem canonicalJson_ne_close (v : JsValue) (r s : JsString) :
    canonicalJson v ++ r ≠ unit ']' :: s := by
  obtain ⟨u, rest, htext, hkind⟩ := canonicalJson_begins v
  rw [htext]
  intro heq
  rw [(List.cons.inj heq).1, show kindOf (unit ']') = .other from rfl] at hkind
  cases v <;> cases hkind

theorem sameItems_iff {items items' : List JsValue} :
    SameItems items items' ↔ List.Forall₂ Same items items' := by
  induction items generalizing items' with
  | nil => cases items' <;> simp [SameItems]
  | cons item items ih => cases items' <;> simp [SameItems, ih]

theorem membersIn_iff {members members' : List (JsString × JsValue)} :
    MembersIn members members' ↔
      ∀ m ∈ members, ∃ value', (m.fst, value') ∈ members' ∧ Same m.snd value' := by
  induction members with
  | nil => simp [MembersIn]
  | cons m members ih => rw [MembersIn, ih, List.forall_mem_cons]

/-- What stands for an entry of a list in a list that agrees with it. -/
theorem exists_mem_of_forall₂ {α β : Type*} {R : α → β → Prop} {xs : List α} {ys : List β}
    (h : List.Forall₂ R xs ys) : ∀ x ∈ xs, ∃ y ∈ ys, R x y := by
  induction h with
  | nil => exact fun x hx => absurd hx List.not_mem_nil
  | cons hxy _ ih =>
    refine List.forall_mem_cons.mpr ⟨⟨_, List.mem_cons_self, hxy⟩, fun x hx => ?_⟩
    obtain ⟨y, hy, hxy⟩ := ih x hx
    exact ⟨y, List.mem_cons_of_mem _ hy, hxy⟩

/-- Objects whose members are the same in order are the same, however they are
listed. -/
theorem same_obj_of_sorted {members members' : List (JsString × JsValue)}
    (h : List.Forall₂ (fun m m' => m.fst = m'.fst ∧ Same m.snd m'.snd)
      (members.insertionSort memberLE) (members'.insertionSort memberLE)) :
    Same (.obj members) (.obj members') := by
  have hkeys : (members.insertionSort memberLE).map Prod.fst
      = (members'.insertionSort memberLE).map Prod.fst := by
    rw [← List.forall₂_eq_eq_eq, List.forall₂_map_left_iff, List.forall₂_map_right_iff]
    exact h.imp (fun _ _ hm => hm.1)
  refine ⟨fun key => ?_, membersIn_iff.mpr (fun m hm => ?_)⟩
  · rw [← ((List.perm_insertionSort memberLE members).map Prod.fst).mem_iff, hkeys,
      ((List.perm_insertionSort memberLE members').map Prod.fst).mem_iff]
  · obtain ⟨m', hm', hkey, hsame⟩ := exists_mem_of_forall₂ h m
      ((List.mem_insertionSort memberLE).mpr hm)
    exact ⟨m'.snd, hkey ▸ (List.mem_insertionSort memberLE).mp hm', hsame⟩

mutual

/-- **The text of a value ends by itself**: of a value whose text it begins, it is
the text of the same value. -/
theorem endsItself_value : ∀ v : JsValue, EndsItself Same Ends canonicalJson v
  | .null => by
    intro w r s _ _ heq
    cases w with
    | null => exact ⟨trivial, List.append_cancel_left heq⟩
    | _ => exact absurd (kind_eq heq) (by simp [JsValue.kind])
  | .bool b => by
    intro w r s _ _ heq
    cases w with
    | bool b' =>
      cases b <;> cases b'
      · exact ⟨rfl, List.append_cancel_left heq⟩
      · exact absurd (List.cons.inj heq).1 (by decide)
      · exact absurd (List.cons.inj heq).1 (by decide)
      · exact ⟨rfl, List.append_cancel_left heq⟩
    | _ => exact absurd (kind_eq heq) (by simp [JsValue.kind])
  | .num x => by
    intro w r s hr hs heq
    cases w with
    | num y => exact endsItself_number x y r s hr hs heq
    | _ => exact absurd (kind_eq heq) (by simp [JsValue.kind])
  | .str t => by
    intro w r s _ _ heq
    cases w with
    | str t' => exact endsItself_quote t t' r s trivial trivial heq
    | _ => exact absurd (kind_eq heq) (by simp [JsValue.kind])
  | .arr items => by
    intro w r s _ _ heq
    cases w with
    | arr items' =>
      rw [canonicalJson_arr, canonicalJson_arr] at heq
      obtain ⟨hall, hrest⟩ := endsItself_separated (by decide) (ends_cons (by decide))
        (ends_cons (by decide)) canonicalJson_ne_close (endsItself_items items) items' r s trivial
        trivial (List.cons.inj heq).2
      exact ⟨sameItems_iff.mpr hall, hrest⟩
    | _ => exact absurd (kind_eq heq) (by simp [JsValue.kind])
  | .obj members => by
    intro w r s _ _ heq
    cases w with
    | obj members' =>
      rw [canonicalJson_obj, canonicalJson_obj] at heq
      have hmembers : ∀ m ∈ members.insertionSort memberLE, EndsItself
          (fun m m' => m.fst = m'.fst ∧ Same m.snd m'.snd) Ends memberText m := by
        intro m hm
        exact EndsItself.pair (endsItself_quote m.fst)
          (endsItself_members members m ((List.mem_insertionSort memberLE).mp hm))
      obtain ⟨hall, hrest⟩ := endsItself_separated (by decide) (ends_cons (by decide))
        (ends_cons (by decide)) (fun m r s heq => absurd (List.cons.inj heq).1 (by decide))
        hmembers _ r s trivial trivial (List.cons.inj heq).2
      exact ⟨same_obj_of_sorted hall, hrest⟩
    | _ => exact absurd (kind_eq heq) (by simp [JsValue.kind])

theorem endsItself_items : ∀ items : List JsValue, ∀ v ∈ items,
    EndsItself Same Ends canonicalJson v
  | [] => by simp
  | item :: items => List.forall_mem_cons.mpr ⟨endsItself_value item, endsItself_items items⟩

theorem endsItself_members : ∀ members : List (JsString × JsValue), ∀ m ∈ members,
    EndsItself Same Ends canonicalJson m.snd
  | [] => by simp
  | (_, value) :: members =>
    List.forall_mem_cons.mpr ⟨endsItself_value value, endsItself_members members⟩

end

/-- **Values of one text are the same.** -/
theorem same_of_canonicalJson {v w : JsValue} (h : canonicalJson v = canonicalJson w) :
    Same v w := by
  have hnil : Ends [] := by
    rintro u ⟨⟩
  exact (endsItself_value v w [] [] hnil hnil (by rw [h])).1

/-! ## The same values have one text -/

theorem unitsLE_antisymm {as bs : List ℕ} (hab : unitsLE as bs = true)
    (hba : unitsLE bs as = true) : as = bs := by
  induction as generalizing bs with
  | nil =>
    cases bs with
    | nil => rfl
    | cons b bs => cases hba
  | cons a as ih =>
    cases bs with
    | nil => cases hab
    | cons b bs =>
      simp only [unitsLE] at hab hba
      split_ifs at hab hba with h1 h2 h3
      · rw [h1, ih hab hba]
      · exact absurd h1.symm h2
      · exact absurd h3.symm h1
      · rw [decide_eq_true_iff] at hab hba
        omega

instance {α : Type*} : Std.Total (@memberLE α) := ⟨fun _ _ => unitsLE_total _ _⟩

instance {α : Type*} : IsTrans (JsString × α) memberLE := ⟨fun _ _ _ => unitsLE_trans⟩

theorem fst_eq_of_memberLE {α : Type*} {a b : JsString × α} (hab : memberLE a b)
    (hba : memberLE b a) : a.fst = b.fst :=
  List.map_injective_iff.mpr (fun _ _ => UInt16.toNat_inj.mp)
    (unitsLE_antisymm hab hba)

/-- **Entries of distinct names are sorted to one list**, however they are listed. -/
theorem insertionSort_eq {α : Type*} {entries entries' : List (JsString × α)}
    (hnodup : (entries.map Prod.fst).Nodup) (hperm : entries.Perm entries') :
    entries.insertionSort memberLE = entries'.insertionSort memberLE := by
  refine List.Perm.eq_of_pairwise ?_ (List.pairwise_insertionSort memberLE _)
    (List.pairwise_insertionSort memberLE _)
    ((List.perm_insertionSort _ _).trans (hperm.trans (List.perm_insertionSort _ _).symm))
  intro a b ha hb hab hba
  exact List.inj_on_of_nodup_map hnodup ((List.mem_insertionSort memberLE).mp ha)
    (hperm.mem_iff.mpr ((List.mem_insertionSort memberLE).mp hb)) (fst_eq_of_memberLE hab hba)

theorem distinctItems_iff {items : List JsValue} :
    DistinctItems items ↔ ∀ item ∈ items, Distinct item := by
  induction items with
  | nil => simp [DistinctItems]
  | cons item items ih => rw [DistinctItems, ih, List.forall_mem_cons]

theorem distinctMembers_iff {members : List (JsString × JsValue)} :
    DistinctMembers members ↔ ∀ m ∈ members, Distinct m.snd := by
  induction members with
  | nil => simp [DistinctMembers]
  | cons m members ih => rw [DistinctMembers, ih, List.forall_mem_cons]

/-- Members that are the same have the same entries. -/
theorem canonicalMembers_perm {members members' : List (JsString × JsValue)}
    (hnodup : (members.map Prod.fst).Nodup) (hnodup' : (members'.map Prod.fst).Nodup)
    (hkeys : ∀ key, key ∈ members.map Prod.fst ↔ key ∈ members'.map Prod.fst)
    (hin : ∀ m ∈ members, ∃ value', (m.fst, value') ∈ members' ∧
      canonicalJson m.snd = canonicalJson value') :
    (canonicalMembers members).Perm (canonicalMembers members') := by
  have hdistinct : ∀ {ms : List (JsString × JsValue)}, (ms.map Prod.fst).Nodup →
      (canonicalMembers ms).Nodup := by
    intro ms hms
    refine List.Nodup.of_map Prod.fst ?_
    rw [canonicalMembers_eq, List.map_map]
    exact hms
  refine (List.perm_ext_iff_of_nodup (hdistinct hnodup) (hdistinct hnodup')).mpr ?_
  rintro ⟨key, text⟩
  rw [canonicalMembers_eq, canonicalMembers_eq, List.mem_map, List.mem_map]
  constructor
  · rintro ⟨m, hm, heq⟩
    obtain ⟨rfl, rfl⟩ := Prod.mk.inj heq
    obtain ⟨value', hmem, htext⟩ := hin m hm
    exact ⟨(m.fst, value'), hmem, by rw [htext]⟩
  · rintro ⟨m', hm', heq⟩
    obtain ⟨rfl, rfl⟩ := Prod.mk.inj heq
    obtain ⟨m, hm, hkey⟩ := List.mem_map.mp ((hkeys m'.fst).mpr (List.mem_map_of_mem hm'))
    obtain ⟨value', hmem, htext⟩ := hin m hm
    have hsame : (m.fst, value') = m' := List.inj_on_of_nodup_map hnodup' hmem hm' hkey
    refine ⟨m, hm, ?_⟩
    rw [htext, ← hsame]

mutual

/-- **The same values have one text.** -/
theorem canonicalJson_of_same : ∀ v w : JsValue, Distinct v → Distinct w → Same v w →
    canonicalJson v = canonicalJson w
  | .null, w, _, _, h => by
    cases w <;> first | rfl | exact h.elim
  | .bool b, w, _, _, h => by
    cases w with
    | bool b' => rw [show b = b' from h]
    | _ => exact h.elim
  | .num x, w, _, _, h => by
    cases w with
    | num y => rw [show x = y from h]
    | _ => exact h.elim
  | .str s, w, _, _, h => by
    cases w with
    | str t => rw [show s = t from h]
    | _ => exact h.elim
  | .arr items, w, hv, hw, h => by
    cases w with
    | arr items' => rw [canonicalJson, canonicalJson, canonicalItems_of_same items items' hv hw h]
    | _ => exact h.elim
  | .obj members, w, hv, hw, h => by
    cases w with
    | obj members' =>
      have hperm := canonicalMembers_perm hv.1 hw.1 h.1
        (canonicalMembers_of_same members members' hv.2 (distinctMembers_iff.mp hw.2) h.2)
      have hnodup : ((canonicalMembers members).map Prod.fst).Nodup := by
        rw [canonicalMembers_eq, List.map_map]
        exact hv.1
      rw [canonicalJson, canonicalJson, insertionSort_eq hnodup hperm]
    | _ => exact h.elim

theorem canonicalItems_of_same : ∀ items items' : List JsValue, DistinctItems items →
    DistinctItems items' → SameItems items items' → canonicalItems items = canonicalItems items'
  | [], items', _, _, h => by
    cases items' with
    | nil => rfl
    | cons _ _ => exact h.elim
  | item :: items, items', hv, hw, h => by
    cases items' with
    | nil => exact h.elim
    | cons item' items' =>
      rw [canonicalItems, canonicalItems, canonicalJson_of_same item item' hv.1 hw.1 h.1,
        canonicalItems_of_same items items' hv.2 hw.2 h.2]

theorem canonicalMembers_of_same : ∀ members members' : List (JsString × JsValue),
    DistinctMembers members → (∀ m ∈ members', Distinct m.snd) → MembersIn members members' →
      ∀ m ∈ members, ∃ value', (m.fst, value') ∈ members' ∧
        canonicalJson m.snd = canonicalJson value'
  | [], _, _, _, _ => by simp
  | (key, value) :: members, members', hv, hw, h => by
    obtain ⟨⟨value', hmem, hsame⟩, hrest⟩ := h
    refine List.forall_mem_cons.mpr ⟨⟨value', hmem, ?_⟩,
      canonicalMembers_of_same members members' hv.2 hw hrest⟩
    exact canonicalJson_of_same value value' hv.1 (hw _ hmem) hsame

end

/-- **The canonical text tells values apart, up to the order of members.** -/
theorem canonicalJson_eq_iff {v w : JsValue} (hv : Distinct v) (hw : Distinct w) :
    canonicalJson v = canonicalJson w ↔ Same v w :=
  ⟨same_of_canonicalJson, canonicalJson_of_same v w hv hw⟩

theorem rounded_one : rounded |(1 : ℚ)| = |(1 : ℚ)| := by
  rw [abs_one]
  refine rounded_eq_of_multiple (2 ^ 52) ?_
  rw [lastPlace, Int.log_one_right]
  norm_num

theorem one_lt_bound : |(1 : ℚ)| < 2 ^ 1024 := by
  rw [abs_one]
  exact one_lt_pow₀ one_lt_two (by decide)

/-- One. -/
def one : Double := ⟨1, rounded_one, one_lt_bound⟩

/-- A value, with its members in either order. -/
def sampleValue (swapped : Bool) : JsValue :=
  let first := (units "area", JsValue.num one)
  let second := (units "rooms", JsValue.arr [.bool true, .str [0xd800, 0x22], .null])
  .obj (if swapped then [second, first] else [first, second])

theorem distinct_sampleValue (swapped : Bool) : Distinct (sampleValue swapped) := by
  cases swapped
  · exact ⟨by decide, trivial, ⟨trivial, trivial, trivial, trivial⟩, trivial⟩
  · exact ⟨by decide, ⟨trivial, trivial, trivial, trivial⟩, trivial, trivial⟩

theorem canonicalJson_eq_iff_swapped :
    canonicalJson (sampleValue false) = canonicalJson (sampleValue true) ↔
      Same (sampleValue false) (sampleValue true) :=
  canonicalJson_eq_iff (distinct_sampleValue false) (distinct_sampleValue true)

end CanonicalText
