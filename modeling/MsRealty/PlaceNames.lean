import Mathlib.Data.List.GetD
import MsRealty.InquiryCheckCode
import MsRealty.Patterns

/-!
# Place names as the search for places spells them

A text is folded character by character, and the folded text is rewritten from Cyrillic and
Greek to a Latin skeleton, so that a name in one script is met by its spelling in another. Of
each character it is kept which part of the original text it came from (`View`).

The names of a registry become keys in the same way, and every key an alternative of a regular
expression: the words of the name, and behind them the endings of cases. The longest keys come
first, and the alternatives are shared out over expressions of 128 (`placeMatcher`).

What Unicode says of a character is given.
-/

namespace Intent

open CanonicalText Patterns InquiryCheckCode

/-! ## Views -/

/-- **What Unicode says of a code point**: its lower case, decomposed and without marks, and
whether it is a letter or a number. -/
structure Unicode where
  folded : JsString → JsString
  isLetter : JsString → Bool
  isNumber : JsString → Bool

/-- **A view of a text**, and the original start and end of what produced each character. -/
structure View where
  text : JsString
  start : List ℕ
  stop : List ℕ
  deriving DecidableEq

/-- Characters that are folded in a way of their own. -/
def foldSpecial : List (UInt16 × JsString) :=
  [(0x3c2, [0x3c3]), (0xdf, units "ss"), (0xb2, units "2"), (0xa0, units " "),
    (0x202f, units " "), (0x2009, units " "), (0x09, units " "), (0x0a, units " "),
    (0x0d, units " "), (0x2019, units "'"), (0x2018, units "'"), (0x5f3, units "'"),
    (0x5f4, units "\""), (0x201c, units "\""), (0x201d, units "\""), (0x201e, units "\""),
    (0x2013, units "-"), (0x2014, units "-"), (0x5be, units "-")]

/-- **`foldChar`.** -/
def foldChar (unicode : Unicode) : JsString → JsString
  | [u] => (foldSpecial.lookup u).getD (unicode.folded [u])
  | ch => unicode.folded ch

/-- Characters that are added to a view, from one part of the original text. -/
def View.add (added : JsString) (s e : ℕ) (view : View) : View :=
  { text := added ++ view.text
    start := List.replicate added.length s ++ view.start
    stop := List.replicate added.length e ++ view.stop }

/-- The view of the characters from an offset on. -/
def foldFrom (unicode : Unicode) : ℕ → List JsString → View
  | _, [] => { text := [], start := [], stop := [] }
  | offset, ch :: rest => (foldFrom unicode (offset + ch.length) rest).add (foldChar unicode ch)
      offset (offset + ch.length)

/-- **`foldView`.** -/
def foldView (unicode : Unicode) (text : JsString) : View :=
  foldFrom unicode 0 (codePoints text)

/-- The loop of `rewrite`. -/
def rewriteFrom (view : View) (step : JsString → ℕ → ℕ × JsString) : ℕ → ℕ → View
  | 0, _ => { text := [], start := [], stop := [] }
  | n + 1, i =>
    if i < view.text.length then
      let consumed := (step view.text i).1
      let s := view.start.getD i 0
      (rewriteFrom view step n (i + consumed)).add (step view.text i).2 s
        (view.stop.getD (i + consumed - 1) s)
    else { text := [], start := [], stop := [] }

/-- **`rewrite`**: a view is rewritten from left to right, with steps that say how many
characters they take and what these become. -/
def rewrite (view : View) (step : JsString → ℕ → ℕ × JsString) : View :=
  rewriteFrom view step view.text.length 0

/-! ## The skeleton of a name -/

/-- A table of letters and what they become. -/
def pairs (spec : List (Char × String)) : List (UInt16 × JsString) :=
  spec.map fun p => (unit p.1, units p.2)

/-- **`cyrillicLatin`.** -/
def cyrillicLatin : List (UInt16 × JsString) :=
  pairs [('а', "a"), ('б', "b"), ('в', "v"), ('г', "g"), ('д', "d"), ('е', "e"), ('ж', "zh"),
    ('з', "z"), ('и', "i"), ('к', "k"), ('л', "l"), ('м', "m"), ('н', "n"), ('о', "o"),
    ('п', "p"), ('р', "r"), ('с', "s"), ('т', "t"), ('у', "u"), ('ф', "f"), ('х', "h"),
    ('ц', "ts"), ('ч', "ch"), ('ш', "sh"), ('щ', "sht"), ('ъ', "a"), ('ь', ""), ('ю', "yu"),
    ('я', "ya"), ('ы', "y"), ('э', "e")]

/-- **`greekLatin`.** -/
def greekLatin : List (UInt16 × JsString) :=
  pairs [('α', "a"), ('β', "v"), ('γ', "g"), ('δ', "d"), ('ε', "e"), ('ζ', "z"), ('η', "i"),
    ('θ', "th"), ('ι', "i"), ('κ', "k"), ('λ', "l"), ('μ', "m"), ('ν', "n"), ('ξ', "x"),
    ('ο', "o"), ('π', "p"), ('ρ', "r"), ('σ', "s"), ('τ', "t"), ('υ', "i"), ('φ', "f"),
    ('χ', "h"), ('ψ', "ps"), ('ω', "o")]

/-- **`greekPairs`**: pairs of letters, what they become at the start of a word, and within. -/
def greekPairs : List (JsString × JsString × JsString) :=
  [(units "ου", units "u", units "u"), (units "μπ", units "b", units "mb"),
    (units "ντ", units "d", units "nd"), (units "γκ", units "g", units "ng"),
    (units "γγ", units "ng", units "ng"), (units "αι", units "e", units "e"),
    (units "ει", units "i", units "i"), (units "οι", units "i", units "i")]

/-- **`latinSkeleton`**: spellings of one sound. -/
def latinSkeleton : List (JsString × JsString) :=
  [(units "tsch", units "ch"), (units "dzh", units "j"), (units "tsj", units "ch"),
    (units "tch", units "ch"), (units "sch", units "sh"), (units "zh", units "j"),
    (units "dj", units "j"), (units "sj", units "sh"), (units "kh", units "h"),
    (units "ts", units "c"), (units "tz", units "c"), (units "ph", units "f"),
    (units "ck", units "k"), (units "y", units "i"), (units "w", units "v"),
    (units "q", units "k")]

/-- Whether the character before a place is a letter. -/
def letterBefore (unicode : Unicode) (text : JsString) : ℕ → Bool
  | 0 => false
  | i + 1 => unicode.isLetter ((text.drop i).take 1)

/-- Cyrillic and Greek to Latin. -/
def latinStep (unicode : Unicode) (text : JsString) (i : ℕ) : ℕ × JsString :=
  match greekPairs.find? fun p => p.1.isPrefixOf (text.drop i) with
  | some p => (2, if letterBefore unicode text i then p.2.2 else p.2.1)
  | none =>
    let ch := text.getD i 0
    (1, ((cyrillicLatin.lookup ch).or (greekLatin.lookup ch)).getD [ch])

/-- Latin to the skeleton. -/
def skeletonStep (text : JsString) (i : ℕ) : ℕ × JsString :=
  match latinSkeleton.find? fun p => p.1.isPrefixOf (text.drop i) with
  | some p => (p.1.length, p.2)
  | none => (1, [text.getD i 0])

/-- `/[a-z]/` -/
def isLatin (u : UInt16) : Bool := 0x61 ≤ u && u ≤ 0x7a

/-- Doubled Latin letters are one. -/
def collapseStep (text : JsString) (i : ℕ) : ℕ × JsString :=
  let ch := text.getD i 0
  (1 + ((text.drop (i + 1)).takeWhile fun u => isLatin ch && u == ch).length, [ch])

/-- **`placeView`.** -/
def placeView (unicode : Unicode) (view : View) : View :=
  rewrite (rewrite (rewrite view (latinStep unicode)) skeletonStep) collapseStep

/-- `[\s-]` -/
def isGap (u : UInt16) : Bool := isSpaceUnit u || u == unit '-'

/-- `replace(/[\s-]+/g, " ")`, where it is said whether a gap has begun. -/
def gapsAsSpaces : Bool → JsString → JsString
  | _, [] => []
  | begun, u :: rest =>
    if isGap u then
      if begun then gapsAsSpaces true rest else unit ' ' :: gapsAsSpaces true rest
    else u :: gapsAsSpaces false rest

/-- `name.trim()` -/
def trim (name : JsString) : JsString :=
  ((name.dropWhile isSpaceUnit).reverse.dropWhile isSpaceUnit).reverse

/-- **`placeKey`.** -/
def placeKey (unicode : Unicode) (name : JsString) : JsString :=
  gapsAsSpaces false (placeView unicode (foldView unicode (trim name))).text

/-! ## The expressions of a registry -/

/-- **A place** with its names. -/
structure InterpretPlace where
  id : JsString
  names : List JsString

/-- An entry of a map is written: where the key is, or at the end. -/
def setKey (key : JsString) (ids : List JsString) :
    List (JsString × List JsString) → List (JsString × List JsString)
  | [] => [(key, ids)]
  | entry :: rest => if entry.1 = key then (key, ids) :: rest else entry :: setKey key ids rest

/-- The turn of a name: keys of fewer than three characters, gaps apart, are left out. -/
def addName (unicode : Unicode) (id : JsString) (byKey : List (JsString × List JsString))
    (name : JsString) : List (JsString × List JsString) :=
  let key := placeKey unicode name
  if (key.filter fun u => !isGap u).length < 3 then byKey
  else
    let ids := (byKey.lookup key).getD []
    setKey key (if ids.contains id then ids else ids ++ [id]) byKey

/-- The places that each key stands for, in the order in which the keys came. -/
def byKey (unicode : Unicode) (places : List InterpretPlace) : List (JsString × List JsString) :=
  places.foldl (fun byKey place => place.names.foldl (addName unicode place.id) byKey) []

/-- **`caseEndings`.** -/
def caseEndings : List JsString :=
  [units "ami", units "ah", units "am", units "ov", units "om", units "em", units "oi",
    units "a", units "e", units "i", units "u"]

/-- **An ordered alternation.** -/
def oneOf : List (Pattern JsString) → Pattern JsString
  | [] => .one fun _ => false
  | r :: rest => .alt r (oneOf rest)

/-- A text as it is. -/
def literally (text : JsString) : Pattern JsString := Pattern.word (codePoints text)

/-- `[\s-]+` -/
def gaps : Pattern JsString :=
  Pattern.plus (.one fun ch => ch.all isGap)

/-- Words with gaps between them. -/
def spaced : List JsString → Pattern JsString
  | [] => .empty
  | [word] => literally word
  | word :: rest => .seq (literally word) (.seq gaps (spaced rest))

/-- A key as a part of an expression. -/
def keyPattern (key : JsString) : Pattern JsString := spaced (key.splitOn (unit ' '))

/-- **The alternative of a key**: the name, with an ending of a case or none; a final vowel may
be replaced. -/
def alternative (key : JsString) : Pattern JsString :=
  match key.getLast? with
  | some v =>
    if (units "aeiou").contains v then
      .seq (keyPattern key.dropLast) (oneOf (literally [v] :: caseEndings.map literally))
    else .seq (keyPattern key) (Pattern.opt (oneOf (caseEndings.map literally)))
  | none => .seq (keyPattern key) (Pattern.opt (oneOf (caseEndings.map literally)))

/-- **The alternatives of a registry**, the longest names first. -/
def alternatives (unicode : Unicode) (places : List InterpretPlace) : List (Pattern JsString) :=
  (((byKey unicode places).map Prod.fst).insertionSort fun a b => b.length ≤ a.length).map
    alternative

/-- **What is shared out in parts of 128.** -/
def batches {β : Type*} (alternatives : List β) : List (List β) :=
  (List.range ((alternatives.length + 127) / 128)).map fun i =>
    (alternatives.drop (i * 128)).take 128

/-! ## What the expressions are made of -/

/-- The parts make up the whole. -/
theorem flatten_chunks {β : Type*} (k : ℕ) : ∀ (n : ℕ) (l : List β), l.length ≤ n * k →
    ((List.range n).map fun i => (l.drop (i * k)).take k).flatten = l := by
  intro n
  induction n with
  | zero =>
    intro l hl
    have hempty : l = [] := List.eq_nil_of_length_eq_zero (by omega)
    rw [hempty]
    rfl
  | succ n ih =>
    intro l hl
    have hrest : (l.drop k).length ≤ n * k := by
      rw [List.length_drop]
      rw [Nat.succ_mul] at hl
      omega
    rw [List.range_succ_eq_map, List.map_cons, List.map_map, List.flatten_cons]
    have hparts : ((List.range n).map ((fun i => (l.drop (i * k)).take k) ∘ Nat.succ))
        = (List.range n).map fun i => ((l.drop k).drop (i * k)).take k := by
      refine List.map_congr_left fun i _ => ?_
      rw [List.drop_drop, Function.comp_apply, Nat.succ_mul, Nat.add_comm]
    rw [hparts, ih _ hrest, Nat.zero_mul, List.drop_zero, List.take_append_drop]

/-- **The expressions share out all alternatives**, in their order. -/
@[simp] theorem flatten_batches {β : Type*} (names : List β) : (batches names).flatten = names :=
  flatten_chunks 128 _ names (by omega)

theorem mem_setKey {key : JsString} {ids : List JsString}
    {entries : List (JsString × List JsString)} {entry : JsString × List JsString}
    (h : entry ∈ setKey key ids entries) : entry ∈ entries ∨ entry.1 = key := by
  induction entries with
  | nil => exact Or.inr (congrArg Prod.fst (List.mem_singleton.mp h))
  | cons first rest ih =>
    rw [setKey] at h
    split_ifs at h with hkey
    · obtain rfl | h := List.mem_cons.mp h
      · exact Or.inr rfl
      · exact Or.inl (List.mem_cons_of_mem _ h)
    · obtain rfl | h := List.mem_cons.mp h
      · exact Or.inl List.mem_cons_self
      · exact (ih h).imp_left (List.mem_cons_of_mem _)

/-- A name that is added is of three characters at least. -/
theorem mem_addName {unicode : Unicode} {id name : JsString}
    {entries : List (JsString × List JsString)} {entry : JsString × List JsString}
    (h : entry ∈ addName unicode id entries name) : entry ∈ entries ∨ 3 ≤ entry.1.length := by
  rw [addName] at h
  split_ifs at h with hshort
  · exact Or.inl h
  · refine (mem_setKey h).imp_right fun hkey => ?_
    rw [hkey]
    exact (not_lt.mp hshort).trans (List.length_filter_le _ _)

/-- Keys of three characters at least. -/
def LongKeys (entries : List (JsString × List JsString)) : Prop :=
  ∀ entry ∈ entries, 3 ≤ entry.1.length

theorem LongKeys.addName {unicode : Unicode} {id name : JsString}
    {entries : List (JsString × List JsString)} (h : LongKeys entries) :
    LongKeys (addName unicode id entries name) :=
  fun entry hentry => (mem_addName hentry).elim (h entry) fun hlength => hlength

/-- **Every key is of three characters at least.** -/
theorem longKeys_byKey (unicode : Unicode) (places : List InterpretPlace) :
    LongKeys (byKey unicode places) := by
  have hempty : LongKeys [] := fun entry hentry => absurd hentry List.not_mem_nil
  exact List.foldlRecOn (motive := LongKeys) places _ hempty fun entries hentries place _ =>
    List.foldlRecOn (motive := LongKeys) place.names _ hentries fun entries hentries name _ =>
      hentries.addName

theorem takesSome_literally {text : JsString} (h : text ≠ []) :
    (literally text).takesSome = true := by
  rw [literally]
  cases hpoints : codePoints text with
  | nil => exact absurd (by rw [← flatten_codePoints text, hpoints]; rfl) h
  | cons point points => rfl

/-- A key that is not empty matches something. -/
theorem takesSome_keyPattern {key : JsString} (h : key ≠ []) :
    (keyPattern key).takesSome = true := by
  rw [keyPattern]
  have hwords : [unit ' '].intercalate (key.splitOn (unit ' ')) = key :=
    List.intercalate_splitOn _
  match hparts : key.splitOn (unit ' ') with
  | [] =>
    rw [hparts] at hwords
    exact absurd hwords.symm h
  | [word] =>
    rw [hparts, List.intercalate_singleton] at hwords
    rw [spaced, hwords]
    exact takesSome_literally h
  | word :: next :: rest =>
    -- The gap between two words takes something.
    rw [spaced]
    show ((literally word).takesSome || (gaps.takesSome || _)) = true
    rw [show gaps.takesSome = true from rfl, Bool.true_or, Bool.or_true]
    exact List.cons_ne_nil _ _

/-- **Every alternative matches something.** -/
theorem takesSome_of_mem {unicode : Unicode} {places : List InterpretPlace}
    {name : Pattern JsString} (h : name ∈ alternatives unicode places) :
    name.takesSome = true := by
  obtain ⟨key, hkey, rfl⟩ := List.mem_map.mp h
  rw [List.mem_insertionSort] at hkey
  obtain ⟨entry, hentry, rfl⟩ := List.mem_map.mp hkey
  have hlength := longKeys_byKey unicode places entry hentry
  have hne : entry.1 ≠ [] := List.ne_nil_of_length_pos (by omega)
  have hlast : entry.1.dropLast ≠ [] := by
    refine List.ne_nil_of_length_pos ?_
    rw [List.length_dropLast]
    omega
  rw [alternative]
  split
  · split_ifs
    · exact Bool.or_eq_true _ _ |>.mpr (Or.inl (takesSome_keyPattern hlast))
    · exact Bool.or_eq_true _ _ |>.mpr (Or.inl (takesSome_keyPattern hne))
  · exact Bool.or_eq_true _ _ |>.mpr (Or.inl (takesSome_keyPattern hne))

/-! ## Names in other scripts -/

/-- **A character that stays as it is**: it is not folded, has no Latin spelling and is neither
Latin nor a gap. -/
def staysItself (unicode : Unicode) (u : UInt16) : Bool :=
  (foldSpecial.lookup u).isNone && unicode.folded [u] == [u] && !isHighSurrogate u
    && (cyrillicLatin.lookup u).isNone && (greekLatin.lookup u).isNone
    && greekPairs.all (fun p => p.1.head? != some u)
    && latinSkeleton.all (fun p => p.1.head? != some u) && !isLatin u && !isGap u

/-- Of such a character is known all that is asked. -/
theorem staysItself_iff {unicode : Unicode} {u : UInt16} : staysItself unicode u = true
    ↔ foldSpecial.lookup u = none ∧ unicode.folded [u] = [u] ∧ isHighSurrogate u = false
      ∧ cyrillicLatin.lookup u = none ∧ greekLatin.lookup u = none
      ∧ (∀ p ∈ greekPairs, p.1.head? ≠ some u) ∧ (∀ p ∈ latinSkeleton, p.1.head? ≠ some u)
      ∧ isLatin u = false ∧ isGap u = false := by
  simp only [staysItself, Bool.and_eq_true, Option.isNone_iff_eq_none, beq_iff_eq,
    Bool.not_eq_true', List.all_eq_true, bne_iff_ne, and_assoc]

/-- Steps that keep each character keep the text. -/
theorem text_rewriteFrom {view : View} {step : JsString → ℕ → ℕ × JsString}
    (hstep : ∀ i (h : i < view.text.length), step view.text i = (1, [view.text[i]])) {n i : ℕ}
    (hn : view.text.length ≤ n + i) : (rewriteFrom view step n i).text = view.text.drop i := by
  induction n generalizing i with
  | zero => exact (List.drop_of_length_le (by omega)).symm
  | succ n ih =>
    rw [rewriteFrom]
    split_ifs with hi
    · show (step view.text i).2 ++ (rewriteFrom view step n _).text = _
      rw [hstep i hi, ih (by omega), List.drop_eq_getElem_cons hi]
      rfl
    · exact (List.drop_of_length_le (not_lt.mp hi)).symm

theorem text_rewrite {view : View} {step : JsString → ℕ → ℕ × JsString}
    (hstep : ∀ i (h : i < view.text.length), step view.text i = (1, [view.text[i]])) :
    (rewrite view step).text = view.text :=
  text_rewriteFrom hstep (Nat.le_add_right _ _)

/-- No entry of a table of beginnings fits where none begins with the character. -/
theorem find?_eq_none_of_head {β : Type*} {table : List (JsString × β)} {text : JsString} {i : ℕ}
    (hi : i < text.length) (hne : ∀ p ∈ table, p.1 ≠ [])
    (h : ∀ p ∈ table, p.1.head? ≠ some text[i]) :
    table.find? (fun p => p.1.isPrefixOf (text.drop i)) = none := by
  refine List.find?_eq_none.mpr fun p hp hpart => ?_
  obtain ⟨rest, hrest⟩ := List.isPrefixOf_iff_prefix.mp hpart
  obtain ⟨c, cs, hcons⟩ := List.exists_cons_of_ne_nil (hne p hp)
  rw [hcons, List.drop_eq_getElem_cons hi] at hrest
  refine h p hp ?_
  rw [hcons, ← (List.cons.inj hrest).1]
  rfl

theorem latinStep_eq {unicode : Unicode} {text : JsString} {i : ℕ} (hi : i < text.length)
    (h : staysItself unicode text[i] = true) : latinStep unicode text i = (1, [text[i]]) := by
  obtain ⟨-, -, -, hcyrillic, hgreek, hpairs, -⟩ := staysItself_iff.mp h
  rw [latinStep, find?_eq_none_of_head hi (by decide) hpairs, List.getD_eq_getElem _ _ hi]
  show (1, ((cyrillicLatin.lookup text[i]).or (greekLatin.lookup text[i])).getD [text[i]]) = _
  rw [hcyrillic, hgreek]
  rfl

theorem skeletonStep_eq {unicode : Unicode} {text : JsString} {i : ℕ} (hi : i < text.length)
    (h : staysItself unicode text[i] = true) : skeletonStep text i = (1, [text[i]]) := by
  obtain ⟨-, -, -, -, -, -, hskeleton, -⟩ := staysItself_iff.mp h
  rw [skeletonStep, find?_eq_none_of_head hi (by decide) hskeleton, List.getD_eq_getElem _ _ hi]

theorem collapseStep_eq {unicode : Unicode} {text : JsString} {i : ℕ} (hi : i < text.length)
    (h : staysItself unicode text[i] = true) : collapseStep text i = (1, [text[i]]) := by
  obtain ⟨-, -, -, -, -, -, -, hlatin, -⟩ := staysItself_iff.mp h
  have hnone : ∀ l : JsString, l.takeWhile (fun u => false && u == text[i]) = [] := by
    intro l
    cases l <;> rfl
  rw [collapseStep, List.getD_eq_getElem _ _ hi, hlatin, hnone]
  rfl

/-- **Where each character stays as it is, the view of places is the text.** -/
theorem text_placeView {unicode : Unicode} {view : View}
    (h : ∀ u ∈ view.text, staysItself unicode u = true) :
    (placeView unicode view).text = view.text := by
  have hkept : ∀ {earlier : View} {step : JsString → ℕ → ℕ × JsString},
      earlier.text = view.text → (∀ (i : ℕ) (hi : i < earlier.text.length),
        staysItself unicode earlier.text[i] = true → step earlier.text i = (1, [earlier.text[i]])) →
      (rewrite earlier step).text = view.text := by
    intro earlier step htext hstep
    refine (text_rewrite fun i hi => hstep i hi (h _ ?_)).trans htext
    rw [← htext]
    exact List.getElem_mem hi
  exact hkept (hkept (hkept rfl fun i hi => latinStep_eq hi) fun i hi => skeletonStep_eq hi)
    fun i hi => collapseStep_eq hi

/-- **A name of such characters is its own key.** -/
theorem placeKey_eq {unicode : Unicode} {name : JsString}
    (h : ∀ u ∈ name, staysItself unicode u = true) : placeKey unicode name = name := by
  have hgap : ∀ u ∈ name, isGap u = false := fun u hu =>
    (staysItself_iff.mp (h u hu)).2.2.2.2.2.2.2.2
  have hdrop : ∀ {l : JsString}, (∀ u ∈ l, u ∈ name) → l.dropWhile isSpaceUnit = l := by
    intro l hl
    cases l with
    | nil => rfl
    | cons u l =>
      refine List.dropWhile_cons_of_neg ?_
      have hnot := hgap u (hl u List.mem_cons_self)
      rw [isGap, Bool.or_eq_false_iff] at hnot
      rw [hnot.1]
      exact Bool.false_ne_true
  have htrim : trim name = name := by
    rw [trim, hdrop fun u hu => hu, hdrop fun u hu => List.mem_reverse.mp hu, List.reverse_reverse]
  have hfold : ∀ (offset : ℕ) {l : JsString}, (∀ u ∈ l, u ∈ name) →
      (foldFrom unicode offset (l.map ([·]))).text = l := by
    intro offset l
    induction l generalizing offset with
    | nil => exact fun _ => rfl
    | cons u l ih =>
      intro hl
      obtain ⟨hspecial, hfolded, -⟩ := staysItself_iff.mp (h u (hl u List.mem_cons_self))
      show foldChar unicode [u] ++ (foldFrom unicode (offset + 1) (l.map ([·]))).text = u :: l
      rw [ih _ fun v hv => hl v (List.mem_cons_of_mem _ hv), foldChar, hspecial]
      show unicode.folded [u] ++ l = u :: l
      rw [hfolded]
      rfl
  have hview : (foldView unicode name).text = name := by
    rw [foldView, codePoints_of_not_high fun u hu => (staysItself_iff.mp (h u hu)).2.2.1]
    exact hfold 0 fun u hu => hu
  have hgaps : ∀ {l : JsString} (begun : Bool), (∀ u ∈ l, u ∈ name) →
      gapsAsSpaces begun l = l := by
    intro l
    induction l with
    | nil => exact fun _ _ => rfl
    | cons u l ih =>
      intro begun hl
      rw [gapsAsSpaces, if_neg, ih false fun v hv => hl v (List.mem_cons_of_mem _ hv)]
      rw [hgap u (hl u List.mem_cons_self)]
      exact Bool.false_ne_true
  rw [placeKey, htrim, text_placeView fun u hu => h u (hview ▸ hu), hview]
  exact hgaps false fun u hu => hu

/-- A key that is new goes to the end. -/
theorem setKey_of_new {key : JsString} {ids : List JsString}
    {entries : List (JsString × List JsString)} (h : key ∉ entries.map Prod.fst) :
    setKey key ids entries = entries ++ [(key, ids)] := by
  induction entries with
  | nil => rfl
  | cons entry entries ih =>
    rw [List.map_cons, List.mem_cons, not_or] at h
    rw [setKey, if_neg (Ne.symm h.1), ih h.2]
    rfl

/-- **The keys of different names in such characters** are the names. -/
theorem map_fst_byKey {unicode : Unicode} {id : JsString} {names : List JsString}
    (hstays : ∀ name ∈ names, ∀ u ∈ name, staysItself unicode u = true)
    (hlong : ∀ name ∈ names, 3 ≤ name.length) (hdistinct : names.Nodup) :
    (byKey unicode [{ id := id, names := names }]).map Prod.fst = names := by
  have hgeneral : ∀ (names : List JsString) (entries : List (JsString × List JsString)),
      (∀ name ∈ names, ∀ u ∈ name, staysItself unicode u = true) →
      (∀ name ∈ names, 3 ≤ name.length) → (entries.map Prod.fst ++ names).Nodup →
      (names.foldl (addName unicode id) entries).map Prod.fst
        = entries.map Prod.fst ++ names := by
    intro names
    induction names with
    | nil => exact fun entries _ _ _ => (List.append_nil _).symm
    | cons name names ih =>
      intro entries hstays hlong hdistinct
      have hname := hstays name List.mem_cons_self
      have hfilter : name.filter (fun u => !isGap u) = name := by
        refine List.filter_eq_self.mpr fun u hu => ?_
        rw [(staysItself_iff.mp (hname u hu)).2.2.2.2.2.2.2.2]
        rfl
      have hnew : name ∉ entries.map Prod.fst := fun hmem =>
        (List.disjoint_of_nodup_append hdistinct) hmem List.mem_cons_self
      have hadd : (addName unicode id entries name).map Prod.fst
          = entries.map Prod.fst ++ [name] := by
        rw [addName, placeKey_eq hname, hfilter, if_neg (not_lt.mpr (hlong name List.mem_cons_self)),
          setKey_of_new hnew, List.map_append]
        rfl
      rw [List.foldl_cons, ih _ (fun n hn => hstays n (List.mem_cons_of_mem _ hn))
        (fun n hn => hlong n (List.mem_cons_of_mem _ hn)), hadd, List.append_assoc]
      · rfl
      · rw [hadd, List.append_assoc]
        exact hdistinct
  exact hgeneral names [] hstays hlong hdistinct

end Intent
