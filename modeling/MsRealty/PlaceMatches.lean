import MsRealty.LeftmostSearch
import MsRealty.PlaceNames

/-!
# The search for places

A folded text is searched with every expression of a registry, and of what they find the
leftmost is taken, from an earlier expression where two find something at one place
(`placeMatches`). It is to be one search with all alternatives in their order
(`oneAlternation`).

The two differ where an earlier expression matches from the same place behind a shorter
prefix: an expression tries the longest Hebrew prefix with all its names first, so that a
longer prefix comes before an earlier name. They are the same if and only if that does not
happen at any match (`placeMatches_eq_iff`), and so for every registry of one expression.

Places of a text are counted in code points, as the expressions read it, and reported in code
units.
-/

namespace Intent

open CanonicalText Patterns LeftmostSearch

/-! ## One expression -/

/-- A letter or a number. -/
def isWordPoint (unicode : Unicode) (ch : JsString) : Bool :=
  unicode.isLetter ch || unicode.isNumber ch

/-- **`B`**: no word goes on from before. -/
def wordStarts (unicode : Unicode) (before : List JsString) : Bool :=
  before.head?.all fun ch => !isWordPoint unicode ch

/-- **`E`**: no word goes on behind. -/
def wordEnds (unicode : Unicode) (after : List JsString) : Bool :=
  after.head?.all fun ch => !isWordPoint unicode ch

/-- A letter that is prefixed to Hebrew words. -/
def isPrefixLetter (ch : JsString) : Bool := (units "ובלהמשכ").any fun u => ch == [u]

/-- **`hebrewPrefix`**: up to two letters, as many as possible first. -/
def hebrewPrefix : Pattern JsString :=
  Pattern.opt (.seq (.one isPrefixLetter) (Pattern.opt (.one isPrefixLetter)))

/-- The names that match behind a prefix. -/
def nameWays (unicode : Unicode) (names : List (Pattern JsString)) (before : List JsString)
    (lead : List JsString × List JsString) : List (List JsString) :=
  ((Pattern.seq (oneOf names) (.check fun _ after => wordEnds unicode after)).ways
    (lead.1.reverse ++ before) lead.2).map Prod.fst

/-- **The ways of an expression** at a place: what the prefix takes, and the name. -/
def placeWays (unicode : Unicode) (names : List (Pattern JsString))
    (before after : List JsString) : List (List JsString × List JsString) :=
  if wordStarts unicode before then
    choices (hebrewPrefix.ways before after) Prod.fst (nameWays unicode names before)
  else []

/-- What an expression finds at a place of a text. -/
def findPlace (unicode : Unicode) (names : List (Pattern JsString)) (points : List JsString)
    (place : ℕ) : Option (List JsString × List JsString) :=
  (placeWays unicode names (points.take place).reverse (points.drop place)).head?

/-- How many code points a match takes. -/
def size (found : List JsString × List JsString) : ℕ := found.1.length + found.2.length

/-! ## The search of the source, and the one search -/

/-- **A match that is found**: where it starts and ends in the view, its name, and its span in
the original text. -/
structure PlaceMatch where
  start : ℕ
  stop : ℕ
  name : JsString
  span : ℕ × ℕ
  deriving DecidableEq

/-- **`toOriginal`.** -/
def toOriginal (view : View) (start stop : ℕ) : ℕ × ℕ :=
  (view.start.getD start 0, view.stop.getD (stop - 1) 0)

/-- A match as it is reported, in code units. -/
def report (view : View) (m : ℕ × (List JsString × List JsString)) : PlaceMatch :=
  let start := ((codePoints view.text).take m.1).flatten.length
  let stop := start + max 1 (m.2.1 ++ m.2.2).flatten.length
  { start := start, stop := stop, name := m.2.2.flatten, span := toOriginal view start stop }

/-- The loop of `placeMatches`: the nearest match of all expressions, and on from its end. -/
def placeMatchesFrom (patterns : List (ℕ → Option (List JsString × List JsString)))
    (length : ℕ) : ℕ → ℕ → List (ℕ × (List JsString × List JsString))
  | 0, _ => []
  | n + 1, cursor =>
    if cursor < length then
      match nearest patterns (length + 1 - cursor) cursor with
      | none => []
      | some m => m :: placeMatchesFrom patterns length n (m.1 + max 1 (size m.2))
    else []

/-- **`placeMatches`**, before the spans that are taken are left out. -/
def placeMatches (unicode : Unicode) (places : List InterpretPlace) (view : View) :
    List PlaceMatch :=
  let points := codePoints view.text
  (placeMatchesFrom ((batches (alternatives unicode places)).map fun names =>
    findPlace unicode names points) points.length points.length 0).map (report view)

/-- The matches of one expression with all alternatives in their order. -/
def alternationMatches (unicode : Unicode) (places : List InterpretPlace) (view : View) :
    List (ℕ × (List JsString × List JsString)) :=
  let points := codePoints view.text
  allMatches (findPlace unicode (alternatives unicode places) points) size points.length

/-- **One ordered global alternation.** -/
def oneAlternation (unicode : Unicode) (places : List InterpretPlace) (view : View) :
    List PlaceMatch :=
  (alternationMatches unicode places view).map (report view)

/-! ## One expression and its parts -/

/-- The ways of an ordered alternation. -/
theorem ways_oneOf (names : List (Pattern JsString)) (before after : List JsString) :
    (oneOf names).ways before after = names.flatMap fun name => name.ways before after := by
  induction names with
  | nil => cases after <;> rfl
  | cons name names ih => rw [oneOf, Pattern.ways, ih, List.flatMap_cons]

/-- More names are tried behind a prefix when all of the others are. -/
theorem nameWays_append (unicode : Unicode) (names more : List (Pattern JsString))
    (before : List JsString) (lead : List JsString × List JsString) :
    nameWays unicode (names ++ more) before lead
      = nameWays unicode names before lead ++ nameWays unicode more before lead := by
  simp only [nameWays, Pattern.ways, ways_oneOf, List.flatMap_append, andThen, List.map_append]

theorem ways_hebrewPrefix (before after : List JsString) :
    hebrewPrefix.ways before after
      = ((Pattern.seq (.one isPrefixLetter) (Pattern.opt (.one isPrefixLetter))).ways before after)
        ++ [([], after)] := rfl

/-- The prefixes that are tried are different ones. -/
theorem nodup_prefixes (before after : List JsString) :
    ((hebrewPrefix.ways before after).map Prod.fst).Nodup := by
  match after with
  | [] => simp [ways_hebrewPrefix, Pattern.ways, andThen]
  | [c] =>
    cases hc : isPrefixLetter c with
    | false => simp [ways_hebrewPrefix, Pattern.opt, Pattern.ways, andThen, hc]
    | true => simp [ways_hebrewPrefix, Pattern.opt, Pattern.ways, andThen, hc]
  | c :: d :: rest =>
    cases hc : isPrefixLetter c with
    | false => simp [ways_hebrewPrefix, Pattern.opt, Pattern.ways, andThen, hc]
    | true =>
      cases hd : isPrefixLetter d with
      | false => simp [ways_hebrewPrefix, Pattern.opt, Pattern.ways, andThen, hc, hd]
      | true => simp [ways_hebrewPrefix, Pattern.opt, Pattern.ways, andThen, hc, hd]

/-- A way takes a part of the text. -/
theorem isPrefix_of_mem_placeWays {unicode : Unicode} {names : List (Pattern JsString)}
    {before after : List JsString} {way : List JsString × List JsString}
    (h : way ∈ placeWays unicode names before after) : way.1 ++ way.2 <+: after := by
  rw [placeWays] at h
  split_ifs at h with hstarts
  · obtain ⟨lead, hlead, hname⟩ := List.mem_flatMap.mp h
    obtain ⟨taken, htaken, rfl⟩ := List.mem_map.mp hname
    obtain ⟨m, hm, rfl⟩ := List.mem_map.mp htaken
    rw [← append_of_mem_ways hlead, ← append_of_mem_ways hm]
    exact ⟨m.2, List.append_assoc _ _ _⟩
  · exact absurd h List.not_mem_nil

/-- Names that take something take it behind the prefix. -/
theorem ne_nil_of_mem_placeWays {unicode : Unicode} {names : List (Pattern JsString)}
    (hnames : ∀ name ∈ names, name.takesSome = true) {before after : List JsString}
    {way : List JsString × List JsString} (h : way ∈ placeWays unicode names before after) :
    way.2 ≠ [] := by
  rw [placeWays] at h
  split_ifs at h with hstarts
  · obtain ⟨lead, -, hname⟩ := List.mem_flatMap.mp h
    obtain ⟨taken, htaken, rfl⟩ := List.mem_map.mp hname
    obtain ⟨m, hm, rfl⟩ := List.mem_map.mp htaken
    have hsome : (oneOf names).takesSome = true := by
      clear h hname htaken hm
      induction names with
      | nil => rfl
      | cons name names ih =>
        rw [oneOf, Pattern.takesSome, hnames name List.mem_cons_self,
          ih fun name hname => hnames name (List.mem_cons_of_mem _ hname)]
        rfl
    have hboth : (Pattern.seq (oneOf names)
        (.check fun _ after => wordEnds unicode after)).takesSome = true := by
      rw [Pattern.takesSome, hsome, Bool.true_or]
    exact ne_nil_of_takesSome hboth hm
  · exact absurd h List.not_mem_nil

theorem placeWays_nil (unicode : Unicode) (before after : List JsString) :
    placeWays unicode [] before after = [] := by
  have hnone : ∀ lead, nameWays unicode [] before lead = [] := by
    intro lead
    simp only [nameWays, Pattern.ways, ways_oneOf, List.flatMap_nil, andThen, List.map_nil]
  rw [placeWays]
  split_ifs
  · exact List.flatMap_eq_nil_iff.mpr fun lead _ => by rw [hnone, List.map_nil]
  · rfl

/-- Names that do not match leave the choice to the others. -/
theorem placeWays_append {unicode : Unicode} {names : List (Pattern JsString)}
    {before after : List JsString} (h : placeWays unicode names before after = [])
    (more : List (Pattern JsString)) :
    placeWays unicode (names ++ more) before after = placeWays unicode more before after := by
  rw [placeWays] at h
  rw [placeWays, placeWays]
  split_ifs at h ⊢ with hstarts
  · refine List.flatMap_congr fun lead hlead => ?_
    have hnone := List.map_eq_nil_iff.mp (List.flatMap_eq_nil_iff.mp h lead hlead)
    rw [nameWays_append, hnone, List.nil_append]
  · rfl

/-- The first part of the names that matches at a place. -/
def firstPart (unicode : Unicode) (parts : List (List (Pattern JsString)))
    (before after : List JsString) : Option (List (Pattern JsString)) :=
  parts.find? fun names => !(placeWays unicode names before after).isEmpty

/-- What the first part finds that finds anything. -/
def partWays (unicode : Unicode) (parts : List (List (Pattern JsString)))
    (before after : List JsString) : Option (List JsString × List JsString) :=
  parts.findSome? fun names => (placeWays unicode names before after).head?

/-- One part after another is found wherever one expression finds something. -/
theorem isSome_partWays (unicode : Unicode) (parts : List (List (Pattern JsString)))
    (before after : List JsString) : (partWays unicode parts before after).isSome
      = (placeWays unicode parts.flatten before after).head?.isSome := by
  induction parts with
  | nil => rw [List.flatten_nil, placeWays_nil]; rfl
  | cons names rest ih =>
    rw [partWays, List.findSome?_cons, List.flatten_cons]
    cases hways : placeWays unicode names before after with
    | nil => rw [placeWays_append hways]; exact ih
    | cons way ways =>
      -- What matches here matches among more names.
      have hmem : way ∈ placeWays unicode (names ++ rest.flatten) before after := by
        have hway : way ∈ placeWays unicode names before after := by simp [hways]
        rw [placeWays] at hway ⊢
        split_ifs at hway ⊢ with hstarts
        · obtain ⟨lead, hlead, hname⟩ := List.mem_flatMap.mp hway
          obtain ⟨taken, htaken, rfl⟩ := List.mem_map.mp hname
          refine List.mem_flatMap.mpr ⟨lead, hlead, List.mem_map_of_mem ?_⟩
          rw [nameWays_append]
          exact List.mem_append_left _ htaken
        · exact hway
      cases hall : placeWays unicode (names ++ rest.flatten) before after with
      | nil => exact absurd (hall ▸ hmem) List.not_mem_nil
      | cons => rfl

/-- **Part after part finds what one expression finds**, if and only if the first part that
matches has a match behind the same prefix. -/
theorem partWays_eq_iff (unicode : Unicode) (parts : List (List (Pattern JsString)))
    (before after : List JsString) : partWays unicode parts before after
      = (placeWays unicode parts.flatten before after).head?
      ↔ ∀ way ∈ (placeWays unicode parts.flatten before after).head?,
        ∀ names ∈ firstPart unicode parts before after,
          ∃ other ∈ placeWays unicode names before after, other.1 = way.1 := by
  induction parts with
  | nil =>
    rw [List.flatten_nil, placeWays_nil]
    exact ⟨fun _ way hway => (nomatch hway), fun _ => rfl⟩
  | cons names rest ih =>
    rw [partWays, List.findSome?_cons, List.flatten_cons, firstPart, List.find?_cons]
    cases hways : placeWays unicode names before after with
    | nil => rw [placeWays_append hways]; exact ih
    | cons way ways =>
      have hstarts : wordStarts unicode before = true := by
        by_contra hstarts
        rw [placeWays, if_neg hstarts] at hways
        cases hways
      have hne : choices (hebrewPrefix.ways before after) Prod.fst (nameWays unicode names before)
          ≠ [] := by
        rw [placeWays, if_pos hstarts] at hways
        simp [hways]
      have hiff : (choices (hebrewPrefix.ways before after) Prod.fst
          (nameWays unicode names before)).head? = (choices (hebrewPrefix.ways before after)
            Prod.fst fun lead => nameWays unicode names before lead
              ++ nameWays unicode rest.flatten before lead).head? ↔ _ :=
        head?_choices_iff (nodup_prefixes before after) hne
      simp only [← nameWays_append] at hiff
      have hall : ∀ names, choices (hebrewPrefix.ways before after) Prod.fst
          (nameWays unicode names before) = placeWays unicode names before after :=
        fun names => (if_pos hstarts).symm
      rw [hall, hall, hways] at hiff
      refine hiff.trans (forall₂_congr fun c hc => ?_)
      constructor
      · rintro hother names' hnames'
        obtain rfl := Option.some.inj hnames'
        rw [hways]
        exact hother
      · intro hother
        have hthis := hother names rfl
        rwa [hways] at hthis

/-! ## The whole search -/

/-- The loop of the source repeats the nearest search, where nothing is found at the end. -/
theorem placeMatchesFrom_eq {patterns : List (ℕ → Option (List JsString × List JsString))}
    {length : ℕ} (hend : nearest patterns 1 length = none) {n cursor : ℕ}
    (hn : length ≤ n + cursor) : placeMatchesFrom patterns length n cursor
      = matchesFrom (nearest patterns) size length (n + 1) cursor := by
  have hbehind : ∀ {cursor : ℕ}, ¬ cursor < length →
      nearest patterns (length + 1 - cursor) cursor = none := by
    intro cursor hcursor
    obtain rfl | hlt := (not_lt.mp hcursor).eq_or_lt
    · rwa [Nat.add_sub_cancel_left]
    · rw [Nat.sub_eq_zero_of_le (by omega), nearest_eq]
      rfl
  induction n generalizing cursor with
  | zero =>
    rw [matchesFrom, hbehind (by omega)]
    rfl
  | succ n ih =>
    rw [placeMatchesFrom, matchesFrom]
    split_ifs with hcursor
    · cases hnear : nearest patterns (length + 1 - cursor) cursor with
      | none => rfl
      | some m =>
        have hle : cursor ≤ m.1 := by
          rw [nearest_eq] at hnear
          exact (exec_eq_some hnear).1
        show m :: _ = m :: _
        rw [ih (by omega)]
    · rw [hbehind hcursor]

/-- Code points that make up no code units are none. -/
theorem eq_nil_of_flatten {points : List JsString} (hpoints : ∀ point ∈ points, point ≠ [])
    (h : points.flatten.length = 0) : points = [] := by
  cases points with
  | nil => rfl
  | cons point points =>
    rw [List.flatten_cons, List.length_append] at h
    exact absurd (List.eq_nil_of_length_eq_zero (Nat.eq_zero_of_add_eq_zero_right h))
      (hpoints point List.mem_cons_self)

/-- A beginning that is as long in code units is the whole. -/
theorem eq_of_isPrefix {xs ys : List JsString} (hpoints : ∀ point ∈ ys, point ≠ [])
    (h : xs <+: ys) (hlength : xs.flatten.length = ys.flatten.length) : xs = ys := by
  obtain ⟨rest, rfl⟩ := h
  rw [List.flatten_append, List.length_append] at hlength
  rw [eq_nil_of_flatten (fun point hpoint => hpoints point (List.mem_append_right _ hpoint))
    (by omega), List.append_nil]

/-- And so is an end. -/
theorem eq_of_isSuffix {xs ys : List JsString} (hpoints : ∀ point ∈ ys, point ≠ [])
    (h : xs <:+ ys) (hlength : xs.flatten.length = ys.flatten.length) : xs = ys := by
  obtain ⟨rest, rfl⟩ := h
  rw [List.flatten_append, List.length_append] at hlength
  rw [eq_nil_of_flatten (fun point hpoint => hpoints point (List.mem_append_left _ hpoint))
    (by omega), List.nil_append]

/-- **A report tells apart what is found at one place.** -/
theorem report_inj {view : View} {place : ℕ} {b c : List JsString × List JsString}
    (hb : b.1 ++ b.2 <+: (codePoints view.text).drop place)
    (hc : c.1 ++ c.2 <+: (codePoints view.text).drop place) (hbne : b.2 ≠ []) (hcne : c.2 ≠ [])
    (h : report view (place, b) = report view (place, c)) : b = c := by
  have hpoint : ∀ point ∈ (codePoints view.text).drop place, point ≠ [] := by
    rintro point hpoint rfl
    have hself := codePoints_of_mem (List.mem_of_mem_drop hpoint)
    cases hself
  have hsome : ∀ {w : List JsString × List JsString},
      w.1 ++ w.2 <+: (codePoints view.text).drop place → w.2 ≠ [] →
      0 < (w.1 ++ w.2).flatten.length := by
    intro w hw hne
    refine Nat.pos_of_ne_zero fun hzero => hne ?_
    exact (List.append_eq_nil_iff.mp (eq_nil_of_flatten
      (fun point hmem => hpoint point (hw.subset hmem)) hzero)).2
  -- What they take is as long, and so the same.
  have hstop : (b.1 ++ b.2).flatten.length = (c.1 ++ c.2).flatten.length := by
    have hstop := congrArg PlaceMatch.stop h
    simp only [report] at hstop
    have hbpos := hsome hb hbne
    have hcpos := hsome hc hcne
    omega
  have htaken : b.1 ++ b.2 = c.1 ++ c.2 := by
    obtain hle | hle := List.prefix_or_prefix_of_prefix hb hc
    · exact eq_of_isPrefix (fun point hmem => hpoint point (hc.subset hmem)) hle hstop
    · exact (eq_of_isPrefix (fun point hmem => hpoint point (hb.subset hmem)) hle hstop.symm).symm
  -- And so are the names, at its end.
  have hname : b.2 = c.2 := by
    have hlength : b.2.flatten.length = c.2.flatten.length :=
      congrArg List.length (congrArg PlaceMatch.name h)
    have hbsub : ∀ point ∈ b.2, point ≠ [] :=
      fun point hmem => hpoint point (hb.subset (List.mem_append_right _ hmem))
    have hcsub : ∀ point ∈ c.2, point ≠ [] :=
      fun point hmem => hpoint point (hc.subset (List.mem_append_right _ hmem))
    obtain hle | hle := List.suffix_or_suffix_of_suffix (List.suffix_append b.1 b.2)
      (htaken ▸ List.suffix_append c.1 c.2)
    · exact eq_of_isSuffix hcsub hle hlength
    · exact (eq_of_isSuffix hbsub hle hlength.symm).symm
  rw [hname] at htaken
  exact Prod.ext (List.append_cancel_right htaken) hname

/-- **The first expression that matches at a place matches behind the same prefix** as all
alternatives in one do, at each match of these. -/
def FirstAligned (unicode : Unicode) (places : List InterpretPlace) (view : View) : Prop :=
  ∀ m ∈ alternationMatches unicode places view,
    ∀ names ∈ firstPart unicode (batches (alternatives unicode places))
        ((codePoints view.text).take m.1).reverse ((codePoints view.text).drop m.1),
      ∃ way ∈ placeWays unicode names ((codePoints view.text).take m.1).reverse
        ((codePoints view.text).drop m.1), way.1 = m.2.1

/-- What is found at a place takes a part of the text behind it, and some of it as the name. -/
theorem findPlace_spec {unicode : Unicode} {names : List (Pattern JsString)}
    (hnames : ∀ name ∈ names, name.takesSome = true) {points : List JsString} {place : ℕ}
    {found : List JsString × List JsString}
    (h : findPlace unicode names points place = some found) :
    found.1 ++ found.2 <+: points.drop place ∧ found.2 ≠ [] :=
  have hmem := List.mem_of_mem_head? h
  ⟨isPrefix_of_mem_placeWays hmem, ne_nil_of_mem_placeWays hnames hmem⟩

/-- Every expression is one of names that take something. -/
theorem takesSome_of_mem_batches {unicode : Unicode} {places : List InterpretPlace}
    {names : List (Pattern JsString)} (h : names ∈ batches (alternatives unicode places)) :
    ∀ name ∈ names, name.takesSome = true := by
  intro name hname
  have hmem : name ∈ alternatives unicode places := by
    rw [← flatten_batches (alternatives unicode places)]
    exact List.mem_flatten_of_mem h hname
  exact takesSome_of_mem hmem

/-- **The search of the source** repeats one search for what the first expression finds. -/
theorem placeMatches_eq (unicode : Unicode) (places : List InterpretPlace) (view : View) :
    placeMatches unicode places view
      = (allMatches (fun place => partWays unicode (batches (alternatives unicode places))
          ((codePoints view.text).take place).reverse ((codePoints view.text).drop place)) size
          (codePoints view.text).length).map (report view) := by
  have hfind : ∀ place, ((batches (alternatives unicode places)).map fun names =>
      findPlace unicode names (codePoints view.text)).findSome? (fun find => find place)
      = partWays unicode (batches (alternatives unicode places))
          ((codePoints view.text).take place).reverse ((codePoints view.text).drop place) :=
    fun place => List.findSome?_map
  have hnearest : nearest ((batches (alternatives unicode places)).map fun names =>
      findPlace unicode names (codePoints view.text)) = exec _ :=
    funext₂ fun n place => (nearest_eq _ n place).trans
      (congrArg (exec · n place) (funext hfind))
  -- At the end of the text nothing is found.
  have hend : partWays unicode (batches (alternatives unicode places))
      ((codePoints view.text).take (codePoints view.text).length).reverse
      ((codePoints view.text).drop (codePoints view.text).length) = none := by
    refine List.findSome?_eq_none_iff.mpr fun names hnames => ?_
    cases hfound : findPlace unicode names (codePoints view.text) (codePoints view.text).length with
    | none => exact hfound
    | some found =>
      obtain ⟨hpart, hne⟩ := findPlace_spec (takesSome_of_mem_batches hnames) hfound
      rw [List.drop_length, List.prefix_nil, List.append_eq_nil_iff] at hpart
      exact absurd hpart.2 hne
  have hnone : nearest ((batches (alternatives unicode places)).map fun names =>
      findPlace unicode names (codePoints view.text)) 1 (codePoints view.text).length = none := by
    rw [hnearest]
    exact exec_of_none hend
  rw [placeMatches, placeMatchesFrom_eq hnone (Nat.le_add_right _ 0), hnearest]
  rfl

/-- **The search of the source finds what one ordered alternation finds**, if and only if the
first expression that matches at a place of a match matches behind the same prefix. -/
theorem placeMatches_eq_iff (unicode : Unicode) (places : List InterpretPlace) (view : View) :
    placeMatches unicode places view = oneAlternation unicode places view
      ↔ FirstAligned unicode places view := by
  have hsome : ∀ place, (findPlace unicode (alternatives unicode places) (codePoints view.text)
      place).isSome = (partWays unicode (batches (alternatives unicode places))
        ((codePoints view.text).take place).reverse
        ((codePoints view.text).drop place)).isSome := by
    intro place
    rw [isSome_partWays, flatten_batches]
    rfl
  have hreport : ∀ place b c,
      findPlace unicode (alternatives unicode places) (codePoints view.text) place = some b →
      partWays unicode (batches (alternatives unicode places))
        ((codePoints view.text).take place).reverse ((codePoints view.text).drop place) = some c →
      report view (place, b) = report view (place, c) → b = c := by
    intro place b c hb hc
    obtain ⟨names, hnames, hfound⟩ := List.exists_of_findSome?_eq_some hc
    obtain ⟨hbpart, hbne⟩ := findPlace_spec (fun name => takesSome_of_mem) hb
    obtain ⟨hcpart, hcne⟩ := findPlace_spec (takesSome_of_mem_batches hnames) hfound
    exact report_inj hbpart hcpart hbne hcne
  rw [placeMatches_eq, oneAlternation, eq_comm, alternationMatches]
  refine (matchesFrom_eq_iff hsome hreport (codePoints view.text).length _ 0).trans ?_
  refine forall₂_congr fun m hm => ?_
  -- At the place of a match, both find the same if the prefix is the same.
  have hparts := partWays_eq_iff unicode (batches (alternatives unicode places))
    ((codePoints view.text).take m.1).reverse ((codePoints view.text).drop m.1)
  rw [flatten_batches] at hparts
  have hat : (placeWays unicode (alternatives unicode places)
      ((codePoints view.text).take m.1).reverse ((codePoints view.text).drop m.1)).head?
      = some m.2 := mem_matchesFrom hm
  refine hparts.trans ?_
  rw [hat]
  exact ⟨fun h => h m.2 rfl, fun h way hway => Option.some.inj hway ▸ h⟩

/-! ## Two names in different expressions -/

/-- What Unicode says of ASCII and Hebrew. -/
def asciiAndHebrew : Unicode where
  folded := fun ch => ch.map fun u => if 0x41 ≤ u && u ≤ 0x5a then u + 0x20 else u
  isLetter := fun ch => ch.all fun u => (0x61 ≤ u && u ≤ 0x7a) || (0x5d0 ≤ u && u ≤ 0x5ea)
  isNumber := fun ch => ch.all fun u => 0x30 ≤ u && u ≤ 0x39

/-- A decimal digit. -/
def digitUnit (n : ℕ) : UInt16 := UInt16.ofNat (0x30 + n % 10)

/-- Blocks with a number of three digits. -/
def blockName (n : ℕ) : JsString :=
  units "גוש" ++ [digitUnit (n / 100), digitUnit (n / 10), digitUnit n]

/-- 127 blocks, and two names of which one is the end of the other: it is the first name of the
second expression. -/
def blocksAndTwo : List JsString :=
  (List.range 127).map blockName ++ [units "לבנון", units "בנון"]

theorem digitUnit_inj {n m : ℕ} (h : digitUnit n = digitUnit m) : n % 10 = m % 10 := by
  have hnat := congrArg UInt16.toNat h
  simp only [digitUnit, UInt16.toNat_ofNat'] at hnat
  omega

theorem blockName_inj {n m : ℕ} (hn : n < 127) (hm : m < 127) (h : blockName n = blockName m) :
    n = m := by
  have hdigits := List.append_cancel_left h
  simp only [List.cons.injEq, and_true] at hdigits
  obtain ⟨hhundreds, htens, hones⟩ := hdigits
  have hhundreds := digitUnit_inj hhundreds
  have htens := digitUnit_inj htens
  have hones := digitUnit_inj hones
  omega

theorem nodup_blocksAndTwo : blocksAndTwo.Nodup := by
  have hblock : ∀ n, (blockName n).length = 6 := fun n => rfl
  refine List.nodup_append.mpr ⟨?_, by decide +kernel, ?_⟩
  · refine List.Nodup.map_on (fun n hn m hm h => ?_) List.nodup_range
    exact blockName_inj (List.mem_range.mp hn) (List.mem_range.mp hm) h
  · intro name hname other hother heq
    obtain ⟨n, -, rfl⟩ := List.mem_map.mp hname
    have hlength := (hblock n).symm.trans (congrArg List.length heq)
    obtain rfl | rfl := List.mem_pair.mp hother <;> cases hlength

/-- Digits and the Hebrew letters of the names stay as they are. -/
theorem staysItself_blocksAndTwo : ∀ name ∈ blocksAndTwo, ∀ u ∈ name,
    staysItself asciiAndHebrew u = true := by
  have hwords : ([units "גוש", units "לבנון", units "בנון"].all fun name =>
      name.all (staysItself asciiAndHebrew)) = true := by decide +kernel
  have hdigits : ((List.range 10).all fun d => staysItself asciiAndHebrew (digitUnit d)) = true := by
    decide +kernel
  have hword : ∀ name ∈ [units "גוש", units "לבנון", units "בנון"], ∀ u ∈ name,
      staysItself asciiAndHebrew u = true :=
    fun name hname => List.all_eq_true.mp (List.all_eq_true.mp hwords name hname)
  have hdigit : ∀ n, staysItself asciiAndHebrew (digitUnit n) = true := by
    intro n
    have hmod := List.all_eq_true.mp hdigits (n % 10)
      (List.mem_range.mpr (Nat.mod_lt _ (by decide)))
    rwa [digitUnit, Nat.mod_mod] at hmod
  intro name hname u hu
  obtain hname | hname := List.mem_append.mp hname
  · obtain ⟨n, -, rfl⟩ := List.mem_map.mp hname
    obtain hu | hu := List.mem_append.mp hu
    · exact hword _ List.mem_cons_self u hu
    · simp only [List.mem_cons, List.not_mem_nil, or_false] at hu
      obtain rfl | rfl | rfl := hu
      · exact hdigit _
      · exact hdigit _
      · exact hdigit _
  · exact hword name (List.mem_cons_of_mem _ hname) u hu

theorem alternatives_blocksAndTwo (id : JsString) :
    alternatives asciiAndHebrew [{ id := id, names := blocksAndTwo }]
      = blocksAndTwo.map alternative := by
  have hlong : ∀ name ∈ blocksAndTwo, 3 ≤ name.length := by
    intro name hname
    obtain hname | hname := List.mem_append.mp hname
    · obtain ⟨n, -, rfl⟩ := List.mem_map.mp hname
      show 3 ≤ 6
      decide
    · obtain rfl | rfl := List.mem_pair.mp hname <;> decide +kernel
  have hsorted : blocksAndTwo.insertionSort (fun a b => b.length ≤ a.length) = blocksAndTwo := by
    decide +kernel
  rw [alternatives, map_fst_byKey staysItself_blocksAndTwo hlong nodup_blocksAndTwo, hsorted]

theorem placeView_lebanon : placeView asciiAndHebrew (foldView asciiAndHebrew (units "לבנון"))
    = { text := units "לבנון", start := [0, 1, 2, 3, 4], stop := [1, 2, 3, 4, 5] } := by
  decide +kernel

/-- **A name of the second expression behind a prefix**: all alternatives in one find it, and
the source finds the name of the first expression that begins at the same place. -/
theorem placeMatches_misaligned :
    placeMatches asciiAndHebrew [{ id := units "blocks", names := blocksAndTwo }]
        (placeView asciiAndHebrew (foldView asciiAndHebrew (units "לבנון")))
      = [{ start := 0, stop := 5, name := units "לבנון", span := (0, 5) }]
    ∧ oneAlternation asciiAndHebrew [{ id := units "blocks", names := blocksAndTwo }]
        (placeView asciiAndHebrew (foldView asciiAndHebrew (units "לבנון")))
      = [{ start := 0, stop := 5, name := units "בנון", span := (0, 5) }] := by
  rw [placeView_lebanon, placeMatches, oneAlternation, alternationMatches,
    alternatives_blocksAndTwo]
  constructor
  · decide +kernel
  · decide +kernel

end Intent
