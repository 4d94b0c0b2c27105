import MsRealty.PlaceMatches

/-!
# The text that was not understood

A text is words, found one after another from the left (`tokens`). What the interpreter does
not understand are the runs of words that no part of the interpretation claims, without the
function words at their ends (`unparsedRuns`).

Words stand in their order and do not overlap, so that a run reaches from its first word that
is no function word to its last, and covers all such words between them. No word is lost
therefore: every word that is neither claimed nor a function word is in one of the runs
(`exists_run_of_mem`).
-/

namespace Intent

open CanonicalText Patterns LeftmostSearch

/-! ## Words -/

/-- `text.slice(start, end)` -/
def slice (text : JsString) (start stop : ℕ) : JsString := (text.drop start).take (stop - start)

/-- **`fold`.** -/
def fold (unicode : Unicode) (text : JsString) : JsString := (foldView unicode text).text

/-- What is written between bars. -/
def words (list : String) : List JsString := (units list).splitOn (unit '|')

/-- **`stopwords`**: the function words of all languages. -/
def stopwords (unicode : Unicode) : List JsString :=
  (words ("в|във|на|с|със|и|за|да|от|до|по|при|близо|около|търся|искам|ми|ме|се|или|а|е|към|"
      ++ "бюджет|имот|една|един|едно")
    ++ words ("a|an|the|in|at|on|of|for|with|and|or|to|i|im|i'm|want|looking|need|near|around|"
      ++ "close|some|please|is|me|my|budget|property|ideally|preferably|must|have")
    ++ words ("во|со|для|у|рядом|хочу|ищу|нужна|нужен|нужно|мне|я|возле|бюджетом|обязательно|"
      ++ "желательно")
    ++ words ("im|am|an|auf|mit|und|oder|fur|eine|ein|einen|einer|die|der|das|den|dem|ich|suche|"
      ++ "zu|bei|nahe")
    ++ words "op|met|en|of|een|de|het|te|voor|ik|zoek|nabij|van"
    ++ words "σε|στο|στη|στην|με|και|η|για|ενα|μια|ψαχνω|θελω|κοντα|το|τη|την|του|της|ο"
    ++ words "ב|ל|של|עם|ו|את|אני|מחפש|מחפשת|רוצה|ליד|באזור|או|גם|תקציב").map (fold unicode)

/-- A mark that joins two words to one. -/
def isJoiner (ch : JsString) : Bool :=
  [[0x27], [0x2019], [0x5f3], [0x22], [0x5f4], units ".", units "-"].contains ch

/-- **`wordRe`.** -/
def wordRe (unicode : Unicode) : Pattern JsString :=
  .seq (Pattern.plus (.one (isWordPoint unicode)))
    (.star (.seq (.one isJoiner) (Pattern.plus (.one (isWordPoint unicode)))))

/-- **A part of a text.** -/
structure Span where
  start : ℕ
  stop : ℕ

/-- Whether two parts share anything. -/
def Span.overlaps (s t : Span) : Bool := s.start < t.stop && s.stop > t.start

/-- **A word**, and whether it is a function word. -/
structure Token where
  span : Span
  isStopword : Bool

/-- Where the words of a text are, in code points. -/
def wordMatches (unicode : Unicode) (points : List JsString) : List (ℕ × List JsString) :=
  allMatches (fun place => ((wordRe unicode).ways (points.take place).reverse
    (points.drop place)).head?.map Prod.fst) List.length points.length

/-- A word as it is reported, in code units of the text. -/
def tokenAt (unicode : Unicode) (points : List JsString) (start : ℕ)
    (m : ℕ × List JsString) : Token :=
  let index := (points.take m.1).flatten.length
  { span := { start := start + index, stop := start + index + m.2.flatten.length }
    isStopword := (stopwords unicode).contains (fold unicode m.2.flatten) }

/-- **`tokens`**: the words of a part of a text. -/
def tokens (unicode : Unicode) (text : JsString) (start stop : ℕ) : List Token :=
  let points := codePoints (slice text start stop)
  (wordMatches unicode points).map (tokenAt unicode points start)

/-! ## Runs -/

/-- **A part of a text with what is written there.** -/
structure TextSpan (input : JsString) where
  span : Span
  text : JsString
  text_eq : text = slice input span.start span.stop

/-- The loop that collects runs of words that are not claimed. -/
def runsFrom (claimed : Span → Bool) : List Token → List Token → List (List Token)
  | current, [] => if current.isEmpty then [] else [current]
  | current, token :: rest =>
    if claimed token.span then
      if current.isEmpty then runsFrom claimed [] rest else current :: runsFrom claimed [] rest
    else runsFrom claimed (current ++ [token]) rest

/-- A run from its first word that is no function word to its last. -/
def trimmedRun (text : JsString) (run : List Token) : Option (TextSpan text) :=
  match run.find? fun t => !t.isStopword, run.reverse.find? fun t => !t.isStopword with
  | some a, some b =>
    some { span := { start := a.span.start, stop := b.span.stop }
           text := slice text a.span.start b.span.stop
           text_eq := rfl }
  | _, _ => none

/-- **`unparsedRuns`.** -/
def unparsedRuns (text : JsString) (list : List Token) (claimed : Span → Bool) :
    List (TextSpan text) :=
  (runsFrom claimed [] list).filterMap (trimmedRun text)

/-! ## The order of words -/

/-- Beginnings of a text are as long as there is of it. -/
theorem length_flatten_take_le (points : List JsString) {p q : ℕ} (h : p ≤ q) :
    (points.take p).flatten.length ≤ (points.take q).flatten.length := by
  obtain ⟨rest, hrest⟩ := List.take_prefix_take_left (l := points) h
  rw [← hrest, List.flatten_append, List.length_append]
  exact Nat.le_add_right _ _

/-- What is found at a place is what the text goes on with. -/
theorem take_add_of_mem {unicode : Unicode} {points : List JsString} {m : ℕ × List JsString}
    (h : m ∈ wordMatches unicode points) :
    points.take (m.1 + m.2.length) = points.take m.1 ++ m.2 := by
  have hfound := mem_matchesFrom h
  obtain ⟨way, hway, hm⟩ := Option.map_eq_some_iff.mp hfound
  have htaken := append_of_mem_ways (List.mem_of_mem_head? hway)
  rw [List.take_add, ← htaken, hm, List.take_left' rfl]

/-- A word as long as its code points in code units. -/
theorem span_tokenAt {unicode : Unicode} {points : List JsString} {start : ℕ}
    {m : ℕ × List JsString} (h : m ∈ wordMatches unicode points) :
    (tokenAt unicode points start m).span =
      { start := start + (points.take m.1).flatten.length
        stop := start + (points.take (m.1 + m.2.length)).flatten.length } := by
  rw [take_add_of_mem h, List.flatten_append, List.length_append, ← Nat.add_assoc]
  rfl

/-- A word is not empty. -/
theorem start_lt_stop {unicode : Unicode} {text : JsString} {start stop : ℕ} {t : Token}
    (h : t ∈ tokens unicode text start stop) : t.span.start < t.span.stop := by
  obtain ⟨m, hm, rfl⟩ := List.mem_map.mp h
  have hne : m.2 ≠ [] := by
    obtain ⟨way, hway, heq⟩ := Option.map_eq_some_iff.mp (mem_matchesFrom hm)
    have htakes : (wordRe unicode).takesSome = true := rfl
    rw [← heq]
    exact ne_nil_of_takesSome htakes (List.mem_of_mem_head? hway)
  have hpoints : ∀ point ∈ m.2, point ≠ [] := by
    rintro point hpoint rfl
    have hmem : [] ∈ (codePoints (slice text start stop)).take (m.1 + m.2.length) := by
      rw [take_add_of_mem hm]
      exact List.mem_append_right _ hpoint
    have hself := codePoints_of_mem (List.mem_of_mem_take hmem)
    cases hself
  exact Nat.lt_add_of_pos_right (Nat.pos_of_ne_zero fun hzero =>
    hne (eq_nil_of_flatten hpoints hzero))

/-- **A word lies within the part** whose words are asked for. -/
theorem within_of_mem_tokens {unicode : Unicode} {text : JsString} {start stop : ℕ} {t : Token}
    (h : t ∈ tokens unicode text start stop) :
    t.span.start < t.span.stop ∧ start ≤ t.span.start ∧ t.span.stop ≤ stop := by
  refine ⟨start_lt_stop h, ?_⟩
  have hlt := start_lt_stop h
  obtain ⟨m, hm, rfl⟩ := List.mem_map.mp h
  rw [span_tokenAt hm] at hlt ⊢
  have hslice : (slice text start stop).length ≤ stop - start := List.length_take_le _ _
  have hall : ((codePoints (slice text start stop)).take (m.1 + m.2.length)).flatten.length
      ≤ (slice text start stop).length := by
    have happend := congrArg List.flatten
      (List.take_append_drop (m.1 + m.2.length) (codePoints (slice text start stop)))
    rw [List.flatten_append, flatten_codePoints] at happend
    have hlength := congrArg List.length happend
    rw [List.length_append] at hlength
    omega
  refine ⟨Nat.le_add_right _ _, ?_⟩
  show start + _ ≤ stop
  change start + _ < start + _ at hlt
  omega

/-- **Words stand in their order** and do not overlap. -/
theorem pairwise_tokens (unicode : Unicode) (text : JsString) (start stop : ℕ) :
    (tokens unicode text start stop).Pairwise fun t t' => t.span.stop ≤ t'.span.start := by
  refine List.pairwise_map.mpr ?_
  refine (pairwise_matchesFrom _ _ _ _ _).imp_of_mem fun {m m'} hm hm' hle => ?_
  rw [span_tokenAt hm, span_tokenAt hm']
  exact Nat.add_le_add_left (length_flatten_take_le _ hle) _

/-! ## No word is lost -/

/-- Every word that is not claimed is in a run, and runs are parts of the list. -/
theorem exists_run {claimed : Span → Bool} {t : Token} (hclaimed : claimed t.span = false)
    {list current : List Token} (h : t ∈ current ∨ t ∈ list) :
    ∃ run ∈ runsFrom claimed current list, t ∈ run ∧ run.Sublist (current ++ list) := by
  induction list generalizing current with
  | nil =>
    have hcurrent : t ∈ current := h.resolve_right List.not_mem_nil
    rw [runsFrom, if_neg (by simp [List.ne_nil_of_mem hcurrent]), List.append_nil]
    exact ⟨current, List.mem_cons_self, hcurrent, List.Sublist.refl _⟩
  | cons token rest ih =>
    rw [runsFrom]
    split_ifs with htoken hempty
    · -- Nothing is collected, and the word is among the others.
      have hnil : current = [] := List.isEmpty_iff.mp hempty
      rw [hnil] at h ⊢
      have hrest : t ∈ rest := by
        obtain h | h := h
        · exact absurd h List.not_mem_nil
        · obtain rfl | h := List.mem_cons.mp h
          · rw [hclaimed] at htoken
            cases htoken
          · exact h
      obtain ⟨run, hrun, hmem, hsub⟩ := ih (Or.inr hrest)
      exact ⟨run, hrun, hmem, hsub.trans (List.sublist_cons_self token rest)⟩
    · -- What is collected is a run.
      obtain h | h := h
      · exact ⟨current, List.mem_cons_self, h, List.sublist_append_left _ _⟩
      · have hrest : t ∈ rest := by
          obtain rfl | h := List.mem_cons.mp h
          · rw [hclaimed] at htoken
            cases htoken
          · exact h
        have hnext : t ∈ ([] : List Token) ∨ t ∈ rest := Or.inr hrest
        obtain ⟨run, hrun, hmem, hsub⟩ := ih hnext
        refine ⟨run, List.mem_cons_of_mem _ hrun, hmem, ?_⟩
        exact (hsub.trans (List.sublist_cons_self token rest)).trans
          (List.sublist_append_right _ _)
    · have hnext : t ∈ current ++ [token] ∨ t ∈ rest := by
        simp only [List.mem_append, List.mem_cons, List.not_mem_nil, or_false] at h ⊢
        tauto
      obtain ⟨run, hrun, hmem, hsub⟩ := ih hnext
      rw [List.append_assoc] at hsub
      exact ⟨run, hrun, hmem, hsub⟩

/-- The first of some things that stand in an order is before the others. -/
theorem find?_of_pairwise {β : Type*} {R : β → β → Prop} (p : β → Bool) {l : List β}
    (hl : l.Pairwise R) {x : β} (hx : x ∈ l) (hp : p x = true) :
    ∃ a, l.find? p = some a ∧ (a = x ∨ R a x) := by
  induction l with
  | nil => cases hx
  | cons b l ih =>
    obtain ⟨hb, hl⟩ := List.pairwise_cons.mp hl
    rw [List.find?_cons]
    cases hpb : p b with
    | true =>
      refine ⟨b, rfl, ?_⟩
      obtain rfl | hx := List.mem_cons.mp hx
      · exact Or.inl rfl
      · exact Or.inr (hb x hx)
    | false =>
      obtain rfl | hx := List.mem_cons.mp hx
      · rw [hp] at hpb
        cases hpb
      · exact ih hl hx

/-- **No word is lost**: a word that is not claimed, and no function word, is in one of the
runs. -/
theorem exists_run_of_mem {unicode : Unicode} {text : JsString} {start stop : ℕ}
    (claimed : Span → Bool) {t : Token} (ht : t ∈ tokens unicode text start stop)
    (hclaimed : claimed t.span = false) (hstop : t.isStopword = false) :
    ∃ run ∈ unparsedRuns text (tokens unicode text start stop) claimed,
      run.span.start ≤ t.span.start ∧ t.span.stop ≤ run.span.stop := by
  have hlist : t ∈ ([] : List Token) ∨ t ∈ tokens unicode text start stop := Or.inr ht
  obtain ⟨run, hrun, hmem, hsub⟩ := exists_run hclaimed hlist
  have horder := (pairwise_tokens unicode text start stop).sublist hsub
  have hword : (!t.isStopword) = true := by
    rw [hstop]
    rfl
  obtain ⟨a, ha, hfirst⟩ := find?_of_pairwise (fun w => !w.isStopword) horder hmem hword
  obtain ⟨b, hb, hlast⟩ := find?_of_pairwise (fun w => !w.isStopword)
    (List.pairwise_reverse.mpr horder) (List.mem_reverse.mpr hmem) hword
  have hwithin : ∀ w ∈ run, w.span.start ≤ w.span.stop :=
    fun w hw => (start_lt_stop (hsub.subset hw)).le
  have htrimmed : trimmedRun text run
      = some { span := { start := a.span.start, stop := b.span.stop }
               text := slice text a.span.start b.span.stop
               text_eq := rfl } := by
    simp only [trimmedRun, ha, hb]
  refine ⟨_, List.mem_filterMap.mpr ⟨run, hrun, htrimmed⟩, ?_, ?_⟩
  · show a.span.start ≤ t.span.start
    obtain rfl | hbefore := hfirst
    · exact le_rfl
    · exact (hwithin a (List.mem_of_find?_eq_some ha)).trans hbefore
  · show t.span.stop ≤ b.span.stop
    obtain rfl | hbehind := hlast
    · exact le_rfl
    · exact hbehind.trans (hwithin b (List.mem_reverse.mp (List.mem_of_find?_eq_some hb)))

end Intent
