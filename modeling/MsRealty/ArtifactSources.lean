import Mathlib.Tactic.IntervalCases
import MsRealty.JsonText
import MsRealty.Patterns
import MsRealty.SearchInput

/-!
# Drafts are held to their sources

The check of a generated draft (`validateArtifactSources` in
`src/domain/generative.ts`): it quotes its sources, and its numbers, contacts
and currencies are theirs. Before the numbers are compared, the numbers of a
list are taken out: those that stand at the start of a line, before a full stop
or a bracket.

So of the numbers of an accepted draft, those that were taken out were not
compared (`mem_numerals_iff`).
-/

namespace Generative

open Patterns

/-! ## Patterns -/

/-- `\d`. -/
def digit : Pattern Char := .one Char.isDigit

/-- `\s`. -/
def space : Pattern Char := .one Search.isSpace

/-- The characters of `\w`. -/
def isWord (c : Char) : Bool := c.isAlphanum || c == '_'

/-- One of some characters. -/
def oneOf (s : String) : Pattern Char := .one s.toList.contains

/-- A character, in either case. -/
def caseless (c : Char) : Pattern Char := .one (fun d => d.toLower = c)

/-- The characters that end a line. -/
def isLineTerminator (c : Char) : Bool := c.val ∈ [0x0a, 0x0d, 0x2028, 0x2029]

/-- `^`, with the flag `m`. -/
def lineStart : Pattern Char := .check (fun before _ => before.head?.all isLineTerminator)

/-- `\b`. -/
def wordBoundary : Pattern Char :=
  .check (fun before after => before.head?.any isWord != after.head?.any isWord)

/-- `$`. -/
def textEnd : Pattern Char := .check (fun _ after => after.isEmpty)

/-- `(?=…)`. -/
def ahead (r : Pattern Char) : Pattern Char :=
  .check (fun before after => !(r.ways before after).isEmpty)

/-- **The numerals**, `\d+(?:[.,]\d+)*`. -/
def numeral : Pattern Char := .seq digit.plus (.star (.seq (oneOf ".,") digit.plus))

/-- **The number of a list**, `^\s*\d+[.)]\s+`. -/
def listMarker : Pattern Char :=
  .seq lineStart (.seq (.star space) (.seq digit.plus (.seq (oneOf ".)") space.plus)))

/-- A separator of thousands, `(?<=\d)[, .](?=\d{3}(?:\D|$))`. -/
def thousandsSeparator : Pattern Char :=
  .seq (.check (fun before _ => before.head?.any Char.isDigit))
    (.seq (oneOf ", .")
      (ahead (.seq digit (.seq digit (.seq digit
        (.alt (.one (fun c => !c.isDigit)) textEnd))))))

/-- A web or mail address, `https?:\/\/[^\s<>]+|[\w.+-]+@[\w.-]+\.[a-z]{2,}` in either case. -/
def contact : Pattern Char :=
  .alt
    (.seq (caseless 'h') (.seq (caseless 't') (.seq (caseless 't') (.seq (caseless 'p')
      (.seq (caseless 's').opt (.seq (.word "://".toList)
        (Pattern.one (fun c => !(Search.isSpace c || c == '<' || c == '>'))).plus))))))
    (.seq (Pattern.one (fun c => isWord c || ".+-".toList.contains c)).plus
      (.seq (oneOf "@") (.seq (Pattern.one (fun c => isWord c || ".-".toList.contains c)).plus
        (.seq (oneOf ".") (.seq (.one Char.isAlpha) (Pattern.one Char.isAlpha).plus)))))

/-- `\b(?:EUR|BGN|USD|GBP|CHF|ILS)\b`. -/
def currency : Pattern Char :=
  .seq wordBoundary (.seq
    (.alt (.word "EUR".toList) (.alt (.word "BGN".toList) (.alt (.word "USD".toList)
      (.alt (.word "GBP".toList) (.alt (.word "CHF".toList) (.word "ILS".toList))))))
    wordBoundary)

/-! ## Drafts and their sources -/

/-- What a source is. -/
inductive SourceType where
  | inquiry
  | «case»
  | task
  | message
  | listing
  | content
  | external
  | calculation
  deriving DecidableEq

/-- For whom a source is. -/
inductive Audience where
  | internal
  | approvedPublic
  | externalUnverified
  deriving DecidableEq

/-- **A source** of a workspace. -/
structure WorkspaceSource where
  key : String
  type : SourceType
  id : String
  audience : Audience
  text : String
  /-- The entries of the facts, as the object lists them. -/
  facts : List (String × String)

structure SourceCitation where
  source : String
  quote : String

/-- What a draft is, with what a handoff has besides. -/
inductive ArtifactKind where
  | task
  | research
  | options
  | reply
  | sellerCopy
  | ownerAnalysis
  | buyerHandoff (requirements preferences : String) (listingIds : List String)

/-- **A draft.** -/
structure ArtifactProposal where
  title : String
  body : String
  citations : List SourceCitation
  kind : ArtifactKind

/-- The requirements and preferences of a handoff. -/
def ArtifactKind.needs : ArtifactKind → List String
  | .buyerHandoff requirements preferences _ => [requirements, preferences]
  | _ => []

/-- The listings of a handoff. -/
def ArtifactKind.listingIds : ArtifactKind → List String
  | .buyerHandoff _ _ listingIds => listingIds
  | _ => []

/-! ## The check -/

/-- Texts joined by line breaks. -/
def joinLines (texts : List (List Char)) : List Char := ['\n'].intercalate texts

/-- Refuses where a condition fails. -/
def demand (condition : Prop) [Decidable condition] (error : String) : Except String Unit :=
  if condition then .ok () else .error error

/-- `String.prototype.includes`. -/
def includes (text part : List Char) : Bool := text.tails.any part.isPrefixOf

/-- The facts of a source as JSON. -/
def WorkspaceSource.factsText (s : WorkspaceSource) : List Char :=
  JsonText.stringify (.obj (s.facts.map (fun fact => (fact.1, .str fact.2))))

/-- The sources a draft may rest on: those it cites, and what was asked. -/
def supporting (proposal : ArtifactProposal) (sources : List WorkspaceSource) :
    List WorkspaceSource :=
  sources.filter (fun s =>
    proposal.citations.any (fun c => c.source == s.key) || "intent:".toList.isPrefixOf s.key.toList)

/-- What these sources say. -/
def supplied (proposal : ArtifactProposal) (sources : List WorkspaceSource) : List Char :=
  joinLines ((supporting proposal sources).map (fun s =>
    s.text.toList ++ '\n' :: s.factsText))

/-- The texts of a draft that are checked. -/
def ArtifactProposal.texts (proposal : ArtifactProposal) (humanRequirements : Bool) :
    List String :=
  proposal.title :: proposal.body ::
    if humanRequirements then [] else proposal.kind.needs

/-- What is checked of a draft. -/
def authored (proposal : ArtifactProposal) (humanRequirements : Bool) : List Char :=
  joinLines ((proposal.texts humanRequirements).map String.toList)

/-- A text with a point for its first comma. -/
def commaToPoint : List Char → List Char
  | [] => []
  | c :: cs => if c = ',' then '.' :: cs else c :: commaToPoint cs

/-- **The value of a numeral**, without separators of thousands and with a point. -/
def numberKey (n : List Char) : List Char := commaToPoint (replaceAll thousandsSeparator [] n)

/-- The authored text without the numbers of its lists. -/
def factualText (text : List Char) : List Char := replaceAll listMarker [] text

/-- A contact without the mark that ends its sentence. -/
def withoutEndMark (token : List Char) : List Char :=
  if token.getLast?.any ".,;)".toList.contains then token.dropLast else token

/-- The narrative of a draft without what a source entitles it to say. -/
def withoutQuoted (proposal : ArtifactProposal) (narrative : List Char) (s : WorkspaceSource) :
    List Char :=
  let narrative := if s.type = .calculation then
    replaceAll (.word s.text.toList) "[calculation]".toList narrative else narrative
  let narrative := if s.type = .listing
      ∧ proposal.citations.any (fun c => c.source == s.key && c.quote == s.text) then
    replaceAll (.word s.text.toList) "[approved quotation]".toList narrative else narrative
  if "intent:".toList.isPrefixOf s.key.toList then
    ((s.text.toList.splitOn '\n').filter (fun line => !line.isEmpty)).foldl
      (fun narrative line =>
        ["User requirement: ", "Изискване: ", "Требование: "].foldl
          (fun narrative label =>
            replaceAll (.word (label.toList ++ line)) "[user requirement]".toList narrative)
          narrative)
      narrative
  else narrative

/-- **`validateArtifactSources`.** -/
def validateArtifactSources (proposal : ArtifactProposal) (sources : List WorkspaceSource)
    (humanRequirements : Bool) : Except String Unit := do
  demand (proposal.citations.isEmpty → sources.isEmpty) "workspace_missing_citation"
  demand (∀ citation ∈ proposal.citations,
      (sources.find? (fun s => s.key == citation.source)).any
        (fun s => includes s.text.toList citation.quote.toList))
    "workspace_invalid_citation"
  let supplied := supplied proposal sources
  let authored := authored proposal humanRequirements
  let numbers := (matchAll numeral supplied).map numberKey
  demand (∀ n ∈ matchAll numeral (factualText authored), numberKey n ∈ numbers)
    "workspace_unsupported_number"
  demand (∀ token ∈ matchAll contact authored, includes supplied (withoutEndMark token))
    "workspace_unsupported_contact"
  demand (∀ code ∈ matchAll currency authored, includes supplied code)
    "workspace_unsupported_currency"
  if sources.any (fun s => s.type == .listing && s.audience == .approvedPublic) then
    let narrative := (supporting proposal sources).foldl (withoutQuoted proposal)
      (proposal.title.toList ++ '\n' :: proposal.body.toList)
    demand (¬ (replaceAll listMarker [] narrative).any Char.isDigit)
      "workspace_property_facts_require_structured_view"
  demand (∀ id ∈ proposal.kind.listingIds,
      sources.any (fun s => s.type == .listing && s.id == id && s.audience == .approvedPublic))
    "workspace_unverified_listing"

/-! ## The numerals of a text -/

/-- The characters of a numeral. -/
def isNumeral (c : Char) : Bool := c.isDigit || ".,".toList.contains c

theorem numeral_within : numeral.Within (fun c => isNumeral c = true) := by
  have hdigit : ∀ c : Char, c.isDigit = true → isNumeral c = true := by
    intro c hc
    rw [isNumeral, hc, Bool.true_or]
  have hseparator : ∀ c : Char, ".,".toList.contains c = true → isNumeral c = true := by
    intro c hc
    rw [isNumeral, hc, Bool.or_true]
  exact ⟨⟨hdigit, hdigit⟩, hseparator, hdigit, hdigit⟩

theorem numeral_takesSome : numeral.takesSome = true := rfl

/-- No space is in a numeral. -/
theorem not_isNumeral_of_isSpace {c : Char} (h : Search.isSpace c = true) :
    isNumeral c = false := by
  by_contra hc
  rw [Bool.not_eq_false, isNumeral, Bool.or_eq_true] at hc
  obtain hc | hc := hc
  · obtain ⟨hfirst, hlast⟩ : 48 ≤ c.toNat ∧ c.toNat ≤ 57 := Char.isDigit_iff_toNat.mp hc
    rw [← Char.ofNat_toNat c] at h
    generalize c.toNat = n at hfirst hlast h
    interval_cases n <;> exact absurd h (by decide)
  · obtain rfl | rfl : c = '.' ∨ c = ',' := by simpa using hc
    · exact absurd h (by decide)
    · exact absurd h (by decide)

theorem not_isDigit_of_isSpace {c : Char} (h : Search.isSpace c = true) : c.isDigit = false :=
  (Bool.or_eq_false_iff.mp (not_isNumeral_of_isSpace h)).1

theorem isSpace_of_isLineTerminator {c : Char} (h : isLineTerminator c = true) :
    Search.isSpace c = true := by
  simp only [isLineTerminator, decide_eq_true_eq, List.mem_cons, List.not_mem_nil, or_false] at h
  obtain h | h | h | h := h <;> rw [Search.isSpace, h] <;> decide

/-- **A space separates the numerals** of a text. -/
theorem numerals_space {c : Char} (hc : Search.isSpace c = true) (xs ys : List Char) :
    matchAll numeral (xs ++ c :: ys) = matchAll numeral xs ++ matchAll numeral ys :=
  matchAll_append_of_not numeral_within numeral_takesSome
    (by rw [not_isNumeral_of_isSpace hc]; exact Bool.false_ne_true) xs ys

/-- The numerals of lines are those of each. -/
theorem numerals_joinLines (texts : List (List Char)) :
    matchAll numeral (joinLines texts) = texts.flatMap (matchAll numeral) := by
  induction texts with
  | nil => rfl
  | cons text texts ih =>
    cases texts with
    | nil =>
      rw [List.flatMap_singleton, joinLines, List.intercalate_singleton]
    | cons text' texts =>
      rw [joinLines, List.intercalate_cons_cons, List.append_assoc, List.singleton_append,
        numerals_space (by decide), List.flatMap_cons, ← ih]
      rfl

/-- **What the number of a list is**: at the start of a line spaces, digits, a
full stop or a bracket, and spaces. -/
theorem listMarker_way {before after m rest : List Char}
    (h : (m, rest) ∈ listMarker.ways before after) :
    (∀ c ∈ before.head?, isLineTerminator c = true) ∧
      ∃ spaces digits mark space more, m = spaces ++ (digits ++ mark :: space :: more) ∧
        (∀ c ∈ spaces, Search.isSpace c = true) ∧ digits ≠ [] ∧
        (∀ c ∈ digits, c.isDigit = true) ∧ (mark = '.' ∨ mark = ')') ∧
        (∀ c ∈ space :: more, Search.isSpace c = true) := by
  obtain ⟨m₁, mid₁, m₂, hstart, h₁, rfl⟩ := mem_andThen.mp h
  obtain ⟨spaces, mid₂, m₃, hspaces, h₂, rfl⟩ := mem_andThen.mp h₁
  obtain ⟨digits, mid₃, m₄, hdigits, h₃, rfl⟩ := mem_andThen.mp h₂
  obtain ⟨mark, mid₄, tail, hmark, htail, rfl⟩ := mem_andThen.mp h₃
  obtain ⟨hne, hrun⟩ := of_mem_plus_one hdigits
  obtain ⟨hmore, hspace⟩ := of_mem_plus_one htail
  obtain ⟨space, more, rfl⟩ := List.exists_cons_of_ne_nil hmore
  have hline : before.head?.all isLineTerminator = true ∧ m₁ = [] := by
    rw [lineStart, Pattern.ways] at hstart
    split_ifs at hstart with hline
    · exact ⟨hline, (Prod.mk.inj (List.mem_singleton.mp hstart)).1⟩
    · exact absurd hstart List.not_mem_nil
  obtain ⟨c, rfl, hc⟩ : ∃ c, mark = [c] ∧ (c = '.' ∨ c = ')') := by
    cases mid₃ with
    | nil => exact absurd hmark List.not_mem_nil
    | cons c cs =>
      rw [oneOf, Pattern.ways] at hmark
      split_ifs at hmark with hc
      · refine ⟨c, (Prod.mk.inj (List.mem_singleton.mp hmark)).1, ?_⟩
        simpa using hc
      · exact absurd hmark List.not_mem_nil
  refine ⟨fun d hd => ?_, spaces, digits, c, space, more, ?_, of_mem_star_one hspaces, hne, hrun,
    hc, hspace⟩
  · have hall := hline.1
    rw [hd] at hall
    exact hall
  · rw [hline.2]
    rfl

/-- The digits before a mark are one numeral. -/
theorem numerals_digits {digits : List Char} {mark : Char} (hne : digits ≠ [])
    (hdigits : ∀ c ∈ digits, c.isDigit = true) (hmark : mark = '.' ∨ mark = ')') :
    matchAll numeral (digits ++ [mark]) = [digits] := by
  have hnot : mark.isDigit = false := by
    obtain rfl | rfl := hmark <;> rfl
  have hgroup : ∀ before, (Pattern.seq (oneOf ".,") digit.plus).ways before [mark] = [] := by
    intro before
    obtain rfl | rfl := hmark <;> rfl
  have hfirst : (numeral.ways [] (digits ++ [mark])).head? = some (digits, [mark]) := by
    have hend : ∀ c ∈ [mark].head?, c.isDigit = false := by
      rintro c ⟨⟩
      exact hnot
    have hrun : (digit.plus.ways [] (digits ++ [mark])).head? = some (digits, [mark]) :=
      head?_plus_one hne hdigits hend []
    have hstar := star_ways_of_nil (hgroup (digits.reverse ++ []))
    have hboth : (numeral.ways [] (digits ++ [mark])).head? = some (digits ++ [], [mark]) :=
      head?_andThen hrun (by rw [hstar]; rfl)
    rwa [List.append_nil] at hboth
  have hrest : matchAll numeral [mark] = [] := by
    obtain rfl | rfl := hmark <;> decide
  rw [matchAll_of_head? numeral_within numeral_takesSome hfirst, hrest]

/-- **The number of a list is a numeral** of its own, and the only one there. -/
theorem numerals_listMarker {before after m rest : List Char}
    (h : (m, rest) ∈ listMarker.ways before after) (text : List Char) :
    matchAll numeral (m ++ text) = m.filter Char.isDigit :: matchAll numeral text := by
  obtain ⟨-, spaces, digits, mark, space, more, rfl, hspaces, hne, hdigits, hmark, hmore⟩ :=
    listMarker_way h
  obtain ⟨hspace, hmore⟩ := List.forall_mem_cons.mp hmore
  have hskip : ∀ {cs : List Char}, (∀ c ∈ cs, Search.isSpace c = true) → ∀ c ∈ cs,
      ¬ isNumeral c = true := by
    intro cs hcs c hc hnumeral
    rw [not_isNumeral_of_isSpace (hcs c hc)] at hnumeral
    cases hnumeral
  have hnone : ∀ {cs : List Char}, (∀ c ∈ cs, Search.isSpace c = true) →
      cs.filter Char.isDigit = [] := by
    intro cs hcs
    refine List.filter_eq_nil_iff.mpr (fun c hc => ?_)
    rw [not_isDigit_of_isSpace (hcs c hc)]
    exact Bool.false_ne_true
  have hmarked : [mark].filter Char.isDigit = [] := by
    obtain rfl | rfl := hmark <;> rfl
  have hfilter : (spaces ++ (digits ++ mark :: space :: more)).filter Char.isDigit = digits := by
    rw [List.filter_append, List.filter_append, ← List.singleton_append, List.filter_append,
      hnone hspaces, hmarked, hnone (List.forall_mem_cons.mpr ⟨hspace, hmore⟩),
      List.filter_eq_self.mpr hdigits]
    exact List.append_nil _
  have htext : spaces ++ (digits ++ mark :: space :: more) ++ text
      = spaces ++ ((digits ++ [mark]) ++ space :: (more ++ text)) := by
    simp only [List.append_assoc, List.cons_append, List.nil_append]
  rw [hfilter, htext, matchAll_skip numeral_within numeral_takesSome (hskip hspaces),
    numerals_space hspace, numerals_digits hne hdigits hmark,
    matchAll_skip numeral_within numeral_takesSome (hskip hmore)]
  rfl

/-- **The numerals of a text** are those that are compared, and the numbers of
its lists. -/
theorem mem_numerals_iff (text n : List Char) :
    n ∈ matchAll numeral text ↔ n ∈ matchAll numeral (factualText text) ∨
      ∃ m ∈ matchAll listMarker text, n = m.filter Char.isDigit := by
  have hfrom : ∀ (k : ℕ) (before text : List Char), text.length < k →
      (n ∈ matchAll numeral text ↔
        n ∈ matchAll numeral (replacedOf [] (piecesFrom listMarker k before text)) ∨
          ∃ m ∈ matchedOf (piecesFrom listMarker k before text), n = m.filter Char.isDigit) := by
    have hregroup : ∀ a b c d : Prop, (a ∨ b ∨ c ∨ d) ↔ ((a ∨ c) ∨ b ∨ d) := by tauto
    intro k
    -- by the length of the text: what follows a match is shorter
    induction k with
    | zero => exact fun _ _ hk => absurd hk (Nat.not_lt_zero _)
    | succ k ih =>
      intro before text hk
      obtain hkept | ⟨gap, m, rest, rfl, hm, hway, hpieces⟩ :=
        piecesFrom_cases (r := listMarker) rfl before hk
      · rw [hkept, replacedOf_map_kept, matchedOf_map_kept]
        simp
      · have hlength := List.length_pos_iff.mpr hm
        rw [List.length_append, List.length_append] at hk
        have hrest := ih (m.reverse ++ (gap.reverse ++ before)) rest (by omega)
        rw [piecesFrom_enough (r := listMarker) rfl (k := rest.length + 1) (by omega)
          (Nat.lt_succ_self _)] at hrest
        -- a match stands at the start of a line, so what is before it is apart
        have happart : ∀ tail, matchAll numeral (gap ++ tail)
            = matchAll numeral gap ++ matchAll numeral tail := by
          intro tail
          obtain rfl | ⟨line, c, rfl⟩ := List.eq_nil_or_concat' gap
          · rfl
          · have hend := isSpace_of_isLineTerminator ((listMarker_way hway).1 c (by simp))
            rw [List.append_assoc, List.singleton_append, numerals_space hend,
              numerals_space hend line [], matchAll_nil numeral_takesSome, List.append_nil]
        rw [hpieces, happart, numerals_listMarker hway, List.mem_append, List.mem_cons, hrest,
          replacedOf_append, replacedOf_map_kept, replacedOf_matched, List.nil_append, happart,
          matchedOf_append, matchedOf_map_kept, matchedOf_matched, List.nil_append,
          List.mem_append]
        simp only [List.mem_cons, exists_eq_or_imp]
        exact hregroup _ _ _ _
  exact hfrom _ [] text (Nat.lt_succ_self _)

/-! ## What an accepted draft says -/

variable {proposal : ArtifactProposal} {sources : List WorkspaceSource}

/-- The numerals of a source, of its text and of its facts. -/
def WorkspaceSource.numerals (s : WorkspaceSource) : List (List Char) :=
  matchAll numeral s.text.toList ++ matchAll numeral s.factsText

/-- **A numeral that a source has**: some numeral of a source the draft may rest
on has its value. -/
def Supported (proposal : ArtifactProposal) (sources : List WorkspaceSource) (n : List Char) :
    Prop :=
  ∃ s ∈ supporting proposal sources, ∃ m ∈ s.numerals, numberKey m = numberKey n

/-- Three digits or more. -/
def IsLong (n : List Char) : Prop := 3 ≤ n.countP Char.isDigit

/-- **No invented numbers**: every long numeral of the draft is one a source has. -/
def NoInvention (proposal : ArtifactProposal) (sources : List WorkspaceSource) : Prop :=
  ∀ text ∈ proposal.texts false, ∀ n ∈ matchAll numeral text.toList, IsLong n →
    Supported proposal sources n

instance (n : List Char) : Decidable (Supported proposal sources n) :=
  inferInstanceAs (Decidable (∃ s ∈ supporting proposal sources, ∃ m ∈ s.numerals,
    numberKey m = numberKey n))

instance (n : List Char) : Decidable (IsLong n) :=
  inferInstanceAs (Decidable (3 ≤ n.countP Char.isDigit))

instance : Decidable (NoInvention proposal sources) :=
  inferInstanceAs (Decidable (∀ text ∈ proposal.texts false,
    ∀ n ∈ matchAll numeral text.toList, IsLong n → Supported proposal sources n))

/-- **The long numbers of lists** are ones a source has. -/
def ListsSupported (proposal : ArtifactProposal) (sources : List WorkspaceSource) : Prop :=
  ∀ m ∈ matchAll listMarker (authored proposal false), IsLong m →
    Supported proposal sources (m.filter Char.isDigit)

theorem demand_bind {condition : Prop} [Decidable condition] {error : String}
    {next : Unit → Except String Unit} :
    (demand condition error >>= next) = .ok () ↔ condition ∧ next () = .ok () := by
  unfold demand
  split_ifs with h
  · exact ⟨fun hnext => ⟨h, hnext⟩, And.right⟩
  · refine ⟨fun hnext => ?_, fun hboth => absurd hboth.1 h⟩
    cases hnext

/-- The numerals of the supplied text are those of the sources. -/
theorem mem_numerals_supplied (n : List Char) :
    n ∈ matchAll numeral (supplied proposal sources) ↔
      ∃ s ∈ supporting proposal sources, n ∈ s.numerals := by
  rw [supplied, numerals_joinLines, List.flatMap_map, List.mem_flatMap]
  refine exists_congr (fun s => and_congr_right (fun _ => ?_))
  rw [numerals_space (by decide)]
  rfl

/-- **The numerals that are compared** are ones a source has. -/
theorem supported_of_accepted {humanRequirements : Bool}
    (h : validateArtifactSources proposal sources humanRequirements = .ok ()) {n : List Char}
    (hn : n ∈ matchAll numeral (factualText (authored proposal humanRequirements))) :
    Supported proposal sources n := by
  obtain ⟨-, h⟩ := demand_bind.mp h
  obtain ⟨-, h⟩ := demand_bind.mp h
  obtain ⟨hnumbers, -⟩ := demand_bind.mp h
  obtain ⟨m, hm, hkey⟩ := List.mem_map.mp (hnumbers n hn)
  obtain ⟨s, hs, hm⟩ := (mem_numerals_supplied m).mp hm
  exact ⟨s, hs, m, hm, hkey⟩

/-- **An accepted draft has no invented numbers exactly where** the long numbers
of its lists are ones a source has. -/
theorem noInvention_iff (h : validateArtifactSources proposal sources false = .ok ()) :
    NoInvention proposal sources ↔ ListsSupported proposal sources := by
  have hnumerals : ∀ n, (∃ text ∈ proposal.texts false, n ∈ matchAll numeral text.toList) ↔
      n ∈ matchAll numeral (authored proposal false) := by
    intro n
    rw [authored, numerals_joinLines, List.flatMap_map, List.mem_flatMap]
  have hlong : ∀ m : List Char, IsLong (m.filter Char.isDigit) ↔ IsLong m := by
    intro m
    rw [IsLong, IsLong, List.countP_filter]
    simp only [Bool.and_self]
  constructor
  · intro hno m hm hlarge
    obtain ⟨text, htext, hn⟩ := (hnumerals _).mpr ((mem_numerals_iff _ _).mpr (.inr ⟨m, hm, rfl⟩))
    exact hno text htext _ hn ((hlong m).mpr hlarge)
  · intro hlists text htext n hn hlarge
    obtain hn | ⟨m, hm, rfl⟩ := (mem_numerals_iff _ _).mp ((hnumerals n).mp ⟨text, htext, hn⟩)
    · exact supported_of_accepted h hn
    · exact hlists m hm ((hlong m).mp hlarge)

/-- What a client asks for. -/
def sampleSource : WorkspaceSource where
  key := "intent:1"
  type := .inquiry
  id := "1"
  audience := .internal
  text := "A flat of 120.5 sq m, up to 250,000 EUR"
  facts := [("rooms", "3")]

/-- A draft that cites it. -/
def sampleProposal (body : String) : ArtifactProposal where
  title := "Search brief"
  body := body
  citations := [⟨"intent:1", "up to 250,000 EUR"⟩]
  kind := .task

/-- A draft with a list of two lines. -/
theorem noInvention_sample :
    NoInvention (sampleProposal "1. Area 120,5 sq m\n2. Price 250000 EUR") [sampleSource] ↔
      ListsSupported (sampleProposal "1. Area 120,5 sq m\n2. Price 250000 EUR") [sampleSource] :=
  noInvention_iff (by decide +kernel)

/-- **A price at the start of a line before a full stop** is not compared. -/
theorem not_noInvention : ¬ ∀ (proposal : ArtifactProposal) (sources : List WorkspaceSource),
    validateArtifactSources proposal sources false = .ok () → NoInvention proposal sources := by
  intro h
  exact absurd (h (sampleProposal "The owner asks for\n310000. He may agree to less")
    [sampleSource] (by decide +kernel)) (by decide +kernel)

end Generative
