import Mathlib.Data.List.Infix
import Mathlib.Data.Bool.AllAny
import Mathlib.Data.List.TakeWhile
import MsRealty.DecimalText
import MsRealty.UrlPaths

/-!
# URLs

The records of `http` and `https` URLs, with the parser, the serializer and the setters that
the URL standard gives them. The parser of hosts, which rests on the tables of Unicode, is a
parameter (`HostParser`), with what is documented of the hosts that it returns.

A record carries the proofs that its parts are as the parser leaves them, so that its text is
parsed to the record itself (`parse_href`), and what one URL has for a path or a query may be
set in another one as it stands (`setPathname_pathname`, `setSearch_search`).
-/

namespace Urls

/-! ## Hosts -/

/-- A character that a host may have: a visible one that ends no host, and no capital. -/
def isHostChar (c : Char) : Bool :=
  0x20 < c.toNat && c.toNat < 0x7f && !(['/', '\\', '?', '#', '@'].contains c) && !c.isUpper

/-- **The text of a host**: a domain or an address, which has no colon and no brackets, or an
address of the sixth version, in brackets. -/
structure IsHost (text : List Char) : Prop where
  ne_nil : text ≠ []
  chars : ∀ c ∈ text, isHostChar c = true
  shape : (∀ c ∈ text, c ≠ ':' ∧ c ≠ '[') ∨
    ∃ inner, text = '[' :: inner ++ [']'] ∧ ∀ c ∈ inner, c ≠ '[' ∧ c ≠ ']'

/-- A domain of letters, dots and single hyphens, which the tables of Unicode leave as it is. -/
structure IsPlainDomain (text : List Char) : Prop where
  head : text.head?.any Char.isLower = true
  chars : ∀ c ∈ text, c.isLower = true ∨ c = '-' ∨ c = '.'
  hyphens : ¬ ['-', '-'] <:+: text

instance (text : List Char) : Decidable (IsPlainDomain text) :=
  haveI : Decidable (∀ c ∈ text, c.isLower = true ∨ c = '-' ∨ c = '.') := List.decidableBAll _ _
  decidable_of_iff (text.head?.any Char.isLower = true ∧
      (∀ c ∈ text, c.isLower = true ∨ c = '-' ∨ c = '.') ∧ ¬ ['-', '-'] <:+: text)
    ⟨fun h => ⟨h.1, h.2.1, h.2.2⟩, fun h => ⟨h.head, h.chars, h.hyphens⟩⟩

/-- **The parser of hosts**: the text of the host that a text names, if it names one. The text
of a host names the host itself, and so does a plain domain. -/
structure HostParser where
  parse : List Char → Option (List Char)
  isHost : ∀ {text host}, parse text = some host → IsHost host
  parse_host : ∀ {text host}, parse text = some host → parse host = some host
  parse_plain : ∀ {text}, IsPlainDomain text → parse text = some text

/-- A small letter ends no host, and is no capital. -/
theorem isHostChar_of_isLower {c : Char} (h : c.isLower = true) : isHostChar c = true := by
  obtain ⟨hfirst, hlast⟩ := Percent.isLower_iff.mp h
  have hupper : c.isUpper = false := by
    rw [Bool.eq_false_iff]
    intro hupper
    have hend := (Percent.isUpper_iff.mp hupper).2
    omega
  have hends : ['/', '\\', '?', '#', '@'].contains c = false := by
    rw [Bool.eq_false_iff]
    intro hmem
    simp only [List.contains_eq_mem, decide_eq_true_eq, List.mem_cons, List.not_mem_nil,
      or_false] at hmem
    rcases hmem with rfl | rfl | rfl | rfl | rfl <;> revert hfirst hlast <;> decide
  simp only [isHostChar, hupper, hends, Bool.not_false, Bool.and_true, Bool.and_eq_true,
    decide_eq_true_eq]
  omega

/-- A plain domain is the text of a host. -/
theorem IsPlainDomain.isHost {text : List Char} (h : IsPlainDomain text) : IsHost text where
  ne_nil := by
    rintro rfl
    exact absurd h.head (by decide)
  chars c hc := by
    rcases h.chars c hc with hlower | rfl | rfl
    · exact isHostChar_of_isLower hlower
    · decide
    · decide
  shape := Or.inl fun c hc => by
    rcases h.chars c hc with hlower | rfl | rfl
    · obtain ⟨hfirst, hlast⟩ := Percent.isLower_iff.mp hlower
      constructor
      · rintro rfl
        exact absurd hfirst (by decide)
      · rintro rfl
        exact absurd hfirst (by decide)
    · decide
    · decide

/-- The parser that knows plain domains only. -/
def HostParser.plain : HostParser where
  parse text := if IsPlainDomain text then some text else none
  isHost h := by
    split at h
    · rename_i hplain
      cases h
      exact hplain.isHost
    · cases h
  parse_host h := by
    split at h
    · rename_i hplain
      cases h
      rw [if_pos hplain]
    · cases h
  parse_plain h := if_pos h

/-- A host, as the parser returns it. -/
structure Host (hosts : HostParser) where
  text : List Char
  parsed : hosts.parse text = some text

variable {hosts : HostParser}

@[ext] theorem Host.ext {a b : Host hosts} (h : a.text = b.text) : a = b := by
  cases a
  cases b
  cases h
  rfl

instance : DecidableEq (Host hosts) := fun a b =>
  decidable_of_iff (a.text = b.text) ⟨Host.ext, congrArg Host.text⟩

theorem Host.isHost (host : Host hosts) : IsHost host.text := hosts.isHost host.parsed

/-- The host that a text names. -/
def HostParser.host? (hosts : HostParser) (text : List Char) : Option (Host hosts) :=
  match h : hosts.parse text with
  | none => none
  | some host => some ⟨host, hosts.parse_host h⟩

theorem HostParser.host?_text (host : Host hosts) : hosts.host? host.text = some host := by
  rw [host?]
  split
  · rename_i h
    rw [host.parsed] at h
    cases h
  · rename_i text h
    rw [host.parsed] at h
    cases h
    rfl

/-! ## Records -/

/-- The schemes of the web. -/
inductive Scheme
  | http
  | https
  deriving DecidableEq

/-- The scheme's name. -/
def Scheme.name : Scheme → List Char
  | .http => ['h', 't', 't', 'p']
  | .https => ['h', 't', 't', 'p', 's']

/-- The port that is left out. -/
def Scheme.defaultPort : Scheme → ℕ
  | .http => 80
  | .https => 443

/-- A port that a URL of the scheme writes. -/
structure Port (scheme : Scheme) where
  number : ℕ
  small : number ≤ 65535
  explicit : number ≠ scheme.defaultPort
  deriving DecidableEq

/-- The port of a number, none for the one that is left out. -/
def Port.of (scheme : Scheme) (number : ℕ) : Option (Option (Port scheme)) :=
  if hsmall : number ≤ 65535 then
    if hport : number = scheme.defaultPort then some none else some (some ⟨number, hsmall, hport⟩)
  else none

/-- **A URL.** -/
structure Url (hosts : HostParser) where
  scheme : Scheme
  username : List Char
  password : List Char
  host : Host hosts
  port : Option (Port scheme)
  path : List Segment
  path_ne : path ≠ []
  query : Option (Encoded queryKeep)
  fragment : Option (Encoded fragmentKeep)
  deriving DecidableEq

/-- The digits of a port, after its colon. -/
def portText {scheme : Scheme} : Option (Port scheme) → List Char
  | none => []
  | some port => ':' :: Nat.toDigits 10 port.number

/-- `url.host`. -/
def Url.hostText (url : Url hosts) : List Char := url.host.text ++ portText url.port

/-- `url.pathname`. -/
def Url.pathname (url : Url hosts) : List Char := pathText url.path

/-- `url.search`. -/
def Url.search (url : Url hosts) : List Char :=
  match url.query with
  | none => []
  | some query => if query.text = [] then [] else '?' :: query.text

/-- `url.hash`. -/
def Url.hash (url : Url hosts) : List Char :=
  match url.fragment with
  | none => []
  | some fragment => if fragment.text = [] then [] else '#' :: fragment.text

/-- The URL as a request sends it. -/
def Url.withoutFragment (url : Url hosts) : Url hosts := { url with fragment := none }

/-- The user name and the password, as a URL writes them. -/
def Url.credentials (url : Url hosts) : List Char :=
  if url.username = [] ∧ url.password = [] then []
  else url.username ++ (if url.password = [] then [] else ':' :: url.password) ++ ['@']

/-- **`url.href`**, and `url.toString()`. -/
def Url.href (url : Url hosts) : List Char :=
  url.scheme.name ++ ':' :: '/' :: '/' :: (url.credentials ++ (url.hostText ++ (url.pathname ++
    ((url.query.elim [] fun query => '?' :: query.text) ++
      url.fragment.elim [] fun fragment => '#' :: fragment.text))))

/-! ## The parser -/

/-- The text without tabs and line breaks. -/
def stripBreaks (text : List Char) : List Char :=
  text.filter fun c => !(['\t', '\n', '\r'].contains c)

/-- The text without control characters and spaces at its ends. -/
def trim (text : List Char) : List Char :=
  ((text.dropWhile fun c => c.toNat ≤ 0x20).reverse.dropWhile fun c => c.toNat ≤ 0x20).reverse

/-- A character that ends the authority of a special URL. -/
def endsAuthority (c : Char) : Bool := isSlash c || c == '?' || c == '#'

/-- Whether a place is inside of brackets after a character. -/
def insideAfter (inside : Bool) (c : Char) : Bool :=
  if c = '[' then true else if c = ']' then false else inside

/-- **The host state**: what stands before the first colon that is in no brackets, and what
stands from there. -/
def hostPart (inside : Bool) : List Char → List Char × List Char
  | [] => ([], [])
  | c :: rest =>
    if c = ':' ∧ inside = false then ([], c :: rest)
    else
      (c :: (hostPart (insideAfter inside c) rest).1, (hostPart (insideAfter inside c) rest).2)

/-- The port state, over all of the text. -/
def readPort (scheme : Scheme) (digits : List Char) : Option (Option (Port scheme)) :=
  if digits = [] then some none
  else if digits.all Char.isDigit then Port.of scheme (Nat.ofDigitChars 10 digits 0)
  else none

/-- The user name and the password of what stands before the last `@`. -/
def readCredentials (text : List Char) : List Char × List Char :=
  (Percent.encode userinfoKeep (text.takeWhile (· ≠ ':')),
    Percent.encode userinfoKeep ((text.dropWhile (· ≠ ':')).drop 1))

/-- The host and the port of an authority. -/
def readHost (hosts : HostParser) (scheme : Scheme) (text : List Char) :
    Option (Host hosts × Option (Port scheme)) := do
  let (name, rest) := hostPart false text
  if name = [] then none
  else
    let host ← hosts.host? name
    let port ← if rest = [] then some none else readPort scheme (rest.drop 1)
    pure (host, port)

/-- **The path, the query and the fragment** that a text without the slash before the path
stands for, in a URL with an authority. -/
def withPath (scheme : Scheme) (username password : List Char) (host : Host hosts)
    (port : Option (Port scheme)) (text : List Char) : Url hosts :=
  let path := text.takeWhile fun c => c != '?' && c != '#'
  let rest := text.dropWhile fun c => c != '?' && c != '#'
  { scheme, username, password, host, port
    path := readPath path
    path_ne := readPath_ne_nil path
    query :=
      if rest.head? = some '?' then
        some (.of queryKeep_escapes ((rest.drop 1).takeWhile (· ≠ '#')))
      else none
    fragment :=
      if (rest.dropWhile (· ≠ '#')).head? = some '#' then
        some (.of fragmentKeep_escapes ((rest.dropWhile (· ≠ '#')).drop 1))
      else none }

/-- A text without a slash that it starts with. -/
def dropSlash : List Char → List Char
  | [] => []
  | c :: rest => if isSlash c then rest else c :: rest

/-- What follows the slashes before an authority. -/
def readAuthority (hosts : HostParser) (scheme : Scheme) (text : List Char) :
    Option (Url hosts) := do
  let authority := text.takeWhile fun c => !endsAuthority c
  let rest := text.dropWhile fun c => !endsAuthority c
  let after := (authority.reverse.takeWhile (· ≠ '@')).reverse
  let (username, password) := if '@' ∈ authority then
      readCredentials (authority.take (authority.length - after.length - 1))
    else ([], [])
  let (host, port) ← readHost hosts scheme after
  pure (withPath scheme username password host port (dropSlash rest))

/-- The scheme with a name, in any case. -/
def scheme? (name : List Char) : Option Scheme :=
  if name.map Char.toLower = Scheme.http.name then some .http
  else if name.map Char.toLower = Scheme.https.name then some .https
  else none

/-- **`new URL(text)`**, for the schemes of the web; no other text is parsed to one of them. -/
def parse (hosts : HostParser) (text : List Char) : Option (Url hosts) := do
  let text := stripBreaks (trim text)
  let scheme ← scheme? (text.takeWhile (· ≠ ':'))
  let rest := text.dropWhile (· ≠ ':')
  if rest = [] then none
  else readAuthority hosts scheme ((rest.drop 1).dropWhile isSlash)

/-- **`new URL(text, base)`**, for a text that starts with a slash: a second one starts an
authority, which may be that of another host. -/
def resolve (base : Url hosts) (text : List Char) : Option (Url hosts) :=
  let rest := dropSlash (stripBreaks (trim text))
  if (rest.head?.any isSlash) = true then
    readAuthority hosts base.scheme (rest.dropWhile isSlash)
  else
    some (withPath base.scheme base.username base.password base.host base.port rest)

/-! ## The setters -/

/-- `url.pathname = text`: a question mark or a hash is part of the path. -/
def Url.setPathname (url : Url hosts) (text : List Char) : Url hosts :=
  { url with
    path := readPath (dropSlash (stripBreaks text))
    path_ne := readPath_ne_nil _ }

/-- `url.search = text`: a hash is part of the query. -/
def Url.setSearch (url : Url hosts) (text : List Char) : Url hosts :=
  { url with
    query :=
      if text = [] then none
      else
        let query := if text.head? = some '?' then text.drop 1 else text
        some (.of queryKeep_escapes (stripBreaks query)) }

/-- **`url.host = text`.** A text without a port leaves the one that the URL has. -/
def Url.setHost (url : Url hosts) (text : List Char) : Url hosts :=
  let (name, rest) := hostPart false ((stripBreaks text).takeWhile fun c => !endsAuthority c)
  if name = [] then url
  else
    match hosts.host? name with
    | none => url
    | some host =>
      let digits := (rest.drop 1).takeWhile Char.isDigit
      if digits = [] then { url with host }
      else
        match Port.of url.scheme (Nat.ofDigitChars 10 digits 0) with
        | none => { url with host }
        | some port => { url with host, port }

/-! ## Texts without blanks -/

theorem trim_of_visible {text : List Char} (h : ∀ c ∈ text, 0x20 < c.toNat) : trim text = text := by
  have hdrop {l : List Char} (hl : ∀ c ∈ l, 0x20 < c.toNat) :
      (l.dropWhile fun c => c.toNat ≤ 0x20) = l := by
    cases l with
    | nil => rfl
    | cons c l =>
      rw [List.dropWhile_cons_of_neg]
      have hc := hl c List.mem_cons_self
      simp only [decide_eq_true_eq]
      omega
  rw [trim, hdrop h, hdrop fun c hc => h c (List.mem_reverse.mp hc), List.reverse_reverse]

theorem stripBreaks_of_visible {text : List Char} (h : ∀ c ∈ text, 0x20 < c.toNat) :
    stripBreaks text = text := by
  refine List.filter_eq_self.mpr fun c hc => ?_
  have hvisible := h c hc
  simp only [Bool.not_eq_true', List.contains_eq_mem, decide_eq_false_iff_not]
  intro hmem
  simp only [List.mem_cons, List.not_mem_nil, or_false] at hmem
  rcases hmem with rfl | rfl | rfl
  · exact absurd hvisible (by decide)
  · exact absurd hvisible (by decide)
  · exact absurd hvisible (by decide)

/-- A text is taken up to the first character that is not of its kind. -/
theorem span_append {p : Char → Bool} {text tail : List Char} (h : ∀ c ∈ text, p c = true)
    (htail : ∀ c ∈ tail.head?, p c = false) :
    (text ++ tail).takeWhile p = text ∧ (text ++ tail).dropWhile p = tail := by
  rw [List.takeWhile_append_of_pos h, List.dropWhile_append_of_pos h]
  cases tail with
  | nil => simp
  | cons c tail =>
    have hc : ¬ p c = true := by simp [htail c rfl]
    rw [List.takeWhile_cons_of_neg hc, List.dropWhile_cons_of_neg hc, List.append_nil]
    exact ⟨rfl, rfl⟩

/-! ## Authorities -/

theorem IsHost.visible {text : List Char} (h : IsHost text) {c : Char} (hc : c ∈ text) :
    0x20 < c.toNat ∧ endsAuthority c = false ∧ c ≠ '@' ∧ c.isUpper = false := by
  have hchar := h.chars c hc
  simp only [isHostChar, Bool.and_eq_true, Bool.not_eq_true', decide_eq_true_eq] at hchar
  refine ⟨hchar.1.1.1, ?_, ?_, hchar.2⟩
  · rw [Bool.eq_false_iff]
    intro hend
    simp only [endsAuthority, isSlash, Bool.or_eq_true, beq_iff_eq] at hend
    rcases hend with ((rfl | rfl) | rfl) | rfl <;> exact absurd hchar.1.2 (by decide)
  · rintro rfl
    exact absurd hchar.1.2 (by decide)

theorem hostPart_domain {text : List Char} (h : ∀ c ∈ text, c ≠ ':' ∧ c ≠ '[') {rest : List Char}
    (hrest : ∀ c ∈ rest.head?, c = ':') : hostPart false (text ++ rest) = (text, rest) := by
  induction text with
  | nil =>
    cases rest with
    | nil => rfl
    | cons c rest =>
      obtain rfl := hrest c rfl
      rfl
  | cons c text ih =>
    rw [List.forall_mem_cons] at h
    have hinside : insideAfter false c = false := by rw [insideAfter, if_neg h.1.2, ite_self]
    rw [List.cons_append, hostPart, if_neg fun hc => h.1.1 hc.1, hinside, ih h.2]

theorem hostPart_brackets {inner : List Char} (h : ∀ c ∈ inner, c ≠ '[' ∧ c ≠ ']')
    {rest : List Char} (hrest : ∀ c ∈ rest.head?, c = ':') :
    hostPart true (inner ++ ']' :: rest) = (inner ++ [']'], rest) := by
  induction inner with
  | nil =>
    have hnone := hostPart_domain (fun c hc => absurd hc List.not_mem_nil) hrest
    rw [List.nil_append] at hnone
    rw [List.nil_append, hostPart, if_neg (by simp), show insideAfter true ']' = false from rfl,
      hnone, List.nil_append]
  | cons c inner ih =>
    rw [List.forall_mem_cons] at h
    have hinside : insideAfter true c = true := by
      rw [insideAfter, if_neg h.1.1, if_neg h.1.2]
    rw [List.cons_append, hostPart, if_neg (by simp), hinside, ih h.2, List.cons_append]

/-- **A host ends where its port starts.** -/
theorem hostPart_host {text : List Char} (h : IsHost text) {rest : List Char}
    (hrest : ∀ c ∈ rest.head?, c = ':') : hostPart false (text ++ rest) = (text, rest) := by
  rcases h.shape with hdomain | ⟨inner, rfl, hinner⟩
  · exact hostPart_domain hdomain hrest
  · have hinside := hostPart_brackets hinner hrest
    rw [List.cons_append, List.cons_append, List.append_assoc, List.singleton_append, hostPart,
      if_neg (by simp), show insideAfter false '[' = true from rfl, hinside]

theorem head?_portText {scheme : Scheme} (port : Option (Port scheme)) :
    ∀ c ∈ (portText port).head?, c = ':' := by
  cases port with
  | none => simp [portText]
  | some port => simp [portText]

/-- The digits of a port are read as the port. -/
theorem readPort_portText {scheme : Scheme} (port : Port scheme) :
    readPort scheme ((portText (some port)).drop 1) = some (some port) := by
  have hdigits : (Nat.toDigits 10 port.number).all Char.isDigit = true :=
    List.all_eq_true.mpr fun c hc => Nat.isDigit_of_mem_toDigits (by decide) (by decide) hc
  rw [portText, List.drop_succ_cons, List.drop_zero, readPort, if_neg Nat.toDigits_ne_nil,
    if_pos hdigits, Nat.ofDigitChars_ten_toDigits, Port.of, dif_pos port.small,
    dif_neg port.explicit]

/-- **A host and a port are read back from their text.** -/
theorem readHost_hostText (host : Host hosts) {scheme : Scheme} (port : Option (Port scheme)) :
    readHost hosts scheme (host.text ++ portText port) = some (host, port) := by
  rw [readHost, hostPart_host host.isHost (head?_portText port)]
  simp only [if_neg host.isHost.ne_nil, HostParser.host?_text]
  cases port with
  | none => rfl
  | some port =>
    have hne : portText (some port) ≠ [] := by simp [portText]
    simp only [if_neg hne, readPort_portText]
    rfl

/-! ## Round trips -/

/-- The text of a query and of a fragment. -/
def tailText (query : Option (Encoded queryKeep)) (fragment : Option (Encoded fragmentKeep)) :
    List Char :=
  (query.elim [] fun query => '?' :: query.text) ++
    fragment.elim [] fun fragment => '#' :: fragment.text

theorem head?_tailText (query : Option (Encoded queryKeep))
    (fragment : Option (Encoded fragmentKeep)) :
    ∀ c ∈ (tailText query fragment).head?, c = '?' ∨ c = '#' := by
  cases query <;> cases fragment <;> simp [tailText]

theorem not_mem_query (query : Encoded queryKeep) : ∀ c ∈ query.text, decide (c ≠ '#') = true := by
  intro c hc
  rw [decide_eq_true_eq]
  rintro rfl
  exact absurd (query.kept _ hc) (by decide)

/-- A query and a fragment are told apart by the hash. -/
theorem span_query (query : Encoded queryKeep) (fragment : Option (Encoded fragmentKeep)) :
    ((tailText (some query) fragment).drop 1).takeWhile (· ≠ '#') = query.text ∧
      (tailText (some query) fragment).dropWhile (· ≠ '#') = tailText none fragment := by
  have hend : ∀ c ∈ (tailText none fragment).head?, decide (c ≠ '#') = false := by
    cases fragment <;> simp [tailText]
  obtain ⟨htake, hdrop⟩ := span_append (not_mem_query query) hend
  exact ⟨htake, hdrop⟩

/-- **The path, the query and the fragment are read back from their text.** -/
theorem withPath_text (scheme : Scheme) (username password : List Char) (host : Host hosts)
    (port : Option (Port scheme)) (s : Segment) (path : List Segment)
    (query : Option (Encoded queryKeep)) (fragment : Option (Encoded fragmentKeep)) :
    withPath scheme username password host port
        (s.text ++ pathText path ++ tailText query fragment) =
      ⟨scheme, username, password, host, port, s :: path, List.cons_ne_nil _ _, query,
        fragment⟩ := by
  have hpath : ∀ c ∈ s.text ++ pathText path, (c != '?' && c != '#') = true := by
    intro c hc
    have hkept : c = '/' ∨ segmentKeep c = true := by
      rcases List.mem_append.mp hc with hc | hc
      · exact Or.inr (s.kept c hc)
      · exact mem_pathText hc
    rw [Bool.and_eq_true, bne_iff_ne, bne_iff_ne]
    constructor
    · rintro rfl
      exact absurd hkept (by decide)
    · rintro rfl
      exact absurd hkept (by decide)
  have htail : ∀ c ∈ (tailText query fragment).head?, (c != '?' && c != '#') = false := by
    intro c hc
    rcases head?_tailText query fragment c hc with rfl | rfl
    · rfl
    · rfl
  obtain ⟨htake, hdrop⟩ := span_append hpath htail
  simp only [withPath, htake, hdrop, readPath_pathText]
  congr 1
  · -- the query
    cases query with
    | none => cases fragment <;> simp [tailText]
    | some query =>
      rw [(span_query query fragment).1, Encoded.of_text]
      rfl
  · -- the fragment
    have hdrop : (tailText query fragment).dropWhile (· ≠ '#') = tailText none fragment := by
      cases query with
      | none => cases fragment <;> simp [tailText]
      | some query => exact (span_query query fragment).2
    rw [hdrop]
    cases fragment with
    | none => rfl
    | some fragment =>
      simp only [tailText, Option.elim_none, Option.elim_some, List.nil_append, List.head?_cons,
        if_true, List.drop_succ_cons, List.drop_zero, Encoded.of_text]

theorem mem_hostText {host : Host hosts} {scheme : Scheme} {port : Option (Port scheme)} {c : Char}
    (h : c ∈ host.text ++ portText port) : c ∈ host.text ∨ c = ':' ∨ c.isDigit = true := by
  rcases List.mem_append.mp h with h | h
  · exact Or.inl h
  · cases port with
    | none => exact absurd h List.not_mem_nil
    | some port =>
      rcases List.mem_cons.mp h with rfl | h
      · exact Or.inr (Or.inl rfl)
      · exact Or.inr (Or.inr (Nat.isDigit_of_mem_toDigits (by decide) (by decide) h))

/-- The text of a host and a port goes on in the authority. -/
theorem hostText_chars {host : Host hosts} {scheme : Scheme} {port : Option (Port scheme)}
    {c : Char} (h : c ∈ host.text ++ portText port) :
    0x20 < c.toNat ∧ endsAuthority c = false ∧ c ≠ '@' := by
  rcases mem_hostText h with h | rfl | h
  · obtain ⟨hvisible, hends, hat, -⟩ := host.isHost.visible h
    exact ⟨hvisible, hends, hat⟩
  · decide
  · obtain ⟨hfirst, hlast⟩ : 48 ≤ c.toNat ∧ c.toNat ≤ 57 := Char.isDigit_iff_toNat.mp h
    refine ⟨by omega, ?_, ?_⟩
    · rw [Bool.eq_false_iff]
      intro hend
      simp only [endsAuthority, isSlash, Bool.or_eq_true, beq_iff_eq] at hend
      rcases hend with ((rfl | rfl) | rfl) | rfl <;> revert hfirst hlast <;> decide
    · rintro rfl
      exact absurd hlast (by decide)

/-- **The authority is read back from its text.** -/
theorem readAuthority_text (url : Url hosts) (hname : url.username = [])
    (hpassword : url.password = []) :
    readAuthority hosts url.scheme (url.hostText ++ (url.pathname ++
      tailText url.query url.fragment)) = some url := by
  obtain ⟨scheme, username, password, host, port, path, hpath, query, fragment⟩ := url
  cases hname
  cases hpassword
  cases path with
  | nil => exact absurd rfl hpath
  | cons s path =>
    -- the path starts with a slash, which ends the authority
    set url : Url hosts := ⟨scheme, [], [], host, port, s :: path, hpath, query, fragment⟩
      with hurl
    have hstop : ∀ c ∈ (url.pathname ++ tailText query fragment).head?,
        (!endsAuthority c) = false := by
      intro c hc
      cases hc
      rfl
    have hgo : ∀ c ∈ url.hostText, (!endsAuthority c) = true := fun c hc => by
      rw [(hostText_chars hc).2.1, Bool.not_false]
    obtain ⟨htake, hdrop⟩ := span_append hgo hstop
    have hat : '@' ∉ url.hostText := fun hmem => (hostText_chars hmem).2.2 rfl
    have hafter : (url.hostText.reverse.takeWhile (· ≠ '@')).reverse = url.hostText := by
      rw [List.takeWhile_eq_self_iff.mpr, List.reverse_reverse]
      intro c hc
      exact decide_eq_true (hostText_chars (List.mem_reverse.mp hc)).2.2
    have hhost : readHost hosts scheme url.hostText = some (host, port) := readHost_hostText host port
    have hpathname : dropSlash (url.pathname ++ tailText query fragment) =
        s.text ++ pathText path ++ tailText query fragment := by
      rfl
    simp only [readAuthority]
    rw [htake, hdrop, hafter, if_neg hat, hhost, hpathname]
    simp only [Option.bind_eq_bind, Option.bind_some, withPath_text]
    rfl

/-- What follows the scheme and the slashes, in a URL without credentials. -/
def Url.afterSlashes (url : Url hosts) : List Char :=
  url.hostText ++ (url.pathname ++ tailText url.query url.fragment)

theorem visible_afterSlashes (url : Url hosts) : ∀ c ∈ url.afterSlashes, 0x20 < c.toNat := by
  intro c hc
  rcases List.mem_append.mp hc with hc | hc
  · exact (hostText_chars hc).1
  rcases List.mem_append.mp hc with hc | hc
  · rcases mem_pathText hc with rfl | hkept
    · decide
    · exact visible_of_segmentKeep hkept
  rcases List.mem_append.mp hc with hc | hc
  · cases hquery : url.query with
    | none => simp [hquery] at hc
    | some query =>
      rw [hquery] at hc
      rcases List.mem_cons.mp hc with rfl | hc
      · decide
      · exact visible_of_queryKeep (query.kept c hc)
  · cases hfragment : url.fragment with
    | none => simp [hfragment] at hc
    | some fragment =>
      rw [hfragment] at hc
      rcases List.mem_cons.mp hc with rfl | hc
      · decide
      · exact visible_of_fragmentKeep (fragment.kept c hc)

/-- The authority starts with no slash. -/
theorem dropWhile_afterSlashes (url : Url hosts) :
    url.afterSlashes.dropWhile isSlash = url.afterSlashes := by
  cases htext : url.host.text with
  | nil => exact absurd htext url.host.isHost.ne_nil
  | cons c text =>
    have hc : c ∈ url.hostText := by
      rw [Url.hostText, htext]
      exact List.mem_append_left _ List.mem_cons_self
    have hends := (hostText_chars hc).2.1
    have hslash : ¬ isSlash c = true := fun h => by simp [endsAuthority, h] at hends
    rw [Url.afterSlashes, Url.hostText, htext, List.cons_append, List.cons_append,
      List.dropWhile_cons_of_neg hslash]

/-- **A URL without credentials is parsed from its text.** -/
theorem parse_href (url : Url hosts) (hname : url.username = []) (hpassword : url.password = []) :
    parse hosts url.href = some url := by
  have hread : readAuthority hosts url.scheme url.afterSlashes = some url :=
    readAuthority_text url hname hpassword
  have hhref : url.href = url.scheme.name ++ ':' :: '/' :: '/' :: url.afterSlashes := by
    rw [Url.href, Url.credentials, if_pos ⟨hname, hpassword⟩, List.nil_append]
    rfl
  have hscheme : (∀ c ∈ url.scheme.name, decide (c ≠ ':') = true) ∧
      (∀ c ∈ url.scheme.name, 0x20 < c.toNat) ∧ scheme? url.scheme.name = some url.scheme := by
    cases url.scheme with
    | http => exact ⟨List.all_eq_true.mp rfl, List.all_iff_forall_prop.mp rfl, rfl⟩
    | https => exact ⟨List.all_eq_true.mp rfl, List.all_iff_forall_prop.mp rfl, rfl⟩
  obtain ⟨hcolon, hschemeVisible, hscheme⟩ := hscheme
  have hvisible : ∀ c ∈ url.href, 0x20 < c.toNat := by
    rw [hhref]
    simp only [List.mem_append, List.mem_cons]
    rintro c (hc | rfl | rfl | rfl | hc)
    · exact hschemeVisible c hc
    · decide
    · decide
    · decide
    · exact visible_afterSlashes url c hc
  have hstop : ∀ c ∈ (':' :: '/' :: '/' :: url.afterSlashes).head?, decide (c ≠ ':') = false := by
    simp
  obtain ⟨htake, hdrop⟩ := span_append hcolon hstop
  have hslashes : (('/' :: '/' :: url.afterSlashes).dropWhile isSlash) = url.afterSlashes := by
    rw [List.dropWhile_cons_of_pos rfl, List.dropWhile_cons_of_pos rfl, dropWhile_afterSlashes]
  rw [parse, trim_of_visible hvisible, stripBreaks_of_visible hvisible, hhref]
  simp only [htake, hdrop, hscheme, List.drop_succ_cons, List.drop_zero, hslashes]
  rw [Option.bind_eq_bind, Option.bind_some, if_neg (List.cons_ne_nil _ _), hread]

/-! ## What one URL takes from another -/

/-- **The path of a URL is set as it stands.** -/
theorem setPathname_pathname (url other : Url hosts) :
    (url.setPathname other.pathname).path = other.path := by
  have hvisible : ∀ c ∈ pathText other.path, 0x20 < c.toNat := by
    intro c hc
    rcases mem_pathText hc with rfl | hkept
    · decide
    · exact visible_of_segmentKeep hkept
  show readPath (dropSlash (stripBreaks (pathText other.path))) = other.path
  rw [stripBreaks_of_visible hvisible]
  cases hpath : other.path with
  | nil => exact absurd hpath other.path_ne
  | cons s path => exact readPath_pathText s path

/-- **The query of a URL is set as it stands**, but for an empty one, which is left out. -/
theorem search_setSearch (url other : Url hosts) :
    (url.setSearch other.search).search = other.search := by
  cases hquery : other.query with
  | none => simp [Url.search, Url.setSearch, hquery]
  | some query =>
    by_cases hempty : query.text = []
    · simp [Url.search, Url.setSearch, hquery, hempty]
    · have hvisible : ∀ c ∈ query.text, 0x20 < c.toNat := fun c hc =>
        visible_of_queryKeep (query.kept c hc)
      simp [Url.search, Url.setSearch, hquery, hempty, stripBreaks_of_visible hvisible,
        Encoded.of_text]

/-- **The host of a URL is set**; the port is, if the text has one. -/
theorem setHost_text (url : Url hosts) (host : Host hosts) (port : Option (Port url.scheme)) :
    url.setHost (host.text ++ portText port) = { url with host, port := port <|> url.port } := by
  have hstrip : stripBreaks (host.text ++ portText port) = host.text ++ portText port :=
    stripBreaks_of_visible fun c hc => (hostText_chars hc).1
  have htake : ((host.text ++ portText port).takeWhile fun c => !endsAuthority c) =
      host.text ++ portText port := by
    refine List.takeWhile_eq_self_iff.mpr fun c hc => ?_
    rw [(hostText_chars hc).2.1, Bool.not_false]
  rw [Url.setHost, hstrip, htake, hostPart_host host.isHost (head?_portText port)]
  simp only [if_neg host.isHost.ne_nil, HostParser.host?_text]
  cases port with
  | none => rfl
  | some port =>
    have hdigits : (((portText (some port)).drop 1).takeWhile Char.isDigit) =
        Nat.toDigits 10 port.number := by
      refine List.takeWhile_eq_self_iff.mpr fun c hc => ?_
      exact Nat.isDigit_of_mem_toDigits (by decide) (by decide) hc
    simp only [hdigits, if_neg Nat.toDigits_ne_nil, Nat.ofDigitChars_ten_toDigits, Port.of,
      dif_pos port.small, dif_neg port.explicit]
    rfl

end Urls
