import MsRealty.PercentEncoding

/-!
# The texts and paths of URLs

The parts of an `http` or `https` URL that a parser encodes: segments of the path, the query
and the fragment. Each holds only characters that its part keeps, so that it is read back as
itself; a path is the list of its segments, none of which is a dot segment
(`readPath_pathText`).
-/

namespace Urls

/-! ## Characters -/

/-- The characters outside the visible ones and the space, which every part encodes. -/
def isControl (c : Char) : Bool := c.toNat < 0x20 || 0x7e < c.toNat

/-- A slash or a backslash, which mean the same in a special URL. -/
def isSlash (c : Char) : Bool := c == '/' || c == '\\'

/-- What a segment keeps: all but the path percent-encode set, and no slash. -/
def segmentKeep (c : Char) : Bool :=
  !isControl c && !isSlash c &&
    !(['"', ' ', '#', '<', '>', '?', '^', '{', '}', Char.ofNat 0x60].contains c)

/-- What a query keeps: all but the special-query percent-encode set. -/
def queryKeep (c : Char) : Bool :=
  !isControl c && !(['"', ' ', '#', '<', '>', '\''].contains c)

/-- What a fragment keeps: all but the fragment percent-encode set. -/
def fragmentKeep (c : Char) : Bool :=
  !isControl c && !(['"', ' ', '<', '>', Char.ofNat 0x60].contains c)

/-- What a user name or a password keeps: all but the userinfo percent-encode set. -/
def userinfoKeep (c : Char) : Bool :=
  segmentKeep c && !([':', ';', '=', '@', '[', ']', '|'].contains c)

/-- The kept characters are visible. -/
theorem visible_of_not_control {c : Char} (h : isControl c = false) (hspace : c ≠ ' ') :
    0x20 < c.toNat := by
  simp only [isControl, Bool.or_eq_false_iff, decide_eq_false_iff_not] at h
  have hne : c.toNat ≠ 0x20 := fun heq => hspace (by rw [← Char.ofNat_toNat c, heq])
  omega

theorem visible_of_segmentKeep {c : Char} (h : segmentKeep c = true) : 0x20 < c.toNat := by
  simp only [segmentKeep, Bool.and_eq_true, Bool.not_eq_true'] at h
  refine visible_of_not_control h.1.1 ?_
  rintro rfl
  exact absurd h.2 (by decide)

theorem visible_of_queryKeep {c : Char} (h : queryKeep c = true) : 0x20 < c.toNat := by
  simp only [queryKeep, Bool.and_eq_true, Bool.not_eq_true'] at h
  refine visible_of_not_control h.1 ?_
  rintro rfl
  exact absurd h.2 (by decide)

theorem visible_of_fragmentKeep {c : Char} (h : fragmentKeep c = true) : 0x20 < c.toNat := by
  simp only [fragmentKeep, Bool.and_eq_true, Bool.not_eq_true'] at h
  refine visible_of_not_control h.1 ?_
  rintro rfl
  exact absurd h.2 (by decide)

/-! ## Encoded texts -/

/-- **A text that a part of a URL may be**: the part keeps all its characters. -/
structure Encoded (keep : Char → Bool) where
  text : List Char
  kept : ∀ c ∈ text, keep c = true
  deriving DecidableEq

/-- The encoding of any text. -/
def Encoded.of {keep : Char → Bool} (h : Percent.KeepsEscapes keep) (text : List Char) :
    Encoded keep :=
  ⟨Percent.encode keep text, Percent.kept_encode h text⟩

/-- **An encoded text is encoded as itself.** -/
theorem Encoded.of_text {keep : Char → Bool} (h : Percent.KeepsEscapes keep)
    (e : Encoded keep) : Encoded.of h e.text = e := by
  obtain ⟨text, hkept⟩ := e
  simp only [Encoded.of, Percent.encode_of_kept hkept]

theorem segmentKeep_escapes : Percent.KeepsEscapes segmentKeep := by decide

theorem queryKeep_escapes : Percent.KeepsEscapes queryKeep := by decide

theorem fragmentKeep_escapes : Percent.KeepsEscapes fragmentKeep := by decide

/-! ## Segments -/

/-- A segment that stands for the place itself: a dot, or a dot that is encoded. -/
def isDot (text : List Char) : Bool :=
  text.map Char.toLower = ['.'] || text.map Char.toLower = ['%', '2', 'e']

/-- A segment that stands for the place above: two dots, each of which may be encoded. -/
def isDoubleDot (text : List Char) : Bool :=
  text.map Char.toLower = ['.', '.'] || text.map Char.toLower = ['.', '%', '2', 'e'] ||
    text.map Char.toLower = ['%', '2', 'e', '.'] ||
    text.map Char.toLower = ['%', '2', 'e', '%', '2', 'e']

/-- **A segment of a path**: an encoded text that is no dot segment. -/
structure Segment extends Encoded segmentKeep where
  dot : isDot text = false
  doubleDot : isDoubleDot text = false
  deriving DecidableEq

/-- The segment without characters. -/
def Segment.empty : Segment := ⟨⟨[], fun _ h => absurd h List.not_mem_nil⟩, rfl, rfl⟩

/-- The segments after a piece of a path: those before, without the last one for a double dot,
and the piece itself if it is no dot segment. A dot segment at the end leaves an empty one. -/
def addPiece (path : List Segment) (last : Bool) (piece : List Char) : List Segment :=
  let e : Encoded segmentKeep := .of segmentKeep_escapes piece
  if hdouble : isDoubleDot e.text = true then
    path.dropLast ++ if last then [.empty] else []
  else if hdot : isDot e.text = true then path ++ if last then [.empty] else []
  else path ++ [⟨e, eq_false_of_ne_true hdot, eq_false_of_ne_true hdouble⟩]

/-- The segments after the pieces of a path. -/
def addPieces (path : List Segment) : List (List Char) → List Segment
  | [] => path
  | [piece] => addPiece path true piece
  | piece :: pieces => addPieces (addPiece path false piece) pieces

/-- **The path state of the parser**: the segments of a text, whose pieces are separated by
slashes. -/
def readPath (text : List Char) : List Segment := addPieces [] (text.splitOnP isSlash)

/-- The text of a path, a slash before each segment. -/
def pathText (path : List Segment) : List Char := path.flatMap fun s => '/' :: s.text

theorem addPiece_ne_nil (path : List Segment) (piece : List Char) :
    addPiece path true piece ≠ [] := by
  simp only [addPiece, if_true]
  split_ifs <;> simp

theorem addPieces_ne_nil {pieces : List (List Char)} (h : pieces ≠ []) (path : List Segment) :
    addPieces path pieces ≠ [] := by
  induction pieces generalizing path with
  | nil => exact absurd rfl h
  | cons piece pieces ih =>
    cases pieces with
    | nil => exact addPiece_ne_nil path piece
    | cons next pieces => exact ih (List.cons_ne_nil _ _) _

theorem readPath_ne_nil (text : List Char) : readPath text ≠ [] :=
  addPieces_ne_nil (List.splitOnP_ne_nil _ _) _

/-- A segment is added as it stands. -/
theorem addPiece_segment (path : List Segment) (last : Bool) (s : Segment) :
    addPiece path last s.text = path ++ [s] := by
  obtain ⟨e, hdot, hdouble⟩ := s
  simp only [addPiece, Encoded.of_text]
  rw [dif_neg (by rw [hdouble]; decide), dif_neg (by rw [hdot]; decide)]

theorem addPieces_segments (path segments : List Segment) :
    addPieces path (segments.map fun s => s.text) = path ++ segments := by
  induction segments generalizing path with
  | nil => rw [List.map_nil, addPieces, List.append_nil]
  | cons s segments ih =>
    cases segments with
    | nil => exact addPiece_segment path true s
    | cons next segments =>
      show addPieces (addPiece path false s.text) ((next :: segments).map fun s => s.text) = _
      rw [addPiece_segment, ih, List.append_assoc, List.singleton_append]

theorem not_isSlash_of_segment (s : Segment) : ∀ c ∈ s.text, isSlash c = false := by
  intro c hc
  have hkept := s.kept c hc
  simp only [segmentKeep, Bool.and_eq_true, Bool.not_eq_true'] at hkept
  exact hkept.1.2

/-- The pieces of a path's text are its segments. -/
theorem splitOnP_pathText (s : Segment) (path : List Segment) :
    (s.text ++ pathText path).splitOnP isSlash = s.text :: path.map fun s => s.text := by
  induction path generalizing s with
  | nil =>
    rw [pathText, List.flatMap_nil, List.append_nil, List.map_nil]
    exact List.splitOnP_eq_singleton (not_isSlash_of_segment s)
  | cons next path ih =>
    rw [pathText, List.flatMap_cons, List.cons_append,
      List.splitOnP_append_cons_of_forall_mem (not_isSlash_of_segment s) '/' (by decide)]
    rw [List.map_cons, ← ih next]
    rfl

/-- **A path is read back from its text**, without the slash that it starts with. -/
theorem readPath_pathText (s : Segment) (path : List Segment) :
    readPath (s.text ++ pathText path) = s :: path := by
  rw [readPath, splitOnP_pathText, ← List.map_cons (f := fun s : Segment => s.text),
    addPieces_segments, List.nil_append]

/-- The characters of a path's text are slashes and those of its segments. -/
theorem mem_pathText {path : List Segment} {c : Char} (h : c ∈ pathText path) :
    c = '/' ∨ segmentKeep c = true := by
  obtain ⟨s, -, hc⟩ := List.mem_flatMap.mp h
  rcases List.mem_cons.mp hc with rfl | hc
  · exact Or.inl rfl
  · exact Or.inr (s.kept c hc)

end Urls
