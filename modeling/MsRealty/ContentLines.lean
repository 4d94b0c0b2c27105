import MsRealty.JsText

/-!
# Folded content lines

How a file of content lines is read. Its text is split where a line ends, with a
carriage return and a line feed; a line that begins with a blank goes on with the
line before it; and in the text of a value a backslash stands before what would
otherwise end it, and in the place of a line feed.

A text whose lines hold no carriage return splits into them
(`splitLines_flatMap`), and a line that was broken into chunks, each but the first
with a space before it, is put together again (`joinFrom_chunks`).
-/

namespace ContentLines

open CanonicalText

/-! ## Lines -/

/-- The carriage return. -/
def cr : UInt16 := 0x0d

/-- The line feed. -/
def lf : UInt16 := 0x0a

/-- The end of a line. -/
def crlf : JsString := [cr, lf]

/-- The space. -/
def space : UInt16 := 0x20

/-- **A text split at the ends of lines.** -/
def splitLines : JsString → List JsString
  | [] => [[]]
  | [u] => [[u]]
  | u :: v :: rest =>
    if u = cr ∧ v = lf then [] :: splitLines rest
    else (splitLines (v :: rest)).modifyHead (u :: ·)

/-- Whether a line goes on with the line before it. -/
def isContinuation (line : JsString) : Bool :=
  line.head? = some space || line.head? = some 0x09

/-- The lines that begin with some part of a line. -/
def joinFrom : JsString → List JsString → List JsString
  | line, [] => [line]
  | line, next :: rest =>
    if isContinuation next then joinFrom (line ++ next.drop 1) rest else line :: joinFrom next rest

/-- **The lines as they were before they were folded.** -/
def unfoldLines : List JsString → List JsString
  | [] => []
  | line :: rest => joinFrom line rest

/-- A line that is ended is split off. -/
theorem splitLines_append {line : JsString} (h : cr ∉ line) (rest : JsString) :
    splitLines (line ++ crlf ++ rest) = line :: splitLines rest := by
  induction line with
  | nil => exact if_pos ⟨rfl, rfl⟩
  | cons u line ih =>
    have hu : u ≠ cr := fun heq => h (heq ▸ List.mem_cons_self)
    have hline : cr ∉ line := fun hmem => h (List.mem_cons_of_mem u hmem)
    -- Whatever follows, it is not the end of a line.
    have hcons : ∀ s : JsString, s ≠ [] →
        splitLines (u :: s) = (splitLines s).modifyHead (u :: ·) := by
      intro s hs
      cases s with
      | nil => exact absurd rfl hs
      | cons v s => exact if_neg fun hend => hu hend.1
    show splitLines (u :: (line ++ crlf ++ rest)) = _
    rw [hcons _ (by simp [crlf]), ih hline]
    rfl

/-- **Lines that are ended are split into themselves**, and nothing after the last
one. -/
theorem splitLines_flatMap {lines : List JsString} (h : ∀ line ∈ lines, cr ∉ line) :
    splitLines (lines.flatMap (· ++ crlf)) = lines ++ [[]] := by
  induction lines with
  | nil => rfl
  | cons line lines ih =>
    rw [List.flatMap_cons, splitLines_append (h line List.mem_cons_self),
      ih fun line hline => h line (List.mem_cons_of_mem _ hline)]
    rfl

/-- What stands between lines, and after the last one, stands after each. -/
theorem intercalate_append (last : JsString) {lines : List JsString} (h : lines ≠ []) :
    last.intercalate lines ++ last = lines.flatMap (· ++ last) := by
  induction lines with
  | nil => exact absurd rfl h
  | cons line lines ih =>
    cases lines with
    | nil => simp [List.intercalate]
    | cons next lines =>
      rw [List.flatMap_cons, ← ih (List.cons_ne_nil _ _)]
      simp [List.intercalate, List.intersperse]

/-! ## Folded lines -/

theorem joinFrom_cons {line next : JsString} (h : isContinuation next = false)
    (rest : List JsString) : joinFrom line (next :: rest) = line :: joinFrom next rest := by
  rw [joinFrom, h]
  rfl

/-- **Chunks are put together again.** -/
theorem joinFrom_chunks (line : JsString) (chunks rest : List JsString) :
    joinFrom line (chunks.map (space :: ·) ++ rest) = joinFrom (line ++ chunks.flatten) rest := by
  induction chunks generalizing line with
  | nil => simp
  | cons chunk chunks ih =>
    have hnext : isContinuation (space :: chunk) = true := rfl
    rw [List.map_cons, List.cons_append, joinFrom, if_pos hnext, ih, List.drop_one,
      List.tail_cons, List.flatten_cons, List.append_assoc]

/-- **A folded line**: the chunks of one line that begins with no blank. -/
structure Folded (line : JsString) (lines : List JsString) : Prop where
  chunks : ∃ (first : JsString) (rest : List JsString),
    lines = first :: rest.map (space :: ·) ∧ first ++ rest.flatten = line
  plain : isContinuation line = false

/-- The first chunk of a line begins no more with a blank than the line. -/
theorem not_isContinuation_of_append {first rest : JsString}
    (h : isContinuation (first ++ rest) = false) : isContinuation first = false := by
  cases first with
  | nil => rfl
  | cons u first => exact h

/-- A folded line after another one. -/
theorem joinFrom_folded {line : JsString} {lines : List JsString} (h : Folded line lines)
    (before : JsString) (rest : List JsString) :
    joinFrom before (lines ++ rest) = before :: joinFrom line rest := by
  obtain ⟨⟨first, chunks, rfl, rfl⟩, hplain⟩ := h
  rw [List.cons_append, joinFrom_cons (not_isContinuation_of_append hplain), joinFrom_chunks]

theorem joinFrom_flatMap {lines : List JsString} {f : JsString → List JsString}
    (h : ∀ line ∈ lines, Folded line (f line)) (before : JsString) :
    joinFrom before (lines.flatMap f ++ [[]]) = before :: lines ++ [[]] := by
  induction lines generalizing before with
  | nil => rfl
  | cons line lines ih =>
    rw [List.flatMap_cons, List.append_assoc, joinFrom_folded (h line List.mem_cons_self),
      ih fun line hline => h line (List.mem_cons_of_mem _ hline)]
    rfl

/-- **Folded lines are unfolded into the lines.** -/
theorem unfoldLines_flatMap {lines : List JsString} {f : JsString → List JsString}
    (h : ∀ line ∈ lines, Folded line (f line)) :
    unfoldLines (lines.flatMap f ++ [[]]) = lines ++ [[]] := by
  cases lines with
  | nil => rfl
  | cons line lines =>
    obtain ⟨first, chunks, hf, hline⟩ := (h line List.mem_cons_self).chunks
    rw [List.flatMap_cons, hf, List.append_assoc, List.cons_append, unfoldLines, joinFrom_chunks,
      hline, joinFrom_flatMap fun line hline => h line (List.mem_cons_of_mem _ hline)]

/-! ## Escapes -/

/-- **A text value without its escapes.** -/
def unescape : JsString → JsString
  | [] => []
  | [u] => [u]
  | u :: v :: rest =>
    if u = unit '\\' then
      (if v = unit 'n' ∨ v = unit 'N' then lf else v) :: unescape rest
    else u :: unescape (v :: rest)

/-- A unit that is no backslash stands for itself. -/
theorem unescape_cons {u : UInt16} (h : u ≠ unit '\\') (s : JsString) :
    unescape (u :: s) = u :: unescape s := by
  cases s with
  | nil => rfl
  | cons v s => exact if_neg h

theorem unescape_escaped (v : UInt16) (s : JsString) :
    unescape (unit '\\' :: v :: s)
      = (if v = unit 'n' ∨ v = unit 'N' then lf else v) :: unescape s :=
  if_pos rfl

end ContentLines
