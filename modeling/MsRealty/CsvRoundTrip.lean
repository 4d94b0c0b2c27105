import Mathlib.Data.List.Infix
import MsRealty.Csv

/-!
# CSV tables are read back

A table is written cell by cell: within quotes, with the quotes of the cell doubled,
or bare when nothing in the cell needs quotes. Cells are joined by the delimiter, every
row ends as it likes – LF, CR LF or CR – and the last one may have no ending at all.
The parser reads the table back from any such text within its limits.

The proof follows the text: a cell, a row of cells, a row with its ending, the rows.
Each step says where the walk is behind what was written.
-/

namespace Csv

/-! ## Writing -/

/-- A cell, and whether it is written within quotes. -/
structure Field where
  text : Text
  quoted : Bool

/-- A text with its quotes doubled. -/
def doubled : Text → Text
  | [] => []
  | c :: rest => if c = quote then quote :: quote :: doubled rest else c :: doubled rest

/-- A cell as it is written. -/
def Field.written (f : Field) : Text :=
  if f.quoted then quote :: (doubled f.text ++ [quote]) else f.text

/-- What a bare cell must not have. -/
def isSpecial (delimiter : CsvDelimiter) (c : UInt16) : Bool :=
  c == delimiter.char || c == quote || c == cr || c == lf

/-- A cell that may be written as it is: it is quoted, or nothing in it is special. -/
def Field.Plain (delimiter : CsvDelimiter) (f : Field) : Prop :=
  f.quoted = true ∨ f.text ≠ [] ∧ ∀ c ∈ f.text, isSpecial delimiter c = false

/-- The endings of a row. -/
inductive LineEnd where
  | lf
  | crlf
  | cr

/-- The text of an ending. -/
def LineEnd.text : LineEnd → Text
  | lf => [Csv.lf]
  | crlf => [Csv.cr, Csv.lf]
  | cr => [Csv.cr]

/-- A row, and how it ends. -/
structure Line where
  fields : List Field
  ending : LineEnd

/-- The cells of a row. -/
def Line.cells (line : Line) : List Text := line.fields.map Field.text

/-- Cells joined by the delimiter. -/
def joined (delimiter : CsvDelimiter) : List Field → Text
  | [] => []
  | [f] => f.written
  | f :: g :: rest => f.written ++ delimiter.char :: joined delimiter (g :: rest)

/-- Rows with their endings; the last one may go without. -/
def linesText (delimiter : CsvDelimiter) (ended : Bool) : List Line → Text
  | [] => []
  | [line] => joined delimiter line.fields ++ (if ended then line.ending.text else [])
  | line :: next :: rest =>
    joined delimiter line.fields ++ (line.ending.text ++ linesText delimiter ended (next :: rest))

/-- **A written file**: its rows, whether it begins with a byte order mark, and whether
its last row has an ending. -/
structure File where
  bom : Bool
  lines : List Line
  ended : Bool

/-- The text of a file. -/
def File.text (delimiter : CsvDelimiter) (file : File) : Text :=
  (if file.bom then [Csv.bom] else []) ++ linesText delimiter file.ended file.lines

/-- The table of a file. -/
def File.table (file : File) : List (List Text) := file.lines.map Line.cells

/-- **The way tables are written**: cells are bare only when nothing in them needs
quotes, and a bare cell at the beginning does not look like a byte order mark. -/
structure File.Written (delimiter : CsvDelimiter) (file : File) : Prop where
  plain : ∀ line ∈ file.lines, ∀ f ∈ line.fields, f.Plain delimiter
  first : ∀ line f, file.lines.head? = some line → line.fields.head? = some f →
    f.quoted = true ∨ f.text.head? ≠ some Csv.bom

/-- **The tables the parser admits**: within its limits, without control characters, with
two rows or more and a header that is not blank. -/
structure Admitted (table : List (List Text)) (source : Text) : Prop where
  bytes : byteLength source ≤ csvLimits.bytes
  rows : table.length ≤ csvLimits.rows + 1
  columns : ∀ row ∈ table, row.length ≤ csvLimits.columns
  cell : ∀ row ∈ table, ∀ cell ∈ row, cell.length ≤ csvLimits.cell
  control : ∀ row ∈ table, ∀ cell ∈ row, ∀ c ∈ cell, isForbidden c = false
  two : 2 ≤ table.length
  header : ∃ headers, table.head? = some headers ∧ ∃ cell ∈ headers, isBlank cell = false

/-! ## A cell -/

section walk

variable {delimiter : CsvDelimiter}

theorem quote_ne_char (delimiter : CsvDelimiter) : quote ≠ delimiter.char := by
  cases delimiter <;> decide

/-- A character outside quotes that is not special joins the cell. -/
theorem plainStep_bare {c : UInt16} (hc : isSpecial delimiter c = false) {next : Option UInt16}
    {s : State} (hmode : s.mode = .plain) :
    plainStep [delimiter.char] c next s = .ok ({ s with cell := s.cell ++ [c] }, false) := by
  simp only [isSpecial, Bool.or_eq_false_iff, beq_eq_false_iff_ne] at hc
  obtain ⟨⟨⟨hdelimiter, hquote⟩, hcr⟩, hlf⟩ := hc
  rw [plainStep, if_neg (by simpa using hdelimiter), if_neg (by simp [hcr, hlf]),
    if_neg (fun h => hquote h.1), if_neg (by simp [hmode, hquote])]

/-- One pass outside quotes over a character that joins the cell. -/
theorem scan_bare_cons {c : UInt16} (hc : isSpecial delimiter c = false) (rest : Text) {s : State}
    (hmode : s.mode = .plain) (hroom : s.cell.length + 1 ≤ csvLimits.cell) :
    scan [delimiter.char] false (c :: rest) s
      = scan [delimiter.char] false rest { s with cell := s.cell ++ [c] } := by
  rw [scan, step, if_neg (by rw [hmode]; decide), plainStep_bare hc hmode]
  show (if csvLimits.cell < (s.cell ++ [c]).length then _ else _) >>= _ = _
  rw [if_neg (by rw [List.length_append, List.length_singleton]; omega)]
  rfl

/-- **A bare cell is read as it is.** -/
theorem scan_bare {text : Text} (htext : ∀ c ∈ text, isSpecial delimiter c = false) (rest : Text)
    {s : State} (hmode : s.mode = .plain)
    (hroom : s.cell.length + text.length ≤ csvLimits.cell) :
    scan [delimiter.char] false (text ++ rest) s
      = scan [delimiter.char] false rest { s with cell := s.cell ++ text } := by
  induction text generalizing s with
  | nil => rw [List.nil_append, List.append_nil]
  | cons c text ih =>
    obtain ⟨hc, htext⟩ := List.forall_mem_cons.mp htext
    rw [List.length_cons] at hroom
    rw [List.cons_append, scan_bare_cons hc _ hmode (by omega),
      ih (s := { s with cell := s.cell ++ [c] }) htext hmode]
    · simp only [List.append_assoc, List.singleton_append]
    · rw [List.length_append, List.length_singleton]
      omega

/-- One pass inside quotes over a character that is not a quote. -/
theorem scan_quoted_cons {c : UInt16} (hc : c ≠ quote) (rest : Text) {s : State}
    (hmode : s.mode = .quoted) (hroom : s.cell.length + 1 ≤ csvLimits.cell) :
    scan [delimiter.char] false (c :: rest) s
      = scan [delimiter.char] false rest { s with cell := s.cell ++ [c] } := by
  rw [scan, step, if_pos hmode, quotedStep, if_neg hc]
  show (if csvLimits.cell < (s.cell ++ [c]).length then _ else _) >>= _ = _
  rw [if_neg (by rw [List.length_append, List.length_singleton]; omega)]
  rfl

/-- One pass inside quotes over a doubled quote, which consumes both. -/
theorem scan_quoted_pair (rest : Text) {s : State} (hmode : s.mode = .quoted)
    (hroom : s.cell.length + 1 ≤ csvLimits.cell) :
    scan [delimiter.char] false (quote :: quote :: rest) s
      = scan [delimiter.char] false rest { s with cell := s.cell ++ [quote] } := by
  rw [scan, step, if_pos hmode, quotedStep, if_pos rfl, if_pos List.head?_cons]
  show (if csvLimits.cell < (s.cell ++ [quote]).length then _ else _) >>= _ = _
  rw [if_neg (by rw [List.length_append, List.length_singleton]; omega)]
  rfl

/-- The quote that closes a cell: no other follows. -/
theorem scan_quoted_close {rest : Text} (hrest : rest.head? ≠ some quote) {s : State}
    (hmode : s.mode = .quoted) (hroom : s.cell.length ≤ csvLimits.cell) :
    scan [delimiter.char] false (quote :: rest) s
      = scan [delimiter.char] false rest { s with mode := .closed } := by
  rw [scan, step, if_pos hmode, quotedStep, if_pos rfl, if_neg hrest]
  show (if csvLimits.cell < s.cell.length then _ else _) >>= _ = _
  rw [if_neg (by omega)]
  rfl

/-- **A quoted cell is read without its quotes.** -/
theorem scan_quoted {text rest : Text} (hrest : rest.head? ≠ some quote) {s : State}
    (hmode : s.mode = .quoted) (hroom : s.cell.length + text.length ≤ csvLimits.cell) :
    scan [delimiter.char] false (doubled text ++ quote :: rest) s
      = scan [delimiter.char] false rest { s with cell := s.cell ++ text, mode := .closed } := by
  induction text generalizing s with
  | nil =>
    rw [doubled, List.nil_append, scan_quoted_close hrest hmode (by simpa using hroom),
      List.append_nil]
  | cons c text ih =>
    rw [List.length_cons] at hroom
    have hnext : (s.cell ++ [c]).length + text.length ≤ csvLimits.cell := by
      rw [List.length_append, List.length_singleton]
      omega
    rw [doubled]
    split
    · next hc =>
      rw [List.cons_append, List.cons_append, scan_quoted_pair _ hmode (by omega)]
      rw [hc] at hnext ⊢
      rw [ih (s := { s with cell := s.cell ++ [quote] }) hmode hnext]
      simp only [List.append_assoc, List.singleton_append]
    · next hc =>
      rw [List.cons_append, scan_quoted_cons hc _ hmode (by omega),
        ih (s := { s with cell := s.cell ++ [c] }) hmode hnext]
      simp only [List.append_assoc, List.singleton_append]

/-- Where the walk is behind a cell. -/
def State.holding (s : State) (f : Field) : State :=
  { s with cell := f.text, mode := if f.quoted then .closed else .plain }

/-- **A cell is read back**, up to what follows it. -/
theorem scan_field {f : Field} (hplain : f.Plain delimiter)
    (hroom : f.text.length ≤ csvLimits.cell) {rest : Text} (hrest : rest.head? ≠ some quote)
    {s : State} (hcell : s.cell = []) (hmode : s.mode = .plain) :
    scan [delimiter.char] false (f.written ++ rest) s
      = scan [delimiter.char] false rest (s.holding f) := by
  have hlength : s.cell.length + f.text.length ≤ csvLimits.cell := by
    rw [hcell, List.length_nil, Nat.zero_add]
    exact hroom
  unfold Field.written State.holding
  cases hquoted : f.quoted with
  | true =>
    have hopen : scan [delimiter.char] false (quote :: (doubled f.text ++ quote :: rest)) s
        = scan [delimiter.char] false (doubled f.text ++ quote :: rest)
          { s with mode := .quoted } := by
      rw [scan, step, if_neg (by rw [hmode]; decide), plainStep,
        if_neg (by simpa using quote_ne_char delimiter), if_neg (by decide),
        if_pos ⟨rfl, hcell, hmode⟩]
      show (if csvLimits.cell < s.cell.length then _ else _) >>= _ = _
      rw [if_neg (by omega)]
      rfl
    rw [if_pos rfl, List.cons_append, List.append_assoc, List.singleton_append, hopen,
      scan_quoted (s := { s with mode := .quoted }) hrest rfl hlength]
    simp only [hcell, List.nil_append, if_pos]
  | false =>
    have hbare : ∀ c ∈ f.text, isSpecial delimiter c = false := by
      rcases hplain with h | h
      · exact absurd (hquoted.symm.trans h) (by decide)
      · exact h.2
    rw [if_neg (by decide), scan_bare hbare rest hmode hlength]
    simp only [hcell, List.nil_append, Bool.false_eq_true, if_false, hmode]

/-! ## A row -/

/-- **The walk is at the end of a row**, which would make `records`. -/
structure State.Ready (s : State) (records : List (List Text)) : Prop where
  row : s.addRow = .ok (.after records)
  pending : s.cell ≠ [] ∨ s.row ≠ [] ∨ s.mode = .closed
  outside : s.mode ≠ .quoted

theorem mode_holding_ne (s : State) (f : Field) : (s.holding f).mode ≠ .quoted := by
  show (if f.quoted then Mode.closed else Mode.plain) ≠ .quoted
  split <;> decide

/-- Something is pending behind a cell. -/
theorem pending_holding {f : Field} (hplain : f.Plain delimiter) (s : State) :
    (s.holding f).cell ≠ [] ∨ (s.holding f).row ≠ [] ∨ (s.holding f).mode = .closed := by
  rcases hplain with h | h
  · exact .inr (.inr (if_pos h))
  · exact .inl h.1

theorem addRow_holding {s : State} {f : Field} (hcolumns : s.row.length + 1 ≤ csvLimits.columns)
    (hrows : s.records.length ≤ csvLimits.rows) :
    (s.holding f).addRow = .ok (.after (s.records ++ [s.row ++ [f.text]])) := by
  rw [State.addRow, State.addCell,
    if_neg (Nat.not_le.mpr (show (s.holding f).row.length < csvLimits.columns from hcolumns))]
  show (if csvLimits.rows < s.records.length then _ else _) = _
  rw [if_neg (by omega)]
  rfl

/-- The delimiter behind a cell ends it. -/
theorem scan_delimiter {s : State} {f : Field} (hcolumns : s.row.length + 1 ≤ csvLimits.columns)
    (rest : Text) :
    scan [delimiter.char] false (delimiter.char :: rest) (s.holding f)
      = scan [delimiter.char] false rest
        { s with row := s.row ++ [f.text], cell := [], mode := .plain } := by
  rw [scan, step, if_neg (mode_holding_ne s f), plainStep, if_pos rfl, State.addCell,
    if_neg (Nat.not_le.mpr (show (s.holding f).row.length < csvLimits.columns from hcolumns))]
  rfl

theorem head?_ending (ending : LineEnd) (rest : Text) :
    (ending.text ++ rest).head? ≠ some quote := by
  cases ending <;> exact fun h => absurd (Option.some.inj h) (by decide)

/-- **A row of cells is read back.** -/
theorem scan_joined {fields : List Field} (hfields : fields ≠ [])
    (hplain : ∀ f ∈ fields, f.Plain delimiter)
    (hcells : ∀ f ∈ fields, f.text.length ≤ csvLimits.cell) (rest : Text)
    (hrest : rest.head? ≠ some quote) {s : State} (hcell : s.cell = []) (hmode : s.mode = .plain)
    (hcolumns : s.row.length + fields.length ≤ csvLimits.columns)
    (hrows : s.records.length ≤ csvLimits.rows) :
    ∃ s', scan [delimiter.char] false (joined delimiter fields ++ rest) s
        = scan [delimiter.char] false rest s' ∧
      s'.Ready (s.records ++ [s.row ++ fields.map Field.text]) := by
  induction fields generalizing s with
  | nil => exact absurd rfl hfields
  | cons f fields ih =>
    obtain ⟨hf, hplain⟩ := List.forall_mem_cons.mp hplain
    obtain ⟨hroom, hcells⟩ := List.forall_mem_cons.mp hcells
    rw [List.length_cons] at hcolumns
    cases fields with
    | nil =>
      refine ⟨s.holding f, scan_field hf hroom hrest hcell hmode, ?_, pending_holding hf s,
        mode_holding_ne s f⟩
      exact addRow_holding (by omega) hrows
    | cons g fields =>
      have hdelimiter : (delimiter.char :: (joined delimiter (g :: fields) ++ rest)).head?
          ≠ some quote := fun h => quote_ne_char delimiter (Option.some.inj h).symm
      obtain ⟨s', hscan, hready⟩ := ih (List.cons_ne_nil g fields) hplain hcells
        (s := { s with row := s.row ++ [f.text], cell := [], mode := .plain }) rfl rfl
        (by rw [List.length_append, List.length_singleton]; omega) hrows
      refine ⟨s', ?_, ?_⟩
      · rw [joined, List.append_assoc, List.cons_append,
          scan_field hf hroom hdelimiter hcell hmode, scan_delimiter (by omega), hscan]
      · simp only [List.append_assoc, List.singleton_append] at hready
        exact hready

/-! ## A row and its ending -/

/-- A line break ends the row; a line feed behind a carriage return goes with it. -/
theorem scan_break {c : UInt16} (hc : c = cr ∨ c = lf) {s : State} {records : List (List Text)}
    (hready : s.Ready records) (rest : Text) :
    scan [delimiter.char] false (c :: rest) s
      = scan [delimiter.char] (decide (c = cr ∧ rest.head? = some lf)) rest (.after records) := by
  have hdelimiter : ¬[c] = [delimiter.char] := by
    rcases hc with rfl | rfl <;> cases delimiter <;> decide
  rw [scan, step, if_neg hready.outside, plainStep, if_neg hdelimiter, if_pos hc, hready.row]
  rfl

/-- **The ending of a row is read**, unless what follows would lengthen it. -/
theorem scan_ending (ending : LineEnd) {s : State} {records : List (List Text)}
    (hready : s.Ready records) {rest : Text} (hrest : rest.head? ≠ some lf) :
    scan [delimiter.char] false (ending.text ++ rest) s
      = scan [delimiter.char] false rest (.after records) := by
  cases ending with
  | lf =>
    show scan _ false (lf :: rest) s = _
    rw [scan_break (.inr rfl) hready, decide_eq_false (fun h => absurd h.1 (by decide))]
  | crlf =>
    show scan _ false (cr :: lf :: rest) s = _
    rw [scan_break (.inl rfl) hready, decide_eq_true ⟨rfl, List.head?_cons⟩, scan]
  | cr =>
    show scan _ false (cr :: rest) s = _
    rw [scan_break (.inl rfl) hready, decide_eq_false (fun h => hrest h.2)]

/-! ## The rows -/

/-- A written cell begins neither like a line break nor, but for a quote, like anything
that is special. -/
theorem head?_written {f : Field} (hplain : f.Plain delimiter) :
    ∃ c, f.written.head? = some c ∧
      (f.quoted = true ∧ c = quote ∨ f.text.head? = some c ∧ isSpecial delimiter c = false) := by
  unfold Field.written
  cases hquoted : f.quoted with
  | true => exact ⟨quote, rfl, .inl ⟨rfl, rfl⟩⟩
  | false =>
    rcases hplain with h | ⟨htext, hspecial⟩
    · exact absurd (hquoted.symm.trans h) (by decide)
    · obtain ⟨c, rest, hcons⟩ := List.exists_cons_of_ne_nil htext
      rw [if_neg (by decide), hcons]
      exact ⟨c, rfl, .inr ⟨rfl, hspecial c (hcons ▸ List.mem_cons_self)⟩⟩

theorem head?_joined {f : Field} {fields : List Field} (hplain : f.Plain delimiter) (rest : Text) :
    (joined delimiter (f :: fields) ++ rest).head? = f.written.head? := by
  obtain ⟨c, hc, -⟩ := head?_written hplain
  cases fields with
  | nil => rw [joined, List.head?_append, hc, Option.some_or]
  | cons g fields => rw [joined, List.append_assoc, List.head?_append, hc, Option.some_or]

theorem special_lf (delimiter : CsvDelimiter) : isSpecial delimiter lf = true := by
  cases delimiter <;> decide

/-- A row of cells does not begin with a line feed. -/
theorem head?_joined_ne_lf {fields : List Field} (hfields : fields ≠ [])
    (hplain : ∀ f ∈ fields, f.Plain delimiter) (rest : Text) :
    (joined delimiter fields ++ rest).head? ≠ some lf := by
  obtain ⟨f, tail, rfl⟩ := List.exists_cons_of_ne_nil hfields
  have hf := hplain f List.mem_cons_self
  rw [head?_joined hf]
  obtain ⟨c, hc, hcases⟩ := head?_written hf
  rw [hc]
  intro h
  obtain rfl := Option.some.inj h
  rcases hcases with ⟨-, hquote⟩ | ⟨-, hspecial⟩
  · exact absurd hquote (by decide)
  · exact absurd ((special_lf delimiter).symm.trans hspecial) (by decide)

/-- What the proof needs of every row. -/
structure Line.Readable (delimiter : CsvDelimiter) (line : Line) : Prop where
  fields : line.fields ≠ []
  plain : ∀ f ∈ line.fields, f.Plain delimiter
  columns : line.fields.length ≤ csvLimits.columns
  cell : ∀ f ∈ line.fields, f.text.length ≤ csvLimits.cell

/-- The text of some rows begins as the first of them. -/
theorem head?_linesText {line : Line} {lines : List Line} {ended : Bool}
    (hline : line.Readable delimiter) :
    (linesText delimiter ended (line :: lines)).head? ≠ some lf := by
  cases lines with
  | nil => exact head?_joined_ne_lf hline.fields hline.plain _
  | cons next lines => exact head?_joined_ne_lf hline.fields hline.plain _

theorem finish_after (records : List (List Text)) :
    (State.after records).finish = .ok (.after records) :=
  if_neg (by simp [State.after])

/-- **The rows are read back**, whether the last one has an ending or not. -/
theorem scan_lines (delimiter : CsvDelimiter) {lines : List Line} (ended : Bool) (hlines : lines ≠ [])
    (hreadable : ∀ line ∈ lines, line.Readable delimiter) (records : List (List Text))
    (hrows : records.length + lines.length ≤ csvLimits.rows + 1) :
    ∃ s, scan [delimiter.char] false (linesText delimiter ended lines) (.after records) = .ok s ∧
      s.mode ≠ .quoted ∧ s.finish = .ok (.after (records ++ lines.map Line.cells)) := by
  induction lines generalizing records with
  | nil => exact absurd rfl hlines
  | cons line lines ih =>
    obtain ⟨hline, hreadable⟩ := List.forall_mem_cons.mp hreadable
    rw [List.length_cons] at hrows
    have hcolumns : (State.after records).row.length + line.fields.length ≤ csvLimits.columns := by
      show 0 + _ ≤ _
      rw [Nat.zero_add]
      exact hline.columns
    have hrecords : (State.after records).records.length ≤ csvLimits.rows := by
      show records.length ≤ _
      omega
    cases lines with
    | nil =>
      cases ended with
      | true =>
        obtain ⟨s, hscan, hready⟩ := scan_joined hline.fields hline.plain hline.cell
          (line.ending.text ++ []) (head?_ending _ _) (s := .after records) rfl rfl
          hcolumns hrecords
        refine ⟨_, ?_, ?_, finish_after _⟩
        · rw [linesText, if_pos rfl, ← List.append_nil line.ending.text, hscan,
            scan_ending line.ending hready (by simp)]
          rfl
        · exact fun h => Mode.noConfusion h
      | false =>
        obtain ⟨s, hscan, hready⟩ := scan_joined hline.fields hline.plain hline.cell
          [] (by simp) (s := .after records) rfl rfl hcolumns hrecords
        refine ⟨s, ?_, hready.outside, (if_pos hready.pending).trans hready.row⟩
        rw [linesText, if_neg (by decide), hscan]
        rfl
    | cons next lines =>
      obtain ⟨s, hscan, hready⟩ := scan_joined hline.fields hline.plain hline.cell
        (line.ending.text ++ linesText delimiter ended (next :: lines)) (head?_ending _ _)
        (s := .after records) rfl rfl hcolumns hrecords
      have hnext := hreadable next List.mem_cons_self
      obtain ⟨s', hscan', hmode, hfinish⟩ := ih (List.cons_ne_nil next lines) hreadable
        (records ++ [line.cells])
        (by rw [List.length_append, List.length_singleton]; omega)
      refine ⟨s', ?_, hmode, ?_⟩
      · rw [linesText, hscan, scan_ending line.ending hready (head?_linesText hnext)]
        exact hscan'
      · rw [hfinish, List.append_assoc]
        rfl

/-! ## Control characters -/

theorem forbidden_char (delimiter : CsvDelimiter) : isForbidden delimiter.char = false := by
  cases delimiter <;> decide

theorem forbidden_doubled {text : Text} (htext : ∀ c ∈ text, isForbidden c = false) :
    ∀ c ∈ doubled text, isForbidden c = false := by
  induction text with
  | nil => exact htext
  | cons d text ih =>
    obtain ⟨hd, htext⟩ := List.forall_mem_cons.mp htext
    rw [doubled]
    split
    · exact List.forall_mem_cons.mpr ⟨by decide, List.forall_mem_cons.mpr ⟨by decide, ih htext⟩⟩
    · exact List.forall_mem_cons.mpr ⟨hd, ih htext⟩

theorem forbidden_written {f : Field} (htext : ∀ c ∈ f.text, isForbidden c = false) :
    ∀ c ∈ f.written, isForbidden c = false := by
  unfold Field.written
  split
  · refine List.forall_mem_cons.mpr ⟨by decide, List.forall_mem_append.mpr ⟨?_, ?_⟩⟩
    · exact forbidden_doubled htext
    · exact List.forall_mem_singleton.mpr (by decide)
  · exact htext

theorem forbidden_joined {fields : List Field}
    (hfields : ∀ f ∈ fields, ∀ c ∈ f.text, isForbidden c = false) :
    ∀ c ∈ joined delimiter fields, isForbidden c = false := by
  induction fields with
  | nil => exact fun c hc => absurd hc List.not_mem_nil
  | cons f fields ih =>
    obtain ⟨hf, hrest⟩ := List.forall_mem_cons.mp hfields
    cases fields with
    | nil => exact forbidden_written hf
    | cons g fields =>
      rw [joined]
      exact List.forall_mem_append.mpr ⟨forbidden_written hf,
        List.forall_mem_cons.mpr ⟨forbidden_char delimiter, ih hrest⟩⟩

theorem forbidden_of_all {text : Text} (h : text.all (fun c => !isForbidden c) = true) :
    ∀ c ∈ text, isForbidden c = false := by
  intro c hc
  have hall := List.all_eq_true.mp h c hc
  rwa [Bool.not_eq_true'] at hall

theorem forbidden_ending (ending : LineEnd) : ∀ c ∈ ending.text, isForbidden c = false := by
  refine forbidden_of_all ?_
  cases ending <;> decide

theorem forbidden_linesText {lines : List Line} (ended : Bool)
    (hlines : ∀ line ∈ lines, ∀ f ∈ line.fields, ∀ c ∈ f.text, isForbidden c = false) :
    ∀ c ∈ linesText delimiter ended lines, isForbidden c = false := by
  induction lines with
  | nil => exact fun c hc => absurd hc List.not_mem_nil
  | cons line lines ih =>
    obtain ⟨hline, hrest⟩ := List.forall_mem_cons.mp hlines
    cases lines with
    | nil =>
      refine List.forall_mem_append.mpr ⟨forbidden_joined hline, ?_⟩
      split
      · exact forbidden_ending line.ending
      · exact fun c hc => absurd hc List.not_mem_nil
    | cons next lines =>
      exact List.forall_mem_append.mpr ⟨forbidden_joined hline,
        List.forall_mem_append.mpr ⟨forbidden_ending line.ending, ih hrest⟩⟩

/-- Nothing in a file is forbidden that its table does not have. -/
theorem forbidden_text {file : File}
    (hlines : ∀ line ∈ file.lines, ∀ f ∈ line.fields, ∀ c ∈ f.text, isForbidden c = false) :
    (file.text delimiter).any isForbidden = false := by
  refine List.any_eq_false.mpr (fun c hc => ?_)
  rw [Bool.not_eq_true]
  refine List.forall_mem_append.mpr ⟨?_, forbidden_linesText file.ended hlines⟩ c hc
  split
  · exact List.forall_mem_singleton.mpr (by decide)
  · exact fun c hc => absurd hc List.not_mem_nil

/-! ## The file -/

/-- **The byte order mark is taken off**, and nothing else is. -/
theorem withoutMark {file : File} (hwritten : file.Written delimiter)
    (hreadable : ∀ line ∈ file.lines, line.Readable delimiter) (hlines : file.lines ≠ []) :
    (if (file.text delimiter).head? = some bom then (file.text delimiter).tail
      else file.text delimiter) = linesText delimiter file.ended file.lines := by
  unfold File.text
  cases file.bom with
  | true => rfl
  | false =>
    rw [if_neg (show ¬false = true by decide), List.nil_append]
    refine if_neg ?_
    obtain ⟨line, lines, hcons⟩ := List.exists_cons_of_ne_nil hlines
    have hline := hreadable line (hcons ▸ List.mem_cons_self)
    obtain ⟨f, fields, hfields⟩ := List.exists_cons_of_ne_nil hline.fields
    have hf := hline.plain f (hfields ▸ List.mem_cons_self)
    have hhead : (linesText delimiter file.ended file.lines).head? = f.written.head? := by
      rw [hcons]
      cases lines with
      | nil => rw [linesText, hfields, head?_joined hf]
      | cons next lines => rw [linesText, hfields, head?_joined hf]
    obtain ⟨c, hc, hcases⟩ := head?_written hf
    rw [hhead, hc]
    intro h
    obtain rfl := Option.some.inj h
    rcases hcases with ⟨-, hquote⟩ | ⟨htext, -⟩
    · exact absurd hquote (by decide)
    · rcases hwritten.first line f (by rw [hcons]; rfl) (by rw [hfields]; rfl) with hquoted | hbom
      · rw [Field.written, if_pos hquoted] at hc
        exact absurd (Option.some.inj hc) (by decide)
      · exact hbom htext

/-- **Tables are read back.** A table of rows with at least one cell each, written cell by
cell as its cells allow, is what the parser makes of the text, with its rows numbered
from 2. -/
theorem parseCsv_text (delimiter : CsvDelimiter) (file : File) (hwritten : file.Written delimiter)
    (hfields : ∀ line ∈ file.lines, line.fields ≠ [])
    (hadmitted : Admitted file.table (file.text delimiter)) :
    ∃ headers rows, file.table = headers :: rows ∧
      parseCsv (file.text delimiter) [delimiter.char] = .ok ⟨headers, numbered rows⟩ := by
  have htable : ∀ line ∈ file.lines, line.cells ∈ file.table := fun line hline =>
    List.mem_map_of_mem hline
  have hreadable : ∀ line ∈ file.lines, line.Readable delimiter := fun line hline =>
    ⟨hfields line hline, hwritten.plain line hline,
      by simpa [Line.cells] using hadmitted.columns _ (htable line hline),
      fun f hf => hadmitted.cell _ (htable line hline) _ (List.mem_map_of_mem hf)⟩
  have hcontrol : (file.text delimiter).any isForbidden = false :=
    forbidden_text (fun line hline f hf =>
      hadmitted.control _ (htable line hline) _ (List.mem_map_of_mem hf))
  have hlength : file.lines.length = file.table.length := by rw [File.table, List.length_map]
  have hlines : file.lines ≠ [] := by
    have := hadmitted.two
    exact fun h => by rw [← hlength, h] at this; exact absurd this (by decide)
  obtain ⟨s, hscan, hmode, hfinish⟩ := scan_lines delimiter file.ended hlines
    hreadable [] (by rw [hlength]; simpa using hadmitted.rows)
  have htext : linesText delimiter file.ended file.lines ≠ [] := by
    intro hempty
    rw [hempty] at hscan
    obtain rfl := Except.ok.inj hscan
    rw [finish_after] at hfinish
    have := congrArg State.records (Except.ok.inj hfinish)
    exact hlines (List.map_eq_nil_iff.mp this.symm)
  obtain ⟨headers, hheaders, cell, hcell, hblank⟩ := hadmitted.header
  obtain ⟨rows, hrows⟩ : ∃ rows, file.table = headers :: rows :=
    ⟨file.table.tail, (List.cons_head?_tail hheaders).symm⟩
  refine ⟨headers, rows, hrows, ?_⟩
  have hdelimiter : ¬([delimiter.char] ≠ [CsvDelimiter.comma.char] ∧
      [delimiter.char] ≠ [CsvDelimiter.semicolon.char]) := by
    cases delimiter <;> decide
  have hnotblank : ¬(headers.all isBlank = true ∨ rows = []) := by
    rintro (hall | rfl)
    · exact absurd ((List.all_eq_true.mp hall cell hcell).symm.trans hblank) (by decide)
    · have htwo := hadmitted.two
      rw [hrows] at htwo
      exact absurd htwo (by simp)
  have hdocument : documentOf ([] ++ file.lines.map Line.cells) = .ok ⟨headers, numbered rows⟩ := by
    rw [List.nil_append]
    show documentOf file.table = _
    rw [hrows, documentOf, if_neg hnotblank]
  rw [parseCsv, if_neg hdelimiter, if_neg (by exact Nat.not_lt.mpr hadmitted.bytes),
    if_neg (by rw [hcontrol]; decide)]
  simp only [withoutMark hwritten hreadable hlines, if_neg htext, hscan]
  show (if s.mode = .quoted then _ else _) = _
  rw [if_neg hmode]
  show s.finish >>= _ = _
  rw [hfinish]
  exact hdocument

end walk

/-- A text of plain characters. -/
def textOf (s : String) : Text := s.toList.map (fun c => UInt16.ofNat c.toNat)

/-- A table with a byte order mark, a quoted cell with both delimiters, line breaks and
quotes, rows of different widths and three kinds of endings. -/
def sampleFile : File where
  bom := true
  lines := [
    ⟨[⟨textOf "reference", false⟩, ⟨textOf "title", true⟩], .crlf⟩,
    ⟨[⟨textOf "MS-1", false⟩, ⟨textOf "Exact; title,\r\nwith \"quote\"", true⟩], .cr⟩,
    ⟨[⟨[], true⟩], .lf⟩]
  ended := false

theorem sampleFile_written : sampleFile.Written .semicolon where
  plain := by
    intro line hline f hf
    have hall : (sampleFile.lines.all fun line => line.fields.all fun f =>
        f.quoted || !f.text.isEmpty && f.text.all fun c => !isSpecial .semicolon c) = true := by
      decide +kernel
    have hf := List.all_eq_true.mp (List.all_eq_true.mp hall line hline) f hf
    simpa [Field.Plain] using hf
  first := by
    intro line f hline hf
    obtain rfl := Option.some.inj hline
    obtain rfl := Option.some.inj hf
    exact .inr (by decide)

theorem sampleFile_admitted : Admitted sampleFile.table (sampleFile.text .semicolon) where
  bytes := by decide +kernel
  rows := by decide
  columns := by decide
  cell := by decide +kernel
  control := fun row hrow cell hcell => forbidden_of_all <| List.all_eq_true.mp
    (List.all_eq_true.mp
      (show (sampleFile.table.all fun row => row.all fun cell => cell.all fun c =>
        !isForbidden c) = true by decide +kernel) row hrow) cell hcell
  two := by decide
  header := ⟨_, rfl, textOf "reference", List.mem_cons_self, by decide +kernel⟩

theorem parseCsv_sampleFile :
    ∃ headers rows, sampleFile.table = headers :: rows ∧
      parseCsv (sampleFile.text .semicolon) [CsvDelimiter.semicolon.char]
        = .ok ⟨headers, numbered rows⟩ :=
  parseCsv_text .semicolon sampleFile sampleFile_written (by decide) sampleFile_admitted

/-! ## Rows without cells -/

/-- A header and a row that has no cell at all. -/
def emptyRowFile : File where
  bom := false
  lines := [⟨[⟨textOf "reference", false⟩], .lf⟩, ⟨[], .lf⟩]
  ended := true

/-- **A row without cells is not read back**: its line is read as one empty cell. -/
theorem row_without_cells :
    emptyRowFile.Written .comma ∧
      Admitted emptyRowFile.table (emptyRowFile.text .comma) ∧
      emptyRowFile.table = [[textOf "reference"], []] ∧
      parseCsv (emptyRowFile.text .comma) [CsvDelimiter.comma.char]
        = .ok ⟨[textOf "reference"], [⟨2, [[]]⟩]⟩ := by
  refine ⟨⟨?_, ?_⟩, ⟨by decide +kernel, by decide, by decide, by decide +kernel,
    fun row hrow cell hcell => forbidden_of_all ?_, by decide, ?_⟩, rfl, by decide +kernel⟩
  · intro line hline f hf
    have hall : (emptyRowFile.lines.all fun line => line.fields.all fun f =>
        !f.text.isEmpty && f.text.all fun c => !isSpecial .comma c) = true := by
      decide +kernel
    have hf := List.all_eq_true.mp (List.all_eq_true.mp hall line hline) f hf
    exact .inr (by simpa using hf)
  · intro line f hline hf
    obtain rfl := Option.some.inj hline
    obtain rfl := Option.some.inj hf
    exact .inr (by decide)
  · have hall : (emptyRowFile.table.all fun row => row.all fun cell => cell.all fun c =>
        !isForbidden c) = true := by
      decide +kernel
    exact List.all_eq_true.mp (List.all_eq_true.mp hall row hrow) cell hcell
  · exact ⟨_, rfl, textOf "reference", List.mem_cons_self, by decide +kernel⟩

end Csv
