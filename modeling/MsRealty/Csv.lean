import MsRealty.SearchInput

/-!
# CSV previews

The parser of uploaded CSV files (`src/server/import-review/csv.ts`). It walks over
the text once, with the records so far, the row and the cell it is in, and whether it
is outside, inside or behind the quotes of a cell.

A text is the list of its UTF-16 code units, as the source indexes it. Two code units
are consumed at once for a doubled quote inside quotes and for CR LF; the walk takes
the second of them as already consumed.
-/

namespace Csv

/-- A text, as its code units. -/
abbrev Text := List UInt16

/-! ## Limits and failures -/

/-- The members of `csvLimits`. -/
structure Limits where
  bytes : ℕ
  rows : ℕ
  columns : ℕ
  cell : ℕ

/-- `csvLimits`. -/
def csvLimits : Limits where
  bytes := 65536
  rows := 500
  columns := 32
  cell := 4096

/-- `CsvFailure`. -/
inductive CsvFailure where
  | format
  | size
  | rows
  | columns
  | cell
  | quotes
  | empty
  deriving DecidableEq

/-- A row of a document, with its number. -/
structure CsvRow where
  number : ℕ
  cells : List Text
  deriving DecidableEq

/-- `CsvDocument`. -/
structure CsvDocument where
  headers : List Text
  rows : List CsvRow
  deriving DecidableEq

/-! ## Characters -/

/-- The quote. -/
def quote : UInt16 := 0x22

/-- The carriage return. -/
def cr : UInt16 := 0x0d

/-- The line feed. -/
def lf : UInt16 := 0x0a

/-- The byte order mark. -/
def bom : UInt16 := 0xfeff

/-- `CsvDelimiter`. -/
inductive CsvDelimiter where
  | comma
  | semicolon

/-- The character of a delimiter. -/
def CsvDelimiter.char : CsvDelimiter → UInt16
  | comma => 0x2c
  | semicolon => 0x3b

/-- The control characters that no text export has. -/
def isForbidden (c : UInt16) : Bool :=
  c ≤ 0x08 || c == 0x0b || c == 0x0c || 0x0e ≤ c && c ≤ 0x1f || c == 0x7f

/-- `new TextEncoder().encode(source).byteLength`. -/
def byteLength (source : Text) : ℕ :=
  (Utf8.encode (Utf16.decode (source.map UInt16.toNat))).length

/-- A cell is blank if trimming leaves nothing of it. -/
def isBlank (cell : Text) : Bool :=
  cell.all (fun c => Search.isSpace (Utf16.charOf c.toNat))

/-! ## The walk -/

/-- Where the walk is: outside, inside or behind the quotes of a cell. -/
inductive Mode where
  | plain
  | quoted
  | closed
  deriving DecidableEq

/-- **The state of the walk.** -/
structure State where
  records : List (List Text)
  row : List Text
  cell : Text
  mode : Mode

/-- The state of the walk after some records. -/
def State.after (records : List (List Text)) : State := ⟨records, [], [], .plain⟩

/-- `addCell`. -/
def State.addCell (s : State) : Except CsvFailure State :=
  if csvLimits.columns ≤ s.row.length then .error .columns
  else .ok { s with row := s.row ++ [s.cell], cell := [], mode := .plain }

/-- `addRow`. -/
def State.addRow (s : State) : Except CsvFailure State := do
  let s ← s.addCell
  if csvLimits.rows < s.records.length then .error .rows
  else .ok { s with records := s.records ++ [s.row], row := [] }

/-- One character inside quotes; whether the next one is consumed with it. -/
def quotedStep (char : UInt16) (next : Option UInt16) (s : State) : State × Bool :=
  if char = quote then
    if next = some quote then ({ s with cell := s.cell ++ [quote] }, true)
    else ({ s with mode := .closed }, false)
  else ({ s with cell := s.cell ++ [char] }, false)

/-- One character outside quotes; whether the next one is consumed with it. -/
def plainStep (delimiter : Text) (char : UInt16) (next : Option UInt16) (s : State) :
    Except CsvFailure (State × Bool) :=
  if [char] = delimiter then do
    let s ← s.addCell
    .ok (s, false)
  else if char = cr ∨ char = lf then do
    let s ← s.addRow
    .ok (s, decide (char = cr ∧ next = some lf))
  else if char = quote ∧ s.cell = [] ∧ s.mode = .plain then .ok ({ s with mode := .quoted }, false)
  else if s.mode = .closed ∨ char = quote then .error .quotes
  else .ok ({ s with cell := s.cell ++ [char] }, false)

/-- **One pass of the loop.** -/
def step (delimiter : Text) (char : UInt16) (next : Option UInt16) (s : State) :
    Except CsvFailure (State × Bool) := do
  let (s, consumed) ←
    if s.mode = .quoted then .ok (quotedStep char next s) else plainStep delimiter char next s
  if csvLimits.cell < s.cell.length then .error .cell else .ok (s, consumed)

/-- **The loop.** The first argument says that the character before consumed this one. -/
def scan (delimiter : Text) : Bool → Text → State → Except CsvFailure State
  | _, [], s => .ok s
  | true, _ :: rest, s => scan delimiter false rest s
  | false, char :: rest, s => do
    let (s, consumed) ← step delimiter char rest.head? s
    scan delimiter consumed rest s

/-- What is left behind the last line ending is a row of its own. -/
def State.finish (s : State) : Except CsvFailure State :=
  if s.cell ≠ [] ∨ s.row ≠ [] ∨ s.mode = .closed then s.addRow else .ok s

/-- The rows behind the headers are numbered from 2. -/
def numbered (rows : List (List Text)) : List CsvRow :=
  rows.mapIdx (fun index cells => ⟨index + 2, cells⟩)

/-- The document of some records. -/
def documentOf : List (List Text) → Except CsvFailure CsvDocument
  | [] => .error .empty
  | headers :: rows =>
    if headers.all isBlank ∨ rows = [] then .error .empty
    else .ok ⟨headers, numbered rows⟩

/-- **`parseCsv`.** -/
def parseCsv (source delimiter : Text) : Except CsvFailure CsvDocument :=
  if delimiter ≠ [CsvDelimiter.comma.char] ∧ delimiter ≠ [CsvDelimiter.semicolon.char] then
    .error .format
  else if csvLimits.bytes < byteLength source then .error .size
  else if source.any isForbidden then .error .format
  else
    let text := if source.head? = some bom then source.tail else source
    if text = [] then .error .empty
    else do
      let s ← scan delimiter false text (.after [])
      if s.mode = .quoted then .error .quotes
      let s ← s.finish
      documentOf s.records

end Csv
