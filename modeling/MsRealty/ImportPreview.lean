import MsRealty.JsonText
import MsRealty.SearchInput

/-!
# Previews of an import

The rows of a CSV document under a mapping of its columns (`previewRows` in
`src/server/import-review/csv.ts`): the value of each field, and what is wrong with it.

Values are texts and stay so. What is read as a number is read only to see whether it is
positive (`notPositive`). Whether a text is the address of a web page is a parameter.
-/

namespace ImportReview

open Search

/-! ## Fields -/

/-- `importFields`. -/
inductive ImportField where
  | reference
  | title
  | price
  | currency
  | area
  | bedrooms
  | location
  | sourceUrl
  deriving DecidableEq

/-- The name of a field. -/
def ImportField.name : ImportField → String
  | .reference => "reference"
  | .title => "title"
  | .price => "price"
  | .currency => "currency"
  | .area => "area"
  | .bedrooms => "bedrooms"
  | .location => "location"
  | .sourceUrl => "sourceUrl"

/-- Every field, in the order of the source. -/
def importFields : List ImportField :=
  [.reference, .title, .price, .currency, .area, .bedrooms, .location, .sourceUrl]

/-- **A mapping**: the column of each field, if it has one. -/
abbrev ColumnMapping : Type := ImportField → Option ℕ

/-- **`validateMapping`**: each column is one of the document, and that of one field only. -/
def validMapping (columns : ℕ) (mapping : ColumnMapping) : Bool :=
  let chosen := importFields.filterMap mapping
  chosen.all (· < columns) && decide chosen.Nodup && (mapping .reference).isSome
    && (mapping .title).isSome

/-! ## Texts -/

/-- `value?.trim()`, where it is not empty. -/
def supplied (value : Option String) : Bool := value.any fun s => trim s ≠ ""

/-- An amount as the preview accepts it: `/^\d{1,12}(?:[.,]\d{1,2})?$/u`. -/
def isAmountText (text : List Char) : Bool :=
  let whole := text.takeWhile Char.isDigit
  let rest := text.dropWhile Char.isDigit
  1 ≤ whole.length && whole.length ≤ 12
    && (rest = [] || (rest.head? = some '.' || rest.head? = some ',')
      && rest.tail.all Char.isDigit && 1 ≤ rest.tail.length && rest.tail.length ≤ 2)

/-- A number of bedrooms as the preview accepts it: `/^\d{1,3}$/u`. -/
def isCountText (text : List Char) : Bool :=
  text.all Char.isDigit && 1 ≤ text.length && text.length ≤ 3

/-- A currency: `/^[A-Z]{3}$/u`. -/
def isCurrencyText (text : List Char) : Bool := text.all Char.isUpper && text.length = 3

/-- A cell that a spreadsheet would evaluate: `/^\s*[=+\-@]/u`. -/
def isFormula (cell : String) : Bool :=
  (cell.toList.dropWhile isSpace).head?.any fun c => c ∈ ['=', '+', '-', '@']

/-! ## Numbers -/

/-- The number that decimal digits write, with a point and an exponent. -/
def unsignedNumber (text : List Char) : Option ℚ := do
  let whole := text.takeWhile Char.isDigit
  let rest := text.dropWhile Char.isDigit
  let fraction := if rest.head? = some '.' then rest.tail.takeWhile Char.isDigit else []
  let rest := if rest.head? = some '.' then rest.tail.dropWhile Char.isDigit else rest
  if whole = [] ∧ fraction = [] then none
  else
    let (exponent, rest) ← JsonText.takeExponent rest
    if rest = [] then
      some (Nat.ofDigitChars 10 (whole ++ fraction) 0 * (10 : ℚ) ^ (exponent - fraction.length))
    else none

/-- A text without its sign, and whether it is negative. -/
def signed : List Char → Bool × List Char
  | '-' :: text => (true, text)
  | '+' :: text => (false, text)
  | text => (false, text)

/-- **`Number(text) <= 0`**, of a text without spaces around it. A text that is no number is
not; a number up to half of the least double is zero. -/
def notPositive (text : List Char) : Bool :=
  match text with
  | [] => true
  | '0' :: r :: digits =>
    if r ∈ ['x', 'X', 'o', 'O', 'b', 'B'] then digits ≠ [] && digits.all (· = '0')
    else decimalNotPositive text
  | _ => decimalNotPositive text
where
  /-- That of a decimal literal. -/
  decimalNotPositive (text : List Char) : Bool :=
    if (signed text).2 = "Infinity".toList then (signed text).1
    else (unsignedNumber (signed text).2).any fun q => (signed text).1 || q ≤ 1 / 2 ^ 1075

/-! ## Rows -/

/-- `RowIssue`. -/
inductive IssueCode where
  | columnCount
  | required
  | number
  | currency
  | url
  | formula
  | duplicate

/-- The name of a code. -/
def IssueCode.name : IssueCode → String
  | .columnCount => "columnCount"
  | .required => "required"
  | .number => "number"
  | .currency => "currency"
  | .url => "url"
  | .formula => "formula"
  | .duplicate => "duplicate"

/-- **What is wrong with a row**: with a field, a column or the whole row. -/
structure RowIssue where
  code : IssueCode
  field : Option ImportField
  column : Option ℕ

/-- A record of a document, with its number. -/
structure DocumentRow where
  number : ℕ
  cells : List String

/-- A document. -/
structure Document where
  headers : List String
  rows : List DocumentRow

/-- **A row of a preview.** -/
structure PreviewRow where
  number : ℕ
  cells : List String
  values : ImportField → Option String
  issues : List RowIssue

/-- The value of each field. -/
def valuesOf (mapping : ColumnMapping) (cells : List String) (field : ImportField) :
    Option String :=
  (mapping field).map fun column => cells.getD column ""

/-- How often a reference is one of the document. -/
def occurrences (document : Document) (mapping : ColumnMapping) (reference : String) : ℕ :=
  (document.rows.filterMap fun row => (mapping .reference).bind fun column =>
    row.cells[column]?).countP fun value => trim value ≠ "" ∧ value = reference

/-- An issue of a field, under a condition. -/
def fieldIssue (condition : Bool) (code : IssueCode) (field : ImportField) : List RowIssue :=
  if condition then [⟨code, some field, none⟩] else []

/-- **What is wrong with a row.** -/
def rowIssues (isWebAddress : String → Bool) (document : Document) (mapping : ColumnMapping)
    (row : DocumentRow) : List RowIssue :=
  let values := valuesOf mapping row.cells
  let bad (field : ImportField) (good : List Char → Bool) : Bool :=
    (values field).any fun value => trim value ≠ "" && !good (trim value).toList
  (if row.cells.length ≠ document.headers.length then [⟨.columnCount, none, none⟩] else [])
    ++ (row.cells.zipIdx.filterMap fun cell =>
      if isFormula cell.1 then some ⟨.formula, none, some cell.2⟩ else none)
    ++ [ImportField.reference, .title].flatMap (fun field =>
      fieldIssue (!supplied (values field)) .required field)
    ++ [ImportField.price, .area, .bedrooms].flatMap (fun field =>
      fieldIssue (bad field (if field = .bedrooms then isCountText else isAmountText))
        .number field)
    ++ fieldIssue (supplied (values .price) && !supplied (values .currency)) .required .currency
    ++ fieldIssue (bad .currency isCurrencyText) .currency .currency
    ++ fieldIssue (bad .sourceUrl fun text => isWebAddress (String.ofList text)) .url .sourceUrl
    ++ fieldIssue ((values .reference).any fun reference =>
      1 < occurrences document mapping reference) .duplicate .reference

/-- **`previewRows`.** It throws if the mapping is not valid. -/
def previewRows (isWebAddress : String → Bool) (document : Document) (mapping : ColumnMapping) :
    Option (List PreviewRow) :=
  if validMapping document.headers.length mapping then
    some (document.rows.map fun row => ⟨row.number, row.cells, valuesOf mapping row.cells,
      rowIssues isWebAddress document mapping row⟩)
  else none

end ImportReview
