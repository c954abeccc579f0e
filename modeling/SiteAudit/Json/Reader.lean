import SiteAudit.Json.Value
import SiteAudit.Number.Numeral

/-!
# Reading JSON

Reads a JSON value from its text. Every reader returns what follows the part that it read; the
number of characters bounds the depth of a value.
-/

namespace SiteAudit.Json

/-- The white space between the parts of a value. -/
def isSpace (c : Char) : Bool := c == ' ' || c == '\t' || c == '\n' || c == '\r'

/-- The text without white space in front. -/
def skipSpace (t : Text) : Text := t.dropWhile isSpace

/-- The code unit given by four hexadecimal digits. -/
def codeUnit? (t : Text) : Option (Nat × Text) :=
  let digits := t.take 4
  if digits.length = 4 && digits.all Text.isHexDigit then
    some (digits.foldl (fun n c => n * 16 + (Text.digitValue? c).getD 0) 0, t.drop 4)
  else none

/-- The character of an escape with hexadecimal digits. Two escapes can form a pair. -/
def unicodeEscape? (t : Text) : Option (Char × Text) := do
  let (high, rest) ← codeUnit? t
  if high < 0xD800 ∨ 0xDFFF < high then return (Char.ofNat high, rest)
  let pair? : Option (Char × Text) := do
    let (low, rest) ← codeUnit? (← Text.dropPrefix? ['\\', 'u'] rest)
    if high < 0xDC00 ∧ 0xDC00 ≤ low ∧ low ≤ 0xDFFF then
      return (Char.ofNat (0x10000 + (high - 0xD800) * 1024 + (low - 0xDC00)), rest)
    else failure
  return pair?.getD ('\ufffd', rest)

/-- What a backslash and one more character stand for. -/
def escape? : Char → Option Char
  | '"' => some '"'
  | '\\' => some '\\'
  | '/' => some '/'
  | 'b' => some '\x08'
  | 'f' => some '\x0c'
  | 'n' => some '\n'
  | 'r' => some '\r'
  | 't' => some '\t'
  | _ => none

/-- The characters up to the closing quote, after those read so far, latest first. -/
def readText : Nat → Text → Text → Option (Text × Text)
  | 0, _, _ => none
  | _ + 1, _, [] => none
  | fuel + 1, read, c :: rest =>
    if c = '"' then some (read.reverse, rest)
    else if c = '\\' then
      match rest with
      | 'u' :: rest => do
        let (c, rest) ← unicodeEscape? rest
        readText fuel (c :: read) rest
      | c :: rest => do readText fuel ((← escape? c) :: read) rest
      | [] => none
    else readText fuel (c :: read) rest

/-- The characters of numbers. -/
def isNumeric (c : Char) : Bool :=
  c.isDigit || c == '-' || c == '+' || c == '.' || c == 'e' || c == 'E'

/-- A number: an integer unless a point or an exponent is in it. -/
def readNumber (t : Text) : Option (Json × Text) := do
  let numeral := t.takeWhile isNumeric
  let rest := t.drop numeral.length
  let (negative, digits) : Bool × Text := match numeral with
    | '-' :: digits => (true, digits)
    | digits => (false, digits)
  if digits.all Char.isDigit then
    if digits.isEmpty then failure
    let n ← Numeral.ofDigits? 10 0 digits
    return (.int (if negative then -(n : Int) else n), rest)
  else return (.float (← Numeral.readFinite? negative digits), rest)

mutual

/-- Reads a value. -/
def readValue : Nat → Text → Option (Json × Text)
  | 0, _ => none
  | fuel + 1, t =>
    match skipSpace t with
    | 'n' :: 'u' :: 'l' :: 'l' :: rest => some (.null, rest)
    | 't' :: 'r' :: 'u' :: 'e' :: rest => some (.bool true, rest)
    | 'f' :: 'a' :: 'l' :: 's' :: 'e' :: rest => some (.bool false, rest)
    | '"' :: rest => (readText (rest.length + 1) [] rest).map fun (t, rest) => (.text t, rest)
    | '[' :: rest =>
      match skipSpace rest with
      | ']' :: rest => some (.array [], rest)
      | rest => (readItems fuel rest).map fun (items, rest) => (.array items, rest)
    | '\x7b' :: rest =>
      match skipSpace rest with
      | '\x7d' :: rest => some (.object [], rest)
      | rest => (readEntries fuel rest).map fun (entries, rest) => (.object entries, rest)
    | rest => readNumber rest

/-- Reads the items of an array up to its end. -/
def readItems : Nat → Text → Option (List Json × Text)
  | 0, _ => none
  | fuel + 1, t => do
    let (item, rest) ← readValue fuel t
    match skipSpace rest with
    | ',' :: rest => do
      let (items, rest) ← readItems fuel rest
      return (item :: items, rest)
    | ']' :: rest => return ([item], rest)
    | _ => failure

/-- Reads the entries of an object up to its end. -/
def readEntries : Nat → Text → Option (List (Text × Json) × Text)
  | 0, _ => none
  | fuel + 1, t => do
    let rest ← Text.dropPrefix? ['"'] (skipSpace t)
    let (key, rest) ← readText (rest.length + 1) [] rest
    let rest ← Text.dropPrefix? [':'] (skipSpace rest)
    let (value, rest) ← readValue fuel rest
    match skipSpace rest with
    | ',' :: rest => do
      let (entries, rest) ← readEntries fuel rest
      return ((key, value) :: entries, rest)
    | '\x7d' :: rest => return ([(key, value)], rest)
    | _ => failure

end

/-- Reads a value that is all of a text. -/
def ofText? (t : Text) : Option Json := do
  let (value, rest) ← readValue (t.length + 1) t
  if (skipSpace rest).isEmpty then return value else failure

end SiteAudit.Json
