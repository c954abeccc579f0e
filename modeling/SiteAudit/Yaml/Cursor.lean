import SiteAudit.Yaml.Error

/-!
# Reading characters

A cursor stands in a text: it holds the characters still to come and the place reached. Readers
look ahead, move on, and fail at the place reached.
-/

namespace SiteAudit.Yaml

/-- The characters still to come, and the place of the first of them. -/
structure Cursor where
  rest : Text
  mark : Mark
  deriving DecidableEq, Repr

/-- At the end of the text or of a line. -/
def endsLine : Option Char → Bool
  | none => true
  | some c => isBreak c

/-- At the end of the text or of a line, or at a space. -/
def endsWord : Option Char → Bool
  | none => true
  | some c => c == ' ' || isBreak c

/-- At the end of the text or of a line, or at a space or tab. -/
def endsToken : Option Char → Bool
  | none => true
  | some c => c == ' ' || c == '\t' || isBreak c

/-- The characters of anchors, tag handles and the names of directives. -/
def isNameChar (c : Char) : Bool :=
  c.isAlphanum || c == '-' || c == '_'

namespace Mark

/-- The place after the character `c`, where `next` follows. A carriage return ends no line by
itself when a line feed follows, and a byte order mark takes no column. -/
def after (m : Mark) (c : Char) (next : Option Char) : Mark :=
  if c = '\r' ∧ next = some '\n' then ⟨m.index + 1, m.line, m.column + 1⟩
  else if isBreak c then ⟨m.index + 1, m.line + 1, 0⟩
  else if c = '\ufeff' then ⟨m.index + 1, m.line, m.column⟩
  else ⟨m.index + 1, m.line, m.column + 1⟩

end Mark

namespace Cursor

/-- The cursor at the start of a text. -/
def ofText (t : Text) : Cursor := ⟨t, .start⟩

/-- Moves over characters, none of which lies beyond the end of the text. -/
def advance : Nat → Cursor → Cursor
  | 0, c => c
  | n + 1, ⟨c :: rest, mark⟩ => advance n ⟨rest, mark.after c rest.head?⟩
  | _ + 1, ⟨[], mark⟩ => ⟨[], mark⟩

end Cursor

/-- A reader moves a cursor on or fails. -/
abbrev Reader := StateT Cursor (Except Error)

namespace Reader

/-- The place reached. -/
def mark : Reader Mark := do return (← get).mark

/-- The column reached. -/
def column : Reader Nat := do return (← get).mark.column

/-- The characters still to come. -/
def rest : Reader Text := do return (← get).rest

/-- The next character. -/
def peek : Reader (Option Char) := do return (← get).rest.head?

/-- The character after the given number of others. -/
def peekAt (n : Nat) : Reader (Option Char) := do return (← get).rest[n]?

/-- Moves over so many characters. -/
def skip (n : Nat) : Reader Unit := modify (Cursor.advance n)

/-- Takes so many characters. -/
def take (n : Nat) : Reader Text := do
  let taken := (← rest).take n
  skip n
  return taken

/-- Takes characters as long as they satisfy the condition. -/
def takeWhile (p : Char → Bool) : Reader Text := do
  take ((← rest).takeWhile p).length

/-- Moves over characters as long as they satisfy the condition. -/
def skipWhile (p : Char → Bool) : Reader Unit := do
  let _ ← takeWhile p

/-- Moves over spaces. -/
def skipSpaces : Reader Unit := skipWhile (· == ' ')

/-- Moves over a comment, if one starts here. -/
def skipComment : Reader Unit := do
  if (← peek) == some '#' then skipWhile (!isBreak ·)

/-- A failure at the place reached, in something that began earlier. -/
def fail {α : Type} (context : Context) (began : Mark) (problem : Problem) : Reader α := do
  throw (.at_ (some (context, some began)) problem (← mark))

/-- A failure because another character was expected at the place reached. -/
def failExpected {α : Type} (context : Context) (began : Mark) (what : Expected) : Reader α := do
  fail context began (.expected what (← peek))

/-- Takes a line end, if there is one. All line ends read as a line feed, but the line and
paragraph separators, which read as themselves. -/
def lineBreak : Reader Text := do
  match ← rest with
  | '\r' :: '\n' :: _ => skip 2; return ['\n']
  | c :: _ =>
    if c == '\u2028' || c == '\u2029' then skip 1; return [c]
    else if isBreak c then skip 1; return ['\n']
    else return []
  | [] => return []

/-- Does a line of the three given characters and nothing joined to it start here? -/
def atIndicator (c : Char) : Reader Bool := do
  let text ← rest
  return text.take 3 == [c, c, c] && endsToken text[3]?

/-- Does a line that separates documents start here? -/
def atSeparator : Reader Bool := do
  return (← atIndicator '-') || (← atIndicator '.')

end Reader

end SiteAudit.Yaml
