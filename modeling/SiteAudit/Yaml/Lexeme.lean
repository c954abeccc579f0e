import SiteAudit.Text.Utf8
import SiteAudit.Yaml.Cursor
import SiteAudit.Yaml.Token

/-!
# Names, tags and scalars

Readers for the tokens that carry a text: directives, anchors and aliases, tags, and scalars in
their three forms. Where a reader repeats a step, the number of characters still to come bounds
the repetitions, since each step takes at least one.
-/

namespace SiteAudit.Yaml.Reader

/-- A bound on the number of steps that take characters. -/
def bound : Reader Nat := do return (← rest).length + 1

/-! ### Directives -/

/-- The name of a directive. -/
def directiveName (began : Mark) : Reader Text := do
  let name ← takeWhile isNameChar
  if name.isEmpty then failExpected .directive began .alphanumeric
  else if endsWord (← peek) then return name
  else failExpected .directive began .alphanumeric

/-- One of the two numbers of a version. -/
def versionNumber (began : Mark) : Reader Nat := do
  let digits ← takeWhile Char.isDigit
  if digits.isEmpty then failExpected .directive began .digit
  else match Numeral.readInt 10 digits with
    | .ok n => return n.toNat
    | .error cause => throw (.numeral cause)

/-- The version that a document says it has. -/
def version (began : Mark) : Reader Directive := do
  skipSpaces
  let major ← versionNumber began
  if (← peek) != some '.' then failExpected .directive began .digitOrPoint
  skip 1
  let minor ← versionNumber began
  if !endsWord (← peek) then failExpected .directive began .digitOrSpace
  return .version major minor

/-- A handle: an exclamation mark, alone before a space or else with a name and a second mark. -/
def tagHandle (context : Context) (began : Mark) : Reader Text := do
  if (← peek) != some '!' then failExpected context began .exclamationMark
  if (← peekAt 1) == some ' ' then take 1
  else
    let name := ((← rest).drop 1).takeWhile isNameChar
    if (← peekAt (name.length + 1)) == some '!' then take (name.length + 2)
    else
      skip (name.length + 1)
      failExpected context began .exclamationMark

/-- The characters that may stand in a tag as they are. -/
def isUriChar (c : Char) : Bool :=
  c.isAlphanum || "-;/?:@&=+$,_.!~*'()[]".toList.contains c

/-- The value of two hexadecimal digits. -/
def hexPair (a b : Char) : Nat :=
  (Text.digitValue? a).getD 0 * 16 + (Text.digitValue? b).getD 0

/-- The bytes of consecutive escapes, each a percent sign and two hexadecimal digits. -/
def uriBytes (context : Context) (began : Mark) : Nat → Bytes → Reader Bytes
  | 0, bytes => return bytes
  | fuel + 1, bytes => do
    if (← peek) != some '%' then return bytes
    skip 1
    match ← rest with
    | a :: b :: _ =>
      if !Text.isHexDigit a then fail context began (.expected .uriEscape (some a))
      else if !Text.isHexDigit b then fail context began (.expected .uriEscape (some b))
      else
        skip 2
        uriBytes context began fuel (bytes ++ [UInt8.ofNat (hexPair a b)])
    | a :: [] =>
      fail context began (.expected .uriEscape (if Text.isHexDigit a then none else some a))
    | [] => fail context began (.expected .uriEscape none)

/-- The text that consecutive escapes stand for. -/
def uriEscapes (context : Context) (began : Mark) : Reader Text := do
  let place ← mark
  let bytes ← uriBytes context began (← bound) []
  match Utf8.decode bytes with
  | .ok text => return text
  | .error e => throw (.at_ (some (context, some began)) (.uriBytes e.message) place)

/-- Pieces of a tag after those read so far. -/
def uriPieces (context : Context) (began : Mark) : Nat → Text → Reader Text
  | 0, read => return read
  | fuel + 1, read => do
    let plain ← takeWhile isUriChar
    if (← peek) == some '%' then
      let escaped ← uriEscapes context began
      uriPieces context began fuel (read ++ plain ++ escaped)
    else return read ++ plain

/-- A tag, or the end of one, with its escapes resolved. -/
def uri (context emptyContext : Context) (began : Mark) : Reader Text := do
  let first ← peek
  let text ← uriPieces context began (← bound) []
  let isUri : Bool := match first with
    | some c => isUriChar c || c == '%'
    | none => false
  if isUri then return text else failExpected emptyContext began .uri

/-- The handle that a document declares, and what it stands for. -/
def handleDirective (began : Mark) : Reader Directive := do
  skipSpaces
  let handle ← tagHandle .directive began
  if (← peek) != some ' ' then failExpected .directive began .space
  skipSpaces
  let start ← uri .directive .directiveUri began
  if !endsWord (← peek) then failExpected .directive began .space
  return .handle handle start

/-- The rest of a line that may hold a comment and nothing else. -/
def ignoredLine (context : Context) (began : Mark) : Reader Unit := do
  skipSpaces
  skipComment
  if !endsLine (← peek) then failExpected context began .commentOrBreak
  let _ ← lineBreak

/-- A directive line. -/
def directive : Reader Token := do
  let began ← mark
  skip 1
  let name ← directiveName began
  let content ←
    if name = "YAML" then version began
    else if name = "TAG" then handleDirective began
    else pure (.reserved name)
  let stop ← mark
  if content = .reserved name then skipWhile (!isBreak ·)
  ignoredLine .directive began
  return ⟨.directive content, began, stop⟩

/-! ### Anchors, aliases and tags -/

/-- What may stand after the name of an anchor or alias. -/
def endsName (c : Option Char) : Bool :=
  endsToken c || c.any "?:,]\x7d%@\x60".toList.contains

/-- The name of an anchor or alias, after its indicator. -/
def name (context : Context) (kind : Text → Token.Kind) : Reader Token := do
  let began ← mark
  skip 1
  let text ← takeWhile isNameChar
  if text.isEmpty then failExpected context began .alphanumeric
  else if endsName (← peek) then return ⟨kind text, began, ← mark⟩
  else failExpected context began .alphanumeric

/-- Does a handle with a second exclamation mark start the tag? -/
def hasHandle (tag : Text) : Bool :=
  ((tag.drop 1).takeWhile fun c => !endsWord (some c)).contains '!'

/-- A tag: written out between angle brackets, a lone mark, or with a handle. -/
def tag : Reader Token := do
  let began ← mark
  let next ← peekAt 1
  let kind : Token.Kind ←
    if next == some '<' then do
      skip 2
      let suffix ← uri .tag .tagUri began
      if (← peek) != some '>' then failExpected .tagUri began .closingBracket
      skip 1
      pure (Token.Kind.tag none suffix)
    else if endsToken next then do
      skip 1
      pure (Token.Kind.tag none ['!'])
    else if hasHandle (← rest) then do
      let handle ← tagHandle .tag began
      pure (Token.Kind.tag (some handle) (← uri .tag .tagUri began))
    else do
      skip 1
      pure (Token.Kind.tag (some ['!']) (← uri .tag .tagUri began))
  if !endsWord (← peek) then failExpected .tag began .space
  return ⟨kind, began, ← mark⟩

/-! ### Block scalars -/

/-- What happens to the line ends after the last line of a block scalar. -/
inductive Chomping where
  | clip
  | strip
  | keep
  deriving DecidableEq, Repr

/-- A chomping indicator, if there is one. -/
def chomping : Reader Chomping := do
  match ← peek with
  | some '+' => skip 1; return .keep
  | some '-' => skip 1; return .strip
  | _ => return .clip

/-- An indentation indicator, if there is one. -/
def indentation (began : Mark) : Reader (Option Nat) := do
  match ← peek with
  | some c =>
    if !c.isDigit then return none
    if c = '0' then fail .blockScalar began .zeroIndentation
    skip 1
    return some (c.toNat - 48)
  | none => return none

/-- The indicators of a block scalar, in either order. -/
def blockIndicators (began : Mark) : Reader (Chomping × Option Nat) := do
  let first ← chomping
  let indent ← indentation began
  let last ← if first = .clip ∧ indent.isSome then chomping else pure first
  if endsWord (← peek) then return (last, indent)
  else failExpected .blockScalar began .chompingOrIndentation

/-- Empty lines before the first line of a block scalar whose indentation is to be found: their
line ends, and the greatest column reached by spaces. -/
def leadingLines : Nat → Text → Nat → Reader (Text × Nat)
  | 0, breaks, indent => return (breaks, indent)
  | fuel + 1, breaks, indent => do
    match ← peek with
    | some ' ' =>
      skip 1
      leadingLines fuel breaks (max indent (← column))
    | some c =>
      if isBreak c then leadingLines fuel (breaks ++ (← lineBreak)) indent
      else return (breaks, indent)
    | none => return (breaks, indent)

/-- Moves over spaces up to the given column. -/
def skipIndent (indent : Nat) : Reader Unit := do
  let spaces := (← rest).takeWhile (· == ' ')
  skip (min spaces.length (indent - (← column)))

/-- The ends of empty lines, and the indentation of the line after them. -/
def emptyLines (indent : Nat) : Nat → Text → Reader Text
  | 0, breaks => return breaks
  | fuel + 1, breaks => do
    skipIndent indent
    match ← peek with
    | some c =>
      if isBreak c then emptyLines indent fuel (breaks ++ (← lineBreak)) else return breaks
    | none => return breaks

/-- Does a space or a tab stand here? -/
def atBlank : Reader Bool := do
  return (← peek).any fun c => c == ' ' || c == '\t'

/-- The lines of a block scalar after the text read so far, given the ends of the empty lines
before them and the end of the last line. Yields the text with the last line end and the ends of
the empty lines apart. -/
def blockLines (folded : Bool) (indent : Nat) :
    Nat → Text → Text → Text → Reader (Text × Text × Text)
  | 0, read, lineEnd, breaks => return (read, lineEnd, breaks)
  | fuel + 1, read, lineEnd, breaks => do
    if (← column) ≠ indent ∨ (← peek) = none then return (read, lineEnd, breaks)
    let indented ← atBlank
    let line ← takeWhile (!isBreak ·)
    let read := read ++ breaks ++ line
    let lineEnd ← lineBreak
    let breaks ← emptyLines indent (← bound) []
    if (← column) ≠ indent ∨ (← peek) = none then return (read, lineEnd, breaks)
    let joint : Text :=
      if folded && lineEnd = ['\n'] && !indented && !(← atBlank) then
        if breaks.isEmpty then [' '] else []
      else lineEnd
    blockLines folded indent fuel (read ++ joint) lineEnd breaks

/-- A block scalar inside a collection of the given indentation. -/
def blockScalar (folded : Bool) (parent : Int) : Reader Token := do
  let began ← mark
  skip 1
  let (chomping, increment) ← blockIndicators began
  ignoredLine .blockScalar began
  let least := (max (parent + 1) 1).toNat
  let (indent, breaks) ← match increment with
    | none => do
      let (breaks, found) ← leadingLines (← bound) [] 0
      pure (max least found, breaks)
    | some n => do
      let indent := least + n - 1
      pure (indent, ← emptyLines indent (← bound) [])
  let (text, lineEnd, breaks) ← blockLines folded indent (← bound) [] [] breaks
  let ending : Text := match chomping with
    | .strip => []
    | .clip => lineEnd
    | .keep => lineEnd ++ breaks
  return ⟨.scalar (.ofText (text ++ ending)) false, began, ← mark⟩

/-! ### Quoted scalars -/

/-- What a backslash and one more character stand for. -/
def escape? : Char → Option Char
  | '0' => some '\x00'
  | 'a' => some '\x07'
  | 'b' => some '\x08'
  | 't' | '\t' => some '\t'
  | 'n' => some '\n'
  | 'v' => some '\x0b'
  | 'f' => some '\x0c'
  | 'r' => some '\r'
  | 'e' => some '\x1b'
  | ' ' => some ' '
  | '"' => some '"'
  | '\\' => some '\\'
  | '/' => some '/'
  | 'N' => some '\x85'
  | '_' => some '\xa0'
  | 'L' => some '\u2028'
  | 'P' => some '\u2029'
  | _ => none

/-- The number of hexadecimal digits after a backslash and one more character. -/
def escapeLength? : Char → Option Nat
  | 'x' => some 2
  | 'u' => some 4
  | 'U' => some 8
  | _ => none

/-- Is the code point half of a surrogate pair? -/
def isHalf (code : Nat) : Bool := 0xD800 ≤ code && code ≤ 0xDFFF

/-- The character of a code point. Half of a surrogate pair has none and is given U+FFFD here;
`halvesOf` tells which half it was. -/
def charOfCode (code : Nat) : Reader Char :=
  if isHalf code then pure '\ufffd'
  else if code < 0x110000 then pure (Char.ofNat code)
  else if code < 0x80000000 then throw .codePoint
  else throw (.unsuitable .escape)

/-- The value of hexadecimal digits. -/
def hexValue (digits : Text) : Nat :=
  digits.foldl (fun n c => n * 16 + (Text.digitValue? c).getD 0) 0

/-- A character given by hexadecimal digits. -/
def hexEscape (began : Mark) (count : Nat) : Reader Char := do
  let digits := (← rest).take count
  match digits.dropWhile Text.isHexDigit with
  | c :: _ => fail .doubleQuoted began (.expected (.hexadecimal count) (some c))
  | [] =>
    if digits.length < count then
      fail .doubleQuoted began (.expected (.hexadecimal count) none)
    let c ← charOfCode (hexValue digits)
    skip count
    return c

/-- The ends of empty lines inside quotes, with the blanks around them taken away. -/
def quotedBreaks (began : Mark) : Nat → Text → Reader Text
  | 0, breaks => return breaks
  | fuel + 1, breaks => do
    if ← atSeparator then fail .quotedScalar began .separatorInQuotes
    skipWhile fun c => c == ' ' || c == '\t'
    let lineEnd ← lineBreak
    if lineEnd.isEmpty then return breaks
    else quotedBreaks began fuel (breaks ++ lineEnd)

/-- The characters that end a run of ordinary ones inside quotes. -/
def isQuotedSpecial (c : Char) : Bool :=
  c == '\'' || c == '"' || c == '\\' || c == ' ' || c == '\t' || isBreak c

/-- What a backslash between double quotes stands for, with the backslash taken already. -/
def backslash (began : Mark) : Reader Text := do
  let found ← peek
  match found.bind escape?, found.bind escapeLength? with
  | some c, _ => skip 1; return [c]
  | none, some count => skip 1; return [← hexEscape began count]
  | none, none =>
    let lineEnd ← lineBreak
    if lineEnd.isEmpty then fail .doubleQuoted began (.unknownEscape found)
    else quotedBreaks began (← bound) []

/-- A run without blanks inside quotes. -/
def quotedWord (double : Bool) (began : Mark) : Nat → Text → Reader Text
  | 0, read => return read
  | fuel + 1, read => do
    let read := read ++ (← takeWhile (!isQuotedSpecial ·))
    let found ← peek
    if !double && found == some '\'' && (← peekAt 1) == some '\'' then
      skip 2
      quotedWord double began fuel (read ++ ['\''])
    else if double && found == some '\'' then
      skip 1
      quotedWord double began fuel (read ++ ['\''])
    else if !double && (found == some '"' || found == some '\\') then
      skip 1
      quotedWord double began fuel (read ++ found.toList)
    else if double && found == some '\\' then
      skip 1
      let escaped ← backslash began
      quotedWord double began fuel (read ++ escaped)
    else return read

/-- Blanks and line ends inside quotes: a single line end reads as a space. -/
def quotedSpaces (began : Mark) : Reader Text := do
  let blanks ← takeWhile fun c => c == ' ' || c == '\t'
  match ← peek with
  | none => fail .quotedScalar began .endInQuotes
  | some _ =>
    let lineEnd ← lineBreak
    if lineEnd.isEmpty then return blanks
    let breaks ← quotedBreaks began (← bound) []
    if lineEnd != ['\n'] then return lineEnd ++ breaks
    else if breaks.isEmpty then return [' ']
    else return breaks

/-- Words and spaces inside quotes up to the closing quote. -/
def quotedText (double : Bool) (began : Mark) : Nat → Text → Reader Text
  | 0, read => return read
  | fuel + 1, read => do
    if (← peek) == some (if double then '"' else '\'') then return read
    let spaces ← quotedSpaces began
    let word ← quotedWord double began (← bound) []
    quotedText double began fuel (read ++ spaces ++ word)

/-- The code points that U+FFFD is read for, in what is written between double quotes. The digits of
an escape hold neither U+FFFD nor a backslash, so that they need not be passed over. -/
def replacementCodes : Text → List Nat
  | '\\' :: c :: rest =>
    match escapeLength? c with
    | some count =>
      let code := hexValue (rest.take count)
      if isHalf code || code == 0xFFFD then code :: replacementCodes rest
      else replacementCodes rest
    | none => replacementCodes rest
  | c :: rest => if c == '\ufffd' then 0xFFFD :: replacementCodes rest else replacementCodes rest
  | [] => []

/-- The same, unless all of them are characters. -/
def halvesOf (written : Text) : List Nat :=
  let codes := replacementCodes written
  if codes.any isHalf then codes else []

/-- A scalar in single or double quotes. -/
def quotedScalar (double : Bool) : Reader Token := do
  let began ← mark
  skip 1
  let source ← rest
  let word ← quotedWord double began (← bound) []
  let text ← quotedText double began (← bound) word
  let written := source.take (source.length - (← rest).length)
  skip 1
  let scalar : Scalar := ⟨text, if double then halvesOf written else []⟩
  return ⟨.scalar scalar false, began, ← mark⟩

/-! ### Plain scalars -/

/-- Does the plain scalar end at this character, given the one after it? A colon ends it before
a blank, and so do the indicators of flow collections inside of one. -/
def endsPlain (flow : Bool) (c : Char) (next : Option Char) : Bool :=
  endsToken (some c)
    || (c == ':' && (endsToken next || (flow && next.any ",[]\x7b\x7d".toList.contains)))
    || (flow && ",?[]\x7b\x7d".toList.contains c)

/-- The length of the run of plain characters at the start. -/
def plainLength (flow : Bool) : Text → Nat
  | [] => 0
  | c :: rest => if endsPlain flow c rest.head? then 0 else plainLength flow rest + 1

/-- Spaces and the ends of empty lines inside a plain scalar, and whether a line that separates
documents follows. -/
def plainBreaks : Nat → Text → Reader (Text × Bool)
  | 0, breaks => return (breaks, false)
  | fuel + 1, breaks => do
    if (← peek) == some ' ' then
      skip 1
      plainBreaks fuel breaks
    else
      let lineEnd ← lineBreak
      if lineEnd.isEmpty then return (breaks, false)
      else if ← atSeparator then return (breaks, true)
      else plainBreaks fuel (breaks ++ lineEnd)

/-- The space between two runs of a plain scalar, as it reads, and whether a line ended in it.
Nothing is read where the scalar cannot go on. -/
def plainSpaces : Reader (Text × Bool) := do
  let blanks ← takeWhile (· == ' ')
  let lineEnd ← lineBreak
  if lineEnd.isEmpty then return (blanks, false)
  if ← atSeparator then return ([], true)
  let (breaks, separated) ← plainBreaks (← bound) []
  if separated then return ([], true)
  else if lineEnd != ['\n'] then return (lineEnd ++ breaks, true)
  else if breaks.isEmpty then return ([' '], true)
  else return (breaks, true)

/-- A plain scalar as far as it has been read. -/
structure Plain where
  text : Text
  stop : Mark
  /-- A line ended after the last run, so that a simple key may follow. -/
  lineEnded : Bool

/-- The runs of a plain scalar, each after the spaces before it. -/
def plainRuns (flow : Bool) (indent : Int) : Nat → Text → Plain → Reader Plain
  | 0, _, plain => return plain
  | fuel + 1, spaces, plain => do
    let text ← rest
    let length := if text.head? = some '#' then 0 else plainLength flow text
    if length = 0 then return plain
    let run ← take length
    let stop ← mark
    let (next, lineEnded) ← plainSpaces
    let plain : Plain := ⟨plain.text ++ spaces ++ run, stop, lineEnded⟩
    if next.isEmpty || (← peek) == some '#' || (!flow && (← column) < indent) then return plain
    else plainRuns flow indent fuel next plain

/-- A plain scalar inside a collection of the given indentation, and whether a line ended after
its last run. -/
def plainScalar (flow : Bool) (parent : Int) : Reader (Token × Bool) := do
  let began ← mark
  let plain ← plainRuns flow (parent + 1) (← bound) [] ⟨[], began, false⟩
  return (⟨.scalar (.ofText plain.text) true, began, plain.stop⟩, plain.lineEnded)

end SiteAudit.Yaml.Reader
