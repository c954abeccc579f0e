import SiteAudit.Yaml.Lexeme

/-!
# The tokens of a text

A text is cut into tokens from its start. The indentation decides where block collections start
and end. A colon makes a key of the token before it, if that one may be a key: such tokens are
kept as candidates until the line ends or too many characters follow. A key indicator is then
put in front of the candidate, so that no token from the first candidate on can be handed out
before the candidate is settled: `tokens` keeps this in mind when the text turns out to be wrong.
-/

namespace SiteAudit.Yaml

/-- A token that becomes a key if a colon follows. -/
structure Candidate where
  /-- The number of flow collections around it. -/
  level : Nat
  /-- The number of tokens before it. -/
  number : Nat
  /-- Nothing but a key can stand there. -/
  required : Bool
  mark : Mark
  deriving DecidableEq, Repr

/-- The tokens found so far, and what decides about the next one. -/
structure Lexer where
  cursor : Cursor
  /-- The tokens, latest first. -/
  found : List Token
  /-- The number of flow collections that are open. -/
  level : Nat
  /-- The column of the innermost block collection, and those around it. -/
  indent : Int
  outer : List Int
  /-- May the next token be a key? -/
  keyAllowed : Bool
  candidates : List Candidate

namespace Lexer

/-- The start of a text. -/
def ofText (t : Text) : Lexer := ⟨.ofText t, [], 0, -1, [], true, []⟩

/-- A candidate stays one for this many characters. -/
def reach : Nat := 1024

/-- Puts a token at the end. -/
def push (s : Lexer) (token : Token) : Lexer := { s with found := token :: s.found }

/-- Puts a token of no length at the end. -/
def pushEmpty (s : Lexer) (kind : Token.Kind) : Lexer :=
  s.push ⟨kind, s.cursor.mark, s.cursor.mark⟩

/-- Puts a token of no length before the token with the given number. -/
def insert (s : Lexer) (number : Nat) (kind : Token.Kind) (mark : Mark) : Lexer :=
  let after := s.found.length - number
  { s with found := s.found.take after ++ ⟨kind, mark, mark⟩ :: s.found.drop after }

/-- The tokens that can be handed out for certain: those before the first candidate. -/
def settled (s : Lexer) : Nat :=
  s.candidates.foldl (fun n c => min n c.number) s.found.length

/-- The failure of a required key that is none. -/
def missingColon (s : Lexer) (c : Candidate) : Error :=
  .at_ (some (.simpleKey, some c.mark)) .noColon s.cursor.mark

/-- Is the candidate out of reach of a colon at the place reached? -/
def isStale (s : Lexer) (c : Candidate) : Bool :=
  c.mark.line != s.cursor.mark.line || reach < s.cursor.mark.index - c.mark.index

/-- Drops the candidates that a colon can no longer reach. -/
def dropStale (s : Lexer) : Except Error Lexer :=
  match s.candidates.find? fun c => s.isStale c && c.required with
  | some c => .error (s.missingColon c)
  | none => .ok { s with candidates := s.candidates.filter (!s.isStale ·) }

/-- Drops the candidate among the tokens of the innermost flow collection. -/
def dropCandidate (s : Lexer) : Except Error Lexer :=
  match s.candidates.find? fun c => c.level == s.level && c.required with
  | some c => .error (s.missingColon c)
  | none => .ok { s with candidates := s.candidates.filter (·.level != s.level) }

/-- Makes the next token a candidate, if it may be a key. -/
def addCandidate (s : Lexer) : Except Error Lexer :=
  if s.keyAllowed then do
    let s ← s.dropCandidate
    let required := s.level == 0 && s.indent == s.cursor.mark.column
    let c : Candidate := ⟨s.level, s.found.length, required, s.cursor.mark⟩
    return { s with candidates := s.candidates ++ [c] }
  else .ok s

/-- Ends the block collections that stand to the right of a column. Each of them took an entry
of the list of outer columns, which bounds their number. -/
def unwind (column : Int) (s : Lexer) : Lexer :=
  if s.level ≠ 0 then s else go s.outer s
where
  /-- Ends one collection after the other. -/
  go : List Int → Lexer → Lexer
    | [], s => s
    | parent :: outer, s =>
      if column < s.indent then
        go outer { s.pushEmpty .blockEnd with indent := parent, outer := outer }
      else s

/-- Starts a block collection at a column to the right of the innermost one. -/
def open_ (s : Lexer) (column : Nat) : Option Lexer :=
  if s.indent < column then some { s with indent := column, outer := s.indent :: s.outer }
  else none

/-- Starts a block collection at the place reached, if no collection is open there. -/
def openHere (s : Lexer) (kind : Token.Kind) : Lexer :=
  match s.open_ s.cursor.mark.column with
  | some s => s.pushEmpty kind
  | none => s

/-- A failure at the place reached. -/
def fail {α : Type} (s : Lexer) (problem : Problem) : Except Error α :=
  .error (.at_ none problem s.cursor.mark)

/-- Reads a token from the place reached. -/
def read (s : Lexer) (reader : Reader Token) : Except Error Lexer := do
  let (token, cursor) ← reader.run s.cursor
  return { s.push token with cursor := cursor }

/-- Reads an indicator of so many characters. -/
def readIndicator (s : Lexer) (kind : Token.Kind) (size : Nat) : Lexer :=
  let next := s.cursor.advance size
  { s.push ⟨kind, s.cursor.mark, next.mark⟩ with cursor := next }

/-! ### What each token changes -/

/-- The end of the text. -/
def endOfText (s : Lexer) : Except Error Lexer := do
  let s ← (s.unwind (-1)).dropCandidate
  return { s.pushEmpty .streamEnd with keyAllowed := false, candidates := [] }

/-- A directive line. -/
def directive (s : Lexer) : Except Error Lexer := do
  let s ← (s.unwind (-1)).dropCandidate
  { s with keyAllowed := false }.read Reader.directive

/-- A line that separates documents. -/
def separator (s : Lexer) (kind : Token.Kind) : Except Error Lexer := do
  let s ← (s.unwind (-1)).dropCandidate
  return { s with keyAllowed := false }.readIndicator kind 3

/-- The start of a flow collection, which may itself be a key. -/
def flowStart (s : Lexer) (kind : Token.Kind) : Except Error Lexer := do
  let s ← s.addCandidate
  return { s with level := s.level + 1, keyAllowed := true }.readIndicator kind 1

/-- The end of a flow collection. -/
def flowEnd (s : Lexer) (kind : Token.Kind) : Except Error Lexer := do
  let s ← s.dropCandidate
  return { s with level := s.level - 1, keyAllowed := false }.readIndicator kind 1

/-- The comma between the entries of a flow collection. -/
def flowEntry (s : Lexer) : Except Error Lexer := do
  let s ← { s with keyAllowed := true }.dropCandidate
  return s.readIndicator .flowEntry 1

/-- The dash before an entry of a block sequence. -/
def blockEntry (s : Lexer) : Except Error Lexer := do
  if s.level = 0 && !s.keyAllowed then s.fail .noSequenceEntry
  let s := if s.level = 0 then s.openHere .blockSequenceStart else s
  let s ← { s with keyAllowed := true }.dropCandidate
  return s.readIndicator .blockEntry 1

/-- The question mark before a key. -/
def key (s : Lexer) : Except Error Lexer := do
  if s.level = 0 && !s.keyAllowed then s.fail .noMappingKey
  let s := if s.level = 0 then s.openHere .blockMappingStart else s
  let s ← { s with keyAllowed := s.level == 0 }.dropCandidate
  return s.readIndicator .key 1

/-- A colon after a candidate, which becomes a key. -/
def valueOf (s : Lexer) (c : Candidate) : Lexer :=
  let s := { s with candidates := s.candidates.filter (·.level != s.level) }
  let s := s.insert c.number .key c.mark
  let s := match if s.level = 0 then s.open_ c.mark.column else none with
    | some s => s.insert c.number .blockMappingStart c.mark
    | none => s
  { s with keyAllowed := false }.readIndicator .value 1

/-- A colon without a candidate before it. -/
def valueAlone (s : Lexer) : Except Error Lexer := do
  if s.level = 0 && !s.keyAllowed then s.fail .noMappingValue
  let s := if s.level = 0 then s.openHere .blockMappingStart else s
  let s ← { s with keyAllowed := s.level == 0 }.dropCandidate
  return s.readIndicator .value 1

/-- The colon before a value. -/
def value (s : Lexer) : Except Error Lexer :=
  match s.candidates.find? (·.level == s.level) with
  | some c => .ok (s.valueOf c)
  | none => s.valueAlone

/-- A token that may be a key and after which no key may follow at once. -/
def node (s : Lexer) (reader : Reader Token) : Except Error Lexer := do
  let s ← s.addCandidate
  { s with keyAllowed := false }.read reader

/-- A block scalar. -/
def blockScalar (s : Lexer) (folded : Bool) : Except Error Lexer := do
  let s ← { s with keyAllowed := true }.dropCandidate
  s.read (Reader.blockScalar folded s.indent)

/-- A plain scalar. -/
def plainScalar (s : Lexer) : Except Error Lexer := do
  let s ← s.addCandidate
  let ((token, lineEnded), cursor) ← (Reader.plainScalar (s.level != 0) s.indent).run s.cursor
  return { s.push token with cursor := cursor, keyAllowed := lineEnded }

/-! ### From token to token -/

/-- Spaces, comments and line ends before a token, and whether a line ended among them. -/
def space : Nat → Bool → Reader Bool
  | 0, ended => return ended
  | fuel + 1, ended => do
    Reader.skipSpaces
    Reader.skipComment
    if (← Reader.lineBreak).isEmpty then return ended else space fuel true

/-- Moves over what stands before the next token. A byte order mark may start the text. -/
def skipSpace (s : Lexer) : Except Error Lexer := do
  let reader : Reader Bool := do
    if (← Reader.mark).index = 0 && (← Reader.peek) == some '\ufeff' then Reader.skip 1
    space (← Reader.bound) false
  let (ended, cursor) ← reader.run s.cursor
  return { s with cursor := cursor, keyAllowed := s.keyAllowed || (ended && s.level == 0) }

/-- The characters that start no plain scalar by themselves. -/
def isIndicator (c : Char) : Bool :=
  "-?:,[]\x7b\x7d#&*!|>'\"%@\x60".toList.contains c

/-- Does a plain scalar start here? Some indicators start one when no blank follows. -/
def startsPlain (flow : Bool) (c : Char) (next : Option Char) : Bool :=
  !(endsToken (some c) || isIndicator c)
    || (!endsToken next && (c == '-' || (!flow && (c == '?' || c == ':'))))

/-- The token at the place reached. -/
def token (s : Lexer) : Except Error Lexer :=
  let rest := s.cursor.rest
  let flow := s.level != 0
  let isLine (c : Char) : Bool :=
    s.cursor.mark.column == 0 && rest.take 3 == [c, c, c] && endsToken rest[3]?
  match rest with
  | [] => s.endOfText
  | c :: after =>
    let free := endsToken after.head?
    if c == '%' && s.cursor.mark.column == 0 then s.directive
    else if isLine '-' then s.separator .documentStart
    else if isLine '.' then s.separator .documentEnd
    else if c == '[' then s.flowStart .flowSequenceStart
    else if c == '\x7b' then s.flowStart .flowMappingStart
    else if c == ']' then s.flowEnd .flowSequenceEnd
    else if c == '\x7d' then s.flowEnd .flowMappingEnd
    else if c == ',' then s.flowEntry
    else if c == '-' && free then s.blockEntry
    else if c == '?' && (flow || free) then s.key
    else if c == ':' && (flow || free) then s.value
    else if c == '*' then s.node (Reader.name .alias .alias)
    else if c == '&' then s.node (Reader.name .anchor .anchor)
    else if c == '!' then s.node Reader.tag
    else if c == '|' && !flow then s.blockScalar false
    else if c == '>' && !flow then s.blockScalar true
    else if c == '\'' then s.node (Reader.quotedScalar false)
    else if c == '"' then s.node (Reader.quotedScalar true)
    else if startsPlain flow c after.head? then s.plainScalar
    else .error (.at_ (some (.nextToken, none)) (.cannotStartToken (some c)) s.cursor.mark)

/-- One more token, with what its place ends or starts before it. -/
def step (s : Lexer) : Except Error Lexer := do
  let s ← s.skipSpace
  let s ← s.dropStale
  let s ← (s.unwind s.cursor.mark.column).token
  s.dropStale

/-- Is the end of the text among the tokens? -/
def isDone (s : Lexer) : Bool :=
  s.found.head?.any (·.kind == .streamEnd)

/-- All tokens after those found so far. -/
def run : Nat → Lexer → Feed Token
  | 0, s => ⟨s.found.reverse, none⟩
  | fuel + 1, s =>
    match s.step with
    | .error e => ⟨s.found.reverse.take s.settled, some e⟩
    | .ok next => if next.isDone then ⟨next.found.reverse, none⟩ else run fuel next

end Lexer

/-- The characters that may stand in a text. -/
def isAcceptable (c : Char) : Bool :=
  let n := c.toNat
  n == 9 || n == 10 || n == 13 || (0x20 ≤ n && n ≤ 0x7E) || n == 0x85 || (0xA0 ≤ n && n ≤ 0xFFFD)
    || 0x10000 ≤ n

/-- The first character that may not stand in a text, with the number of those before it. -/
def unacceptable? : Nat → Text → Option (Char × Nat)
  | _, [] => none
  | position, c :: rest =>
    if isAcceptable c then unacceptable? (position + 1) rest else some (c, position)

/-- The tokens of a text, up to the place where it turns out to be wrong. Every token but the
last takes at least one character. -/
def tokens (t : Text) : Feed Token :=
  match unacceptable? 0 t with
  | some (c, position) => ⟨[], some (.unacceptable c position)⟩
  | none => Lexer.run (t.length + 2) (.ofText t)

end SiteAudit.Yaml
