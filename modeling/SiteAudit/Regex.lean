import SiteAudit.Text.Alphanumeric
import SiteAudit.Text.Basic
import SiteAudit.Text.Digit

/-!
# Regular expressions

The patterns by which paths are left out. An expression is read into its parts; to match it is to
follow all ways through the text at once, so that the answer does not depend on the order of the
alternatives.
-/

namespace SiteAudit

/-- A regular expression. -/
inductive Regex where
  | nothing
  | char (c : Char)
  /-- Any character but a line feed. -/
  | any
  /-- A character that satisfies one of the conditions, or none of them. -/
  | oneOf (negated : Bool) (ranges : List (Char × Char)) (classes : List Char)
  /-- The start of the text. -/
  | start
  /-- The end of the text, or the place before a line feed that ends it. -/
  | stop
  /-- The very end of the text. -/
  | finish
  /-- An edge of a word, or a place that is none. -/
  | edge (negated : Bool)
  | both (first second : Regex)
  | either (first second : Regex)
  | many (part : Regex)
  deriving DecidableEq, Repr

namespace Regex

/-! ### Matching -/

/-- A place in a text: the character before it and the rest of the text. -/
structure Place where
  before : Option Char
  rest : Text
  deriving DecidableEq, Repr

/-- Does the character belong to the class with the given letter? A capital negates the class. -/
def inClass (letter c : Char) : Bool :=
  if letter = 'd' then (Text.decimalDigit? c).isSome
  else if letter = 'D' then (Text.decimalDigit? c).isNone
  else if letter = 'w' then Text.isWordChar c
  else if letter = 'W' then !Text.isWordChar c
  else if letter = 's' then Text.isBlank c
  else !Text.isBlank c

/-- The place after one character that satisfies the condition. -/
def Place.step (p : Place) (condition : Char → Bool) : List Place :=
  match p.rest with
  | c :: rest => if condition c then [⟨some c, rest⟩] else []
  | [] => []

/-- Is the place an edge of a word? -/
def Place.isEdge (p : Place) : Bool :=
  p.before.any Text.isWordChar != p.rest.head?.any Text.isWordChar

/-- The places that a repetition reaches, given those that one more part reaches. -/
def repeated (part : Place → List Place) : Nat → Place → List Place
  | 0, p => [p]
  | fuel + 1, p =>
    p :: ((part p).filter fun q => q.rest.length < p.rest.length).flatMap (repeated part fuel)

/-- The places that the expression leads to from a place. -/
def reach : Regex → Place → List Place
  | nothing, p => [p]
  | char c, p => p.step (· == c)
  | any, p => p.step (· != '\n')
  | oneOf negated ranges classes, p =>
    p.step fun c =>
      (ranges.any (fun range => range.1 ≤ c && c ≤ range.2) || classes.any (inClass · c)) != negated
  | start, p => if p.before.isNone then [p] else []
  | stop, p => if p.rest.isEmpty || p.rest == ['\n'] then [p] else []
  | finish, p => if p.rest.isEmpty then [p] else []
  | edge negated, p => if p.isEdge != negated then [p] else []
  | both first second, p => (first.reach p).flatMap second.reach
  | either first second, p => first.reach p ++ second.reach p
  | many part, p => repeated part.reach p.rest.length p

/-- Does the expression match from some place on, given the character before the text? -/
def searchFrom (r : Regex) : Option Char → Text → Bool
  | before, [] => !(r.reach ⟨before, []⟩).isEmpty
  | before, c :: rest => !(r.reach ⟨before, c :: rest⟩).isEmpty || searchFrom r (some c) rest

/-- Does the expression match somewhere in the text? -/
def search (r : Regex) (t : Text) : Bool := r.searchFrom none t

/-! ### Reading expressions -/

/-- A sequence of expressions. -/
def sequence : List Regex → Regex
  | [] => nothing
  | [r] => r
  | r :: rest => both r (sequence rest)

/-- The character that an escape stands for, where it is not the character itself. -/
def controlEscape? : Char → Option Char
  | 'n' => some '\n'
  | 't' => some '\t'
  | 'r' => some '\r'
  | 'f' => some '\x0c'
  | 'v' => some '\x0b'
  | 'a' => some '\x07'
  | _ => none

/-- The letters of classes. -/
def isClassLetter (c : Char) : Bool := "dDwWsS".toList.contains c

/-- The character that an escape stands for. A letter or a digit does not stand for itself. -/
def escapedChar? (c : Char) : Option Char :=
  match controlEscape? c with
  | some d => some d
  | none => if c.isAlphanum then none else some c

/-- The expression for a character after a backslash. -/
def escaped? (c : Char) : Option Regex :=
  if isClassLetter c then some (.oneOf false [] [c])
  else if c = 'b' then some (.edge false)
  else if c = 'B' then some (.edge true)
  else if c = 'A' then some .start
  else if c = 'Z' then some .finish
  else (escapedChar? c).map .char

/-- A character between brackets, and what follows it. An escaped `b` is a backspace there. -/
def member? : Text → Option (Char × Text)
  | [] => none
  | ['\\'] => none
  | '\\' :: c :: rest =>
    (if c = 'b' then some '\x08' else escapedChar? c).map fun d => (d, rest)
  | c :: rest => some (c, rest)

/-- The range that starts with the given character, and what follows it. A character without a
range is one by itself, also with a hyphen after it at the end. -/
def range? (c : Char) (rest : Text) : Option ((Char × Char) × Text) :=
  match rest with
  | '-' :: ']' :: more => some ((c, c), '-' :: ']' :: more)
  | '-' :: more => do
    let (d, after) ← member? more
    if c ≤ d then return ((c, d), after) else none
  | _ => some ((c, c), rest)

/-- What stands between brackets: ranges, letters of classes, and what follows the brackets. The
members read so far come first. A closing bracket is a member in the first place. -/
def bracket? : Nat → Bool → List (Char × Char) → List Char → Text →
    Option (List (Char × Char) × List Char × Text)
  | 0, _, _, _, _ => none
  | fuel + 1, isFirst, ranges, classes, t =>
    let next : Option (List (Char × Char) × List Char × Text) := do
      let (c, rest) ← member? t
      let (r, rest) ← range? c rest
      bracket? fuel false (r :: ranges) classes rest
    match t with
    | ']' :: rest => if isFirst then next else some (ranges, classes, rest)
    | '\\' :: c :: rest =>
      if !isClassLetter c then next
      else match rest with
        -- a class does not start a range
        | '-' :: d :: _ => if d = ']' then bracket? fuel false ranges (c :: classes) rest else none
        | _ => bracket? fuel false ranges (c :: classes) rest
    | _ => next

/-- A class between brackets, after the opening one. -/
def oneOf? (t : Text) : Option (Regex × Text) :=
  let (negated, t) : Bool × Text := match t with
    | '^' :: rest => (true, rest)
    | t => (false, t)
  (bracket? (t.length + 1) true [] [] t).map fun (ranges, classes, rest) =>
    (.oneOf negated ranges classes, rest)

/-- The text without a question mark in front. After a mark of repetition it asks for the shortest
match, which is no less a match. -/
def dropShortest (t : Text) : Text := if t.head? = some '?' then t.drop 1 else t

/-- Does the expression stand for a place, and for no text? -/
def isPlace : Regex → Bool
  | start | stop | finish | edge _ => true
  | _ => false

/-- Does a mark of repetition come next? -/
def isMarked (t : Text) : Bool := t.head?.any ("*+?\x7b".toList.contains ·)

/-- An expression with the mark of repetition after it, if there is one. A place is not repeated,
and nothing is repeated twice. -/
def withRepetition? (r : Regex) (t : Text) : Option (Regex × Text) :=
  let repetition (repeated : Regex) (rest : Text) : Option (Regex × Text) :=
    let rest := dropShortest rest
    if r.isPlace || isMarked rest then none else some (repeated, rest)
  match t with
  | '*' :: rest => repetition (.many r) rest
  | '+' :: rest => repetition (.both r (.many r)) rest
  | '?' :: rest => repetition (.either r .nothing) rest
  | rest => if isMarked rest then none else some (r, rest)

mutual

/-- Reads alternatives up to the end of the text or of a group. -/
def readAlternatives : Nat → Text → Option (Regex × Text)
  | 0, _ => none
  | fuel + 1, t => do
    let (first, rest) ← readSequence fuel [] t
    match rest with
    | '|' :: rest => do
      let (second, rest) ← readAlternatives fuel rest
      return (.either first second, rest)
    | rest => return (first, rest)

/-- Reads parts, after those read so far, latest first. -/
def readSequence : Nat → List Regex → Text → Option (Regex × Text)
  | 0, _, _ => none
  | fuel + 1, parts, t =>
    let next (r : Regex) (rest : Text) : Option (Regex × Text) := do
      let (r, rest) ← withRepetition? r rest
      readSequence fuel (r :: parts) rest
    match t with
    | [] => some (sequence parts.reverse, [])
    | '|' :: rest => some (sequence parts.reverse, '|' :: rest)
    | ')' :: rest => some (sequence parts.reverse, ')' :: rest)
    | '(' :: rest =>
      let inside := (Text.dropPrefix? ['?', ':'] rest).getD rest
      match readAlternatives fuel inside with
      | some (r, ')' :: rest) => next r rest
      | _ => none
    | '[' :: rest =>
      match oneOf? rest with
      | some (r, rest) => next r rest
      | none => none
    | '\\' :: rest =>
      match rest with
      | [] => none
      | c :: rest =>
        match escaped? c with
        | some r => next r rest
        | none => none
    | c :: rest =>
      if isMarked [c] then none
      else if c = '^' then next .start rest
      else if c = '$' then next .stop rest
      else if c = '.' then next .any rest
      else next (.char c) rest

end

/-- Reads an expression of the common kind: characters, classes, places, groups, alternatives and
marks of repetition. Nothing is told about any other text. -/
def ofText? (t : Text) : Option Regex := do
  let (r, rest) ← readAlternatives (2 * t.length + 2) t
  if rest.isEmpty then return r else failure

end Regex

end SiteAudit
