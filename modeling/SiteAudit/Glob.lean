import SiteAudit.Path

/-!
# Patterns for paths

A pattern has a part for each name of a path. In a part a star stands for any characters, a
question mark for one, and brackets for one of those that they list. A part of two stars stands
for any number of directories.
-/

namespace SiteAudit.Glob

/-- What one piece of a part stands for. -/
inductive Piece where
  | char (c : Char)
  | one
  | many
  /-- One character that lies in some range, or in none of them. -/
  | range (negated : Bool) (ranges : List (Char × Char))
  deriving DecidableEq, Repr

/-- A part of a pattern. -/
inductive Part where
  | name (pieces : List Piece)
  | anyDepth
  deriving DecidableEq, Repr

/-- A pattern; it may ask for directories. -/
structure Pattern where
  parts : List Part
  directories : Bool
  deriving DecidableEq, Repr

/-- Why a text is no pattern. -/
inductive Error where
  | empty
  | absolute
  | starsInName
  | noParts
  /-- Nothing but a slash after dots. -/
  | noName
  deriving DecidableEq, Repr

/-- The reason in words, if it has any. -/
def Error.message : Error → Text
  | .empty => "Unacceptable pattern: ''"
  | .absolute => "Non-relative patterns are unsupported"
  | .starsInName => "Invalid pattern: '**' can only be an entire path component"
  | .noParts => []
  | .noName => []

/-! ### Reading patterns -/

/-- The ranges between brackets: two characters with a hyphen between them, or one alone. -/
def ranges : Text → List (Char × Char)
  | a :: '-' :: b :: rest => (a, b) :: ranges rest
  | a :: rest => (a, a) :: ranges rest
  | [] => []

/-- The ranges, where a leading exclamation mark is one by itself. Those that hold nothing do not
count. -/
def members (inside : Text) : List (Char × Char) :=
  let all := match inside with
    | '!' :: rest => ('!', '!') :: ranges rest
    | rest => ranges rest
  all.filter fun range => range.1 ≤ range.2

/-- What the text between brackets stands for: an exclamation mark that comes first negates the
other members. -/
def choice (inside : Text) : Piece :=
  match members inside with
  | ('!', last) :: rest =>
    .range true (if last = '!' then rest else ('-', '-') :: (last, last) :: rest)
  | all => .range false all

/-- The text between brackets and what follows them, if they are closed. A closing bracket that
comes first, or first after an exclamation mark, stands for itself. -/
def bracket? (t : Text) : Option (Text × Text) :=
  let start : Text := if t.head? = some '!' then ['!'] else []
  let start := if (t.drop start.length).head? = some ']' then start ++ [']'] else start
  let inside := start ++ (t.drop start.length).takeWhile (· != ']')
  match t.drop inside.length with
  | [] => none
  | _ :: after => some (inside, after)

/-- The pieces of a part, of which the first `skip` characters have been read already. -/
def piecesFrom : Nat → Text → List Piece
  | _, [] => []
  | skip + 1, _ :: rest => piecesFrom skip rest
  | 0, c :: rest =>
    if c = '*' then .many :: piecesFrom 0 rest
    else if c = '?' then .one :: piecesFrom 0 rest
    else if c = '[' then
      match bracket? rest with
      | some (inside, after) => choice inside :: piecesFrom (rest.length - after.length) rest
      | none => .char c :: piecesFrom 0 rest
    else .char c :: piecesFrom 0 rest

/-- The pieces of a part. -/
def pieces (part : Text) : List Piece := piecesFrom 0 part

/-- One part of a pattern. -/
def part (t : Text) : Except Error Part :=
  if t = ['*', '*'] then .ok .anyDepth
  else if Text.occursIn ['*', '*'] t then .error .starsInName
  else .ok (.name (pieces t))

/-- Reads a pattern. -/
def parse (t : Text) : Except Error Pattern :=
  if t.isEmpty then .error .empty
  else if t.head? = some '/' then .error .absolute
  else
    let slash := t.getLast? == some '/'
    match Path.namesOf t with
    | [] => .error (if slash then .noName else .noParts)
    | names => do
      let parts ← names.mapM part
      return ⟨parts, slash || parts.getLast? == some .anyDepth⟩

/-! ### Matching -/

/-- Is the character in one of the ranges? -/
def inRanges (ranges : List (Char × Char)) (c : Char) : Bool :=
  ranges.any fun range => range.1 ≤ c && c ≤ range.2

/-- Does the piece stand for this one character? -/
def Piece.matchesChar (p : Piece) (c : Char) : Bool :=
  match p with
  | .char d => c == d
  | .one => true
  | .many => true
  | .range negated ranges => inRanges ranges c != negated

/-- Do the pieces make up the name? -/
def matchesName : List Piece → Text → Bool
  | [], name => name.isEmpty
  | .many :: rest, name => Text.anyEnd (matchesName rest) name
  | piece :: rest, name =>
    match name with
    | [] => false
    | c :: name => piece.matchesChar c && matchesName rest name

/-- Does some end of a list of names satisfy the condition? -/
def anyTail (p : List Text → Bool) : List Text → Bool
  | [] => p []
  | name :: names => p (name :: names) || anyTail p names

/-- Do the parts make up the names? -/
def matchesNames : List Part → List Text → Bool
  | [], names => names.isEmpty
  | .anyDepth :: rest, names => anyTail (matchesNames rest) names
  | .name pieces :: rest, names =>
    match names with
    | [] => false
    | name :: names => matchesName pieces name && matchesNames rest names

end SiteAudit.Glob
