import SiteAudit.Number.Shortest

/-!
# JSON values and their text

A JSON value keeps the order of the entries of its objects. Its text does not: entries stand in
the order of their keys, so that equal values have equal texts.
-/

namespace SiteAudit

/-- A JSON value. Integers are kept apart from the numbers with a point or an exponent. -/
inductive Json where
  | null
  | bool (b : Bool)
  | int (n : Int)
  | float (x : Binary64)
  | text (t : Text)
  | array (items : List Json)
  | object (entries : List (Text × Json))
  deriving Inhabited

namespace Json

/-- One character inside quotes: quotes, backslashes and control characters are escaped. -/
def escapeChar (c : Char) : Text :=
  if c = '"' ∨ c = '\\' then ['\\', c]
  else if c = '\n' then ['\\', 'n']
  else if c = '\r' then ['\\', 'r']
  else if c = '\t' then ['\\', 't']
  else if c = '\x08' then ['\\', 'b']
  else if c = '\x0c' then ['\\', 'f']
  else if c.val < 0x20 then ['\\', 'u'] ++ Text.padHex 4 c.toNat
  else [c]

/-- A text between quotes. -/
def quote (t : Text) : Text :=
  '"' :: t.flatMap escapeChar ++ ['"']

/-- The text of a number that is not an integer. -/
def floatText : Binary64 → Text
  | .nan => "NaN"
  | .infinite negative => if negative then "-Infinity" else "Infinity"
  | x => x.text

/-- How the parts of arrays and objects are set: in one line, or each on a line of its own that
is indented by so many spaces more than the line around it. -/
inductive Layout where
  | line
  | indented (width : Nat)
  deriving DecidableEq, Repr

/-- What stands before a part at the given depth. -/
def Layout.lineBreak (layout : Layout) (depth : Nat) : Text :=
  match layout with
  | .line => []
  | .indented width => '\n' :: List.replicate (width * depth) ' '

/-- What stands between two parts at the given depth. -/
def Layout.comma (layout : Layout) (depth : Nat) : Text :=
  match layout with
  | .line => [',', ' ']
  | .indented _ => ',' :: layout.lineBreak depth

/-- Parts between brackets; nothing stands between those of an empty array or object. -/
def Layout.bracket (layout : Layout) (depth : Nat) (open_ close : Char) (parts : List Text) :
    Text :=
  match parts with
  | [] => [open_, close]
  | _ =>
    open_ :: layout.lineBreak (depth + 1) ++ Text.join (layout.comma (depth + 1)) parts
      ++ layout.lineBreak depth ++ [close]

/-- The entries in the order of their keys, each as key and value with a colon. -/
def joinEntries (entries : List (Text × Text)) : List Text :=
  (sortBy (fun a b => Text.before a.1 b.1) entries).map fun entry =>
    quote entry.1 ++ [':', ' '] ++ entry.2

mutual

/-- The text of a value at the given depth. -/
def render (layout : Layout) (depth : Nat) : Json → Text
  | .null => "null"
  | .bool b => if b then "true" else "false"
  | .int n => Text.ofInt n
  | .float x => floatText x
  | .text t => quote t
  | .array items => layout.bracket depth '[' ']' (renderItems layout (depth + 1) items)
  | .object entries =>
    layout.bracket depth '\x7b' '\x7d' (joinEntries (renderEntries layout (depth + 1) entries))

/-- The texts of the items of an array. -/
def renderItems (layout : Layout) (depth : Nat) : List Json → List Text
  | [] => []
  | item :: items => render layout depth item :: renderItems layout depth items

/-- The keys of an object with the texts of their values. -/
def renderEntries (layout : Layout) (depth : Nat) : List (Text × Json) → List (Text × Text)
  | [] => []
  | (key, value) :: entries =>
    (key, render layout depth value) :: renderEntries layout depth entries

end

/-- The text of a document: the value and a line end. -/
def document (layout : Layout) (value : Json) : Text :=
  render layout 0 value ++ ['\n']

/-- The value of a key of an object. -/
def get? (value : Json) (key : Text) : Option Json :=
  match value with
  | .object entries => entries.lookup key
  | _ => none

end Json

end SiteAudit
