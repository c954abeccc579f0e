import SiteAudit.Yaml.Timestamp

/-!
# Tags

The type of a node. A plain scalar without a tag of its own gets the tag that its text suggests:
a truth value, a number, nothing, a date, one of the two special keys, or else a text.
-/

namespace SiteAudit.Yaml

/-- The type of a node. -/
inductive Tag where
  | null
  | bool
  | int
  | float
  | binary
  | timestamp
  | orderedMap
  | pairs
  | set
  | text
  | sequence
  | mapping
  /-- The key under which other mappings are merged in. -/
  | merge
  /-- The key under which a mapping keeps the scalar it stands for. -/
  | value
  | other (name : Text)
  deriving DecidableEq, Repr

namespace Tag

/-- The last part of the name of each tag with a meaning. -/
def shortNames : List (Text × Tag) :=
  [("null", .null), ("bool", .bool), ("int", .int), ("float", .float), ("binary", .binary),
    ("timestamp", .timestamp), ("omap", .orderedMap), ("pairs", .pairs), ("set", .set),
    ("str", .text), ("seq", .sequence), ("map", .mapping), ("merge", .merge), ("value", .value)]

/-- What the names of these tags start with. -/
def family : Text := "tag:yaml.org,2002:"

/-- The tag of the given name. -/
def ofName (name : Text) : Tag :=
  match (Text.dropPrefix? family name).bind fun short => shortNames.lookup short with
  | some tag => tag
  | none => .other name

/-- The name of a tag. -/
def name : Tag → Text
  | .other name => name
  | tag => family ++ ((shortNames.find? fun entry => entry.2 = tag).map (·.1)).getD []

/-! ### Tags of plain scalars -/

/-- A truth value, in one of three spellings each. -/
def isBool (t : Text) : Bool :=
  ["yes", "Yes", "YES", "no", "No", "NO", "true", "True", "TRUE", "false", "False", "FALSE", "on",
    "On", "ON", "off", "Off", "OFF"].any (·.toList == t)

/-- Nothing at all, or a word for it. -/
def isNull (t : Text) : Bool :=
  t.isEmpty || ["~", "null", "Null", "NULL"].any (·.toList == t)

/-- What follows the sign, if there is one. -/
def dropSign : Text → Text
  | '+' :: rest => rest
  | '-' :: rest => rest
  | t => t

/-- A digit or an underscore, which may divide long numbers. -/
def isSpacedDigit (c : Char) : Bool := c.isDigit || c == '_'

/-- Digits and underscores after a first digit. -/
def isSpaced : Text → Bool
  | c :: rest => c.isDigit && rest.all isSpacedDigit
  | [] => false

/-- A group of a number in base sixty. -/
def isGroup : Text → Bool
  | [c] => c.isDigit
  | [c, d] => '0' ≤ c && c ≤ '5' && d.isDigit
  | _ => false

/-- The first part of a number in base sixty satisfies the condition, and groups follow it. -/
def isBaseSixty (first : Text → Bool) (t : Text) : Bool :=
  match Text.splitOn ':' t with
  | part :: group :: groups => first part && (group :: groups).all isGroup
  | _ => false

/-- Digits and underscores after a first digit that is not zero. -/
def isSpacedNonzero (t : Text) : Bool := isSpaced t && t.head? != some '0'

/-- An integer: binary, hexadecimal, octal, decimal or in base sixty. -/
def isInt (t : Text) : Bool :=
  let t := dropSign t
  let digits (p : Char → Bool) (rest : Text) : Bool :=
    !rest.isEmpty && rest.all fun c => p c || c == '_'
  match t with
  | '0' :: 'b' :: rest => digits (fun c => c == '0' || c == '1') rest
  | '0' :: 'x' :: rest => digits Text.isHexDigit rest
  | '0' :: rest => rest.isEmpty || digits (fun c => '0' ≤ c && c ≤ '7') rest
  | _ => isSpacedNonzero t || isBaseSixty isSpacedNonzero t

/-- Nothing, or an exponent with its sign. -/
def isExponent : Text → Bool
  | [] => true
  | e :: sign :: digits =>
    (e == 'e' || e == 'E') && (sign == '+' || sign == '-') && !digits.isEmpty
      && digits.all Char.isDigit
  | _ => false

/-- A number with a point, perhaps with an exponent or in base sixty, or a word for what is not
finite. -/
def isFloat (t : Text) : Bool :=
  let unsigned := dropSign t
  let whole := unsigned.takeWhile (· != '.')
  match unsigned.dropWhile (· != '.') with
  | _ :: fraction =>
    (isSpaced whole && isExponent (fraction.dropWhile isSpacedDigit))
      || (t.head? == some '.' && isSpaced (fraction.takeWhile isSpacedDigit)
        && isExponent (fraction.dropWhile isSpacedDigit))
      || (isBaseSixty isSpaced whole && fraction.all isSpacedDigit)
      || (whole.isEmpty && ["inf", "Inf", "INF"].any (·.toList == fraction))
      || (t.head? == some '.' && ["nan", "NaN", "NAN"].any (·.toList == fraction))
  | [] => false

/-- The tag that a text suggests. A line feed at the end of the text does not count, except that
it is not nothing. -/
def ofText (text : Text) : Tag :=
  let t := if text.getLast? = some '\n' then text.dropLast else text
  if isBool t then .bool
  else if isFloat t then .float
  else if isInt t then .int
  else if t = "<<" then .merge
  else if isNull t && (!t.isEmpty || text.isEmpty) then .null
  else if Timestamp.isPlain text then .timestamp
  else if t = "=" then .value
  else if t = "!" ∨ t = "&" ∨ t = "*" then .other (family ++ "yaml")
  else .text

end Tag

end SiteAudit.Yaml
