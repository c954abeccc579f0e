import SiteAudit.Replacement

/-!
# Markers

What the checks look for on a line: attributes and calls of libraries that are to be given up,
their files, and the distribution script on a foreign host.
-/

namespace SiteAudit

/-- Something that a line may hold. -/
inductive Marker where
  /-- The attribute that makes an element open or close another one. -/
  | toggle
  /-- A call of the library that is to be given up. -/
  | call
  /-- A file of a library that is to be given up. -/
  | asset
  /-- The distribution script on a foreign host. -/
  | remoteTemplate
  deriving DecidableEq, Repr

namespace Marker

/-- The values of the attribute that count. -/
def toggleValues : List Text := ["collapse", "dropdown", "tooltip", "popover", "table"]

/-- Is this a quote of either kind? -/
def isQuote (c : Char) : Bool := c == '"' || c == '\''

/-- The text after a quote of either kind. -/
def dropQuote? : Text → Option Text
  | c :: rest => if isQuote c then some rest else none
  | [] => none

/-- Does the text start with one of the values and a quote after it? -/
def startsWithValue (t : Text) : Bool :=
  toggleValues.any fun value => ((Text.dropPrefix? value t).bind dropQuote?).isSome

/-- Does the text start with the attribute? -/
def startsWithToggle (t : Text) : Bool :=
  match Text.dropPrefix? "data-toggle" t with
  | none => false
  | some rest =>
    match Text.trimStart rest with
    | '=' :: rest => (dropQuote? (Text.trimStart rest)).any startsWithValue
    | _ => false

/-- Does the text start with a call? The name of the library counts as a whole word. -/
def startsWithCall (t : Text) : Bool :=
  Text.startsWith t "$("
    || (Text.dropPrefix? "jQuery" t).any fun rest => Replacement.isEdge rest.head?

/-- The files that are to be given up. -/
def assets : List Text :=
  ["bootstrap.min.css", "mdbootstrap", "mdb.min.css", "mdb.min.js", "third_party_libraries.jquery",
    "bootstrap.bundle.min.js"]

/-- Does the line hold the marker? -/
def occursIn (m : Marker) (line : Text) : Bool :=
  match m with
  | .toggle => Text.anyEnd startsWithToggle line
  | .call => Text.anyEnd startsWithCall line
  | .asset => assets.any fun name => Text.occursIn name line
  | .remoteTemplate => Text.occursIn Replacement.remoteTemplate line

end Marker

end SiteAudit
