import SiteAudit.Text.Basic

/-!
# Places in a text

A mark is a place in a YAML text. In messages it is shown with the line around it, cut to a
window of the text, and a caret below the place.
-/

namespace SiteAudit.Yaml

/-- A place: the number of characters, of lines, and of columns before it. -/
structure Mark where
  index : Nat
  line : Nat
  column : Nat
  deriving DecidableEq, Repr

/-- The characters that end a line of a YAML text. -/
def isBreak (c : Char) : Bool :=
  c == '\n' || c == '\r' || c == '\x85' || c == '\u2028' || c == '\u2029'

namespace Mark

/-- The first place. -/
def start : Mark := ⟨0, 0, 0⟩

/-- Are the two places in one line and column? -/
def sameSpot (a b : Mark) : Bool := a.line == b.line && a.column == b.column

/-- At most this many characters are shown on either side of the place. -/
def window : Nat := 36

/-- This many characters give way to the dots of a cut. -/
def cut : Nat := 5

/-- What is shown of the characters next to the place, nearest first, and whether it was cut. -/
def visible (line : Text) : Text × Bool :=
  if window < line.length then (line.take (window + 1 - cut), true) else (line, false)

/-- The part of the line around the place, and the caret below. -/
def snippet (text : Text) (m : Mark) : Text :=
  let (before, cutBefore) := visible ((text.take m.index).reverse.takeWhile (!isBreak ·))
  let (after, cutAfter) := visible ((text.drop m.index).takeWhile (!isBreak ·))
  let dots (b : Bool) : Text := if b then " ... " else ""
  let left := dots cutBefore ++ before.reverse
  "    " ++ left ++ after ++ dots cutAfter ++ "\n    "
    ++ List.replicate left.length ' ' ++ "^"

/-- The place in words. -/
def describe (text : Text) (m : Mark) : Text :=
  "  in \"<unicode string>\", line " ++ Text.ofNat (m.line + 1) ++ ", column "
    ++ Text.ofNat (m.column + 1) ++ ":\n" ++ snippet text m

end Mark

end SiteAudit.Yaml
