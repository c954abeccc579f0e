import SiteAudit.Text.Basic

/-!
# Alternatives in braces

A pattern may list alternatives between braces, divided by commas. It stands for the patterns
with one alternative each. The first group without a group inside is expanded first, so that
groups inside of groups are expanded from the inside out.
-/

namespace SiteAudit.Braces

/-- A pattern cut at its first group without a brace inside. -/
structure Group where
  before : Text
  inside : Text
  after : Text
  deriving DecidableEq, Repr

/-- The rest of a group: the text up to its closing brace and what follows, unless another brace
comes first. -/
def closing? : Text → Option (Text × Text)
  | [] => none
  | c :: rest =>
    if c = '\x7d' then some ([], rest)
    else if c = '\x7b' then none
    else (closing? rest).map fun (inside, after) => (c :: inside, after)

/-- The first group without a brace inside. -/
def group? : Text → Option Group
  | [] => none
  | c :: rest =>
    match if c = '\x7b' then closing? rest else none with
    | some (inside, after) => some ⟨[], inside, after⟩
    | none => (group? rest).map fun g => { g with before := c :: g.before }

/-- The patterns that a pattern stands for, given a bound on the number of its groups. -/
def expandWithin : Nat → Text → List Text
  | 0, pattern => [pattern]
  | bound + 1, pattern =>
    match group? pattern with
    | none => [pattern]
    | some g =>
      (Text.splitOn ',' g.inside).flatMap fun option =>
        expandWithin bound (g.before ++ option ++ g.after)

/-- The patterns that a pattern stands for. Each expansion takes one opening brace away. -/
def expand (pattern : Text) : List Text :=
  expandWithin (pattern.count '\x7b') pattern

end SiteAudit.Braces
