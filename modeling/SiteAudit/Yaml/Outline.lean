import SiteAudit.Number.Numeral
import SiteAudit.Yaml.Document

/-!
# Outlines

The outline of a value is what the value says when it is written out: its atoms in their order,
the brackets of its collections, and, where a collection or a date comes again, a reference to
its first place. Two values have the same outline exactly if they are written in the same way.
Writing fails on an integer with too many digits.
-/

namespace SiteAudit.Yaml

/-- A part of an outline. -/
inductive Sign where
  | atom (atom : Atom)
  | openSequence
  | openMapping
  | openSet
  | close
  /-- What came first at the given place among all that can be referred to. -/
  | again (place : Nat)
  deriving DecidableEq, Repr

namespace Outline

/-- The nodes that can be referred to, and the signs, both latest first. -/
structure State where
  seen : List Nat
  signs : List Sign

/-- A step of the writing. -/
abbrev Writer := StateT State (Except NumeralError)

/-- Writes a sign. -/
def sign (s : Sign) : Writer Unit := modify fun state => { state with signs := s :: state.signs }

/-- Writes something that is known by its node: a reference if it came before. -/
def once (node : Nat) (write : Writer Unit) : Writer Unit := do
  let seen := (← get).seen
  match seen.reverse.idxOf? node with
  | some place => sign (.again place)
  | none =>
    modify fun state => { state with seen := node :: state.seen }
    write

/-- Writes an atom. Dates are known by their nodes, other atoms by their value alone. -/
def leaf (leaf : Leaf) : Writer Unit :=
  match leaf.atom with
  | .date _ | .dateTime _ => once leaf.node (sign (.atom leaf.atom))
  | .nan _ => sign (.atom (.nan none))
  | .int n =>
    if Numeral.digitLimit < (Text.ofNat n.natAbs).length then throw .tooLargeToWrite
    else sign (.atom (.int n))
  | atom => sign (.atom atom)

/-- Writes the entries of a mapping. -/
def entries (value : Value → Writer Unit) (entries : Entries) : Writer Unit := do
  sign .openMapping
  entries.forM fun entry => do
    leaf entry.1
    value entry.2
  sign .close

/-- Writes a collection, given how its parts are written. -/
def collection (value : Value → Writer Unit) : Collection → Writer Unit
  | .sequence items => do
    sign .openSequence
    items.forM value
    sign .close
  | .pairs pairs => do
    sign .openSequence
    pairs.forM fun pair => do
      sign .openSequence
      value pair.1
      value pair.2
      sign .close
    sign .close
  | .mapping entries => Outline.entries value entries
  | .set members => do
    sign .openSet
    members.forM leaf
    sign .close

/-- Writes a value. No collection is entered twice, so the depth is at most their number. -/
def value (d : Document) : Nat → Value → Writer Unit
  | _, .leaf l => leaf l
  | 0, .collection _ => return ()
  | depth + 1, .collection node =>
    once node do
      match d.collection? (.collection node) with
      | some c => collection (value d depth) c
      | none => return ()

/-- The signs that a writer leaves. -/
def run (w : Writer Unit) : Except NumeralError (List Sign) := do
  let (_, state) ← w.run ⟨[], []⟩
  return state.signs.reverse

end Outline

namespace Document

/-- The outline of a value. -/
def outline (d : Document) (v : Value) : Except NumeralError (List Sign) :=
  Outline.run (Outline.value d (d.collections.size + 1) v)

/-- The outline of a mapping with the given entries. -/
def outlineEntries (d : Document) (entries : Entries) : Except NumeralError (List Sign) :=
  Outline.run (Outline.entries (Outline.value d (d.collections.size + 1)) entries)

end Document

end SiteAudit.Yaml
