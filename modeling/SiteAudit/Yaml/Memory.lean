import SiteAudit.Yaml.Document

/-!
# The order of sets

A set has no order of its own: its members come as they lie in memory. Where a member lies depends
on what the members are known by. That is their value, which every reading of a text gives them
again; but a number that is none, and was read from a numeral, is known by its address, and each
reading puts it somewhere else. A `Memory` says what a process does with both. Nothing is assumed of
it.
-/

namespace SiteAudit.Yaml

/-- What a member of a set is known by. -/
inductive Handle where
  | value (atom : Atom)
  | address (n : Nat)
  deriving DecidableEq, Repr

/-- The memory of a process while it reads the same text, or texts made of it, several times. -/
structure Memory where
  /-- The place of a member among members that came in the given order. -/
  place : List Handle → Handle → Nat
  /-- Where a reading, known by its number, puts what it makes of a node. -/
  address : Nat → Nat → Nat

namespace Memory

/-- The memory in which members lie as they came. -/
def inOrder : Memory := ⟨fun _ _ => 0, fun _ _ => 0⟩

/-- What a reading makes an atom known by. -/
def handle (m : Memory) (reading : Nat) : Atom → Handle
  | .nan (some node) => .address (m.address reading node)
  | atom => .value atom

/-- The members of a set as they lie in memory. -/
def arrange (m : Memory) (reading : Nat) (members : List Leaf) : List Leaf :=
  let handles := members.map fun member => m.handle reading member.atom
  let place (member : Leaf) : Nat := m.place handles (m.handle reading member.atom)
  sortBy (fun a b => place a < place b) members

end Memory

/-- The parts of a collection as they lie in memory. -/
def Collection.arranged (m : Memory) (reading : Nat) : Collection → Collection
  | .set members => .set (m.arrange reading members)
  | c => c

/-- The document as a reading leaves it in memory. -/
def Document.arranged (d : Document) (m : Memory) (reading : Nat) : Document :=
  { d with collections := d.collections.map (·.map (·.arranged m reading)) }

end SiteAudit.Yaml
