import SiteAudit.Number.Binary64
import SiteAudit.Text.Utf8
import SiteAudit.Yaml.Timestamp

/-!
# Documents

The value of a YAML text. Atoms are values by themselves; a collection is named by the number of
the node that it was made of and found in the document, so that collections can be shared and can
contain themselves. The keys of mappings and the members of sets are atoms.
-/

namespace SiteAudit.Yaml

/-- The values without parts. -/
inductive Atom where
  | null
  | bool (b : Bool)
  | int (n : Int)
  | float (x : Binary64)
  /-- No number. The one that is written as such is the same everywhere; one that was read from
  another numeral is known by its node. -/
  | nan (node : Option Nat)
  | text (t : Text)
  /-- A text with halves of surrogate pairs. It has U+FFFD in their places; the code points in all
  places of U+FFFD are listed. -/
  | torn (t : Text) (halves : List Nat)
  | bytes (b : Bytes)
  | date (d : Date)
  | dateTime (t : DateTime)
  deriving DecidableEq, Repr

namespace Atom

/-- The integer that a truth value counts as among keys. -/
def int? : Atom → Option Int
  | .bool b => some (if b then 1 else 0)
  | .int n => some n
  | _ => none

/-- Are the two atoms one key? Numbers of all kinds are compared by their value, and moments by
universal time. -/
def sameKey (a b : Atom) : Bool :=
  match a, b with
  | .float x, .float y => x.same y
  | .float x, b => b.int?.any x.sameInt
  | a, .float y => a.int?.any y.sameInt
  | .dateTime s, .dateTime t => s.same t
  | a, b =>
    match a.int?, b.int? with
    | some m, some n => m == n
    | _, _ => a == b

end Atom

/-- An atom and the node that it was made of. -/
structure Leaf where
  atom : Atom
  node : Nat
  deriving DecidableEq, Repr

/-- A value: an atom, or a collection by the number of its node. -/
inductive Value where
  | leaf (leaf : Leaf)
  | collection (node : Nat)
  deriving DecidableEq, Repr

/-- The parts of a collection. The entries of a mapping have different keys and stand in the
order in which the keys were first given. -/
inductive Collection where
  | sequence (items : List Value)
  | pairs (entries : List (Value × Value))
  | mapping (entries : List (Leaf × Value))
  | set (members : List Leaf)
  deriving DecidableEq, Repr

/-- Entries by key. -/
abbrev Entries := List (Leaf × Value)

namespace Entries

/-- The entry of a key. A key that is no number is found only by itself. -/
def find? (entries : Entries) (key : Atom) : Option (Leaf × Value) :=
  List.find? (fun entry => entry.1.atom.sameKey key) entries

/-- The value of a key. -/
def get? (entries : Entries) (key : Text) : Option Value :=
  (find? entries (.text key)).map (·.2)

/-- Sets the value of a key; a key that is there keeps its place and its first form. -/
def insert (entries : Entries) (key : Leaf) (value : Value) : Entries :=
  if (find? entries key.atom).isSome then
    entries.map fun entry => if entry.1.atom.sameKey key.atom then (entry.1, value) else entry
  else entries ++ [(key, value)]

end Entries

/-- A value with the collections that can be reached from it. -/
structure Document where
  root : Value
  collections : Array (Option Collection)
  deriving DecidableEq, Repr

namespace Document

/-- The document that holds an empty mapping. -/
def emptyMapping : Document := ⟨.collection 0, #[some (.mapping [])]⟩

/-- The parts of a value that is a collection. -/
def collection? (d : Document) : Value → Option Collection
  | .leaf _ => none
  | .collection node => (d.collections[node]?).join

/-- The entries of a value that is a mapping. -/
def entries? (d : Document) (v : Value) : Option Entries :=
  match d.collection? v with
  | some (.mapping entries) => some entries
  | _ => none

/-- Is the value a mapping? -/
def isMapping (d : Document) (v : Value) : Bool := (d.entries? v).isSome

/-- Is the value nothing? -/
def isNull : Value → Bool
  | .leaf leaf => leaf.atom == .null
  | .collection _ => false

/-- Is the value this text? -/
def isText (t : Text) : Value → Bool
  | .leaf leaf => leaf.atom == .text t
  | .collection _ => false

/-- Is the value true? -/
def isTrue : Value → Bool
  | .leaf leaf => leaf.atom == .bool true
  | .collection _ => false

/-- The value of a key of the value, if that is a mapping with the key. -/
def get? (d : Document) (v : Value) (key : Text) : Option Value :=
  (d.entries? v).bind fun entries => entries.get? key

/-- The value at the end of a path of keys through mappings. -/
def dig (d : Document) : Value → List Text → Option Value
  | v, [] => some v
  | v, key :: keys => (d.get? v key).bind fun next => d.dig next keys

end Document

end SiteAudit.Yaml
