import SiteAudit.Text.Base64
import SiteAudit.Text.LowerCase
import SiteAudit.Yaml.Document
import SiteAudit.Yaml.Graph

/-!
# Documents from graphs

The tag of a node decides what is made of it. Atoms are made at once; collections are entered in
a queue and get their parts when all collections before them have theirs, so that a collection
can be part of itself. In a mapping the pairs of the mappings under merge keys come first.
-/

namespace SiteAudit.Yaml

namespace Construction

/-! ### Atoms -/

/-- The truth values by their names in lower case. -/
def booleans : List (Text × Bool) :=
  [("yes", true), ("no", false), ("true", true), ("false", false), ("on", true), ("off", false)]

/-- A truth value. -/
def boolean (t : Text) : Except Error Atom :=
  match booleans.lookup (Text.toLower t) with
  | some b => .ok (.bool b)
  | none => .error (.unsuitable (.boolean t))

/-- An integer in a base. -/
def intIn (base : Nat) (t : Text) : Except Error Int :=
  match Numeral.readInt base t with
  | .ok n => .ok n
  | .error cause => .error (.numeral cause)

/-- A number that is not an integer. -/
def floatOf (t : Text) : Except Error Binary64 :=
  match Numeral.readBinary64 t with
  | .ok x => .ok x
  | .error cause => .error (.numeral cause)

/-- The sign of a number, which must not be empty, and what follows it. -/
def signed (t : Text) : Except Error (Bool × Text) :=
  if t.isEmpty then .error (.unsuitable .emptyNumber) else .ok (Numeral.takeSign t)

/-- An integer without its sign, in one of five notations. -/
def magnitude (t : Text) : Except Error Int :=
  match t with
  | [] => .error (.unsuitable .emptyNumber)
  | '0' :: [] => .ok 0
  | '0' :: 'b' :: digits => intIn 2 digits
  | '0' :: 'x' :: digits => intIn 16 digits
  | '0' :: _ => intIn 8 t
  | _ =>
    if t.contains ':' then do
      let groups ← (Text.splitOn ':' t).mapM (intIn 10)
      return groups.foldl (fun n group => n * 60 + group) 0
    else intIn 10 t

/-- An integer. Underscores may divide the digits. -/
def integer (t : Text) : Except Error Atom := do
  let (negative, rest) ← signed (t.filter (· != '_'))
  let n ← magnitude rest
  return .int (if negative then -n else n)

/-- A number in base sixty: from the last group on, each group counts with its weight, which is
itself rounded, and every sum is rounded. -/
def baseSixty : Nat → Binary64 → List Binary64 → Except Error Binary64
  | _, sum, [] => .ok sum
  | weight, sum, group :: groups =>
    match Binary64.ofInt weight with
    | .infinite _ => .error (.unsuitable .digitGroup)
    | w => baseSixty (weight * 60) (sum.add (group.mul w)) groups

/-- A number that need not be an integer. -/
def float (node : Nat) (t : Text) : Except Error Atom := do
  let (negative, rest) ← signed (Text.toLower (t.filter (· != '_')))
  if rest = ".inf" then return .float (.infinite negative)
  if rest = ".nan" then return .nan none
  let x ←
    if rest.contains ':' then do
      let groups ← (Text.splitOn ':' rest).mapM floatOf
      baseSixty 1 (.zero false) groups.reverse
    else floatOf rest
  match if negative then x.neg else x with
  | .nan => return .nan (some node)
  | x => return .float x

/-- The beginning of a run of characters beyond ASCII, and its length. -/
def notAscii? (t : Text) : Option (Nat × Text) :=
  let isAscii (c : Char) : Bool := c.val < 128
  let before := t.takeWhile isAscii
  let run := (t.drop before.length).takeWhile (!isAscii ·)
  if run.isEmpty then none else some (before.length, run)

/-- Why a text is not ASCII, in words. -/
def notAsciiMessage (position : Nat) (run : Text) : Text :=
  let place : Text := match run with
    | [c] => "character '" ++ Text.codeEscape c ++ "' in position " ++ Text.ofNat position
    | _ => "characters in position " ++ Text.ofNat position ++ ['-']
        ++ Text.ofNat (position + run.length - 1)
  "'ascii' codec can't encode " ++ place ++ ": ordinal not in range(128)"

/-- Bytes in base 64. -/
def binary (mark : Mark) (t : Text) : Except Error Atom :=
  match notAscii? t with
  | some (position, run) => .error (.at_ none (.notAscii (notAsciiMessage position run)) mark)
  | none =>
    match Base64.decode t with
    | .ok bytes => .ok (.bytes bytes)
    | .error e => .error (.at_ none (.base64 e.message) mark)

/-- A date or a moment. -/
def timestamp (t : Text) : Except Error Atom :=
  match Timestamp.ofText? t with
  | none => .error (.unsuitable (.timestamp t))
  | some stamp =>
    match stamp.moment with
    | .ok (.inl date) => .ok (.date date)
    | .ok (.inr moment) => .ok (.dateTime moment)
    | .error cause => .error (.calendar cause)

/-! ### The state of a construction -/

/-- The nodes, which change when mappings are merged, what has been made of them, and the
collections that wait for their parts. -/
structure State where
  nodes : Array Node
  made : Array (Option Value)
  collections : Array (Option Collection)
  waiting : List Nat

/-- A step of the construction. -/
abbrev Builder := StateT State (Except Error)

/-- The node that stands in for one that is not there. -/
def nothing : Node := ⟨.null, .start, .scalar (.ofText [])⟩

/-- A node by its number. -/
def nodeAt (node : Nat) : Builder Node := do
  return ((← get).nodes[node]?).getD nothing

/-- The pairs of a node; only a mapping has any. -/
def pairsOf (node : Nat) : Builder (List (Nat × Nat)) := do
  match (← nodeAt node).content with
  | .mapping pairs => return pairs
  | _ => return []

/-- Changes the pairs of a mapping. -/
def setPairs (node : Nat) (pairs : List (Nat × Nat)) : Builder Unit :=
  modify fun s =>
    { s with nodes := s.nodes.modify node fun n => { n with content := .mapping pairs } }

/-! ### Merging -/

/-- What a merge key brings in: the pairs of the mapping under it, or those of the mappings in
the sequence under it, the last mapping first. `flatten` merges into a mapping. -/
def mergedPairs (flatten : Nat → Builder Unit) (target : Mark) (source : Nat) :
    Builder (List (Nat × Nat)) := do
  let node ← nodeAt source
  match node.content with
  | .mapping _ =>
    flatten source
    pairsOf source
  | .sequence items =>
    items.foldlM (fun pairs item => do
      let part ← nodeAt item
      match part.content with
      | .mapping _ =>
        flatten item
        return (← pairsOf item) ++ pairs
      | other => throw (.at_ (some (.mapping, some target)) (.mergeOf other.kind) part.mark)) []
  | other => throw (.at_ (some (.mapping, some target)) (.mergeWith other.kind) node.mark)

/-- Looks at one pair of a mapping: a merge key leaves and brings in pairs, and the key of a
value becomes a text. -/
def mergeStep (flatten : Nat → Builder Unit) (node : Nat)
    (state : Nat × List (Nat × Nat)) : Builder (Nat × List (Nat × Nat)) := do
  let (index, merged) := state
  let pairs ← pairsOf node
  match pairs[index]? with
  | none => return (index, merged)
  | some (key, value) =>
    match (← nodeAt key).tag with
    | .merge =>
      setPairs node (pairs.eraseIdx index)
      let more ← mergedPairs flatten (← nodeAt node).mark value
      return (index, merged ++ more)
    | .value =>
      modify fun s => { s with nodes := s.nodes.modify key fun n => { n with tag := .text } }
      return (index + 1, merged)
    | _ => return (index + 1, merged)

/-- Puts the pairs under the merge keys of a mapping in front of its own. Merging goes no deeper
than there are merge keys, since each is taken away before the mappings under it are merged. -/
def flatten : Nat → Nat → Builder Unit
  | 0, _ => return ()
  | depth + 1, node => do
    let (_, merged) ← (List.replicate (← pairsOf node).length ()).foldlM
      (fun state _ => mergeStep (flatten depth) node state) (0, [])
    if !merged.isEmpty then setPairs node (merged ++ (← pairsOf node))

/-- The number of pairs in all mappings. -/
def pairCount (nodes : Array Node) : Nat :=
  nodes.foldl (fun n node => match node.content with
    | .mapping pairs => n + pairs.length
    | _ => n) 0

/-! ### Values -/

/-- What is written in a scalar, or in the scalar that a mapping keeps under the key of a value. A
search that passes more mappings than there are has come back to one of them, and has no end. -/
def written : Nat → Nat → Builder Scalar
  | 0, _ => throw (.unsuitable .circular)
  | fuel + 1, number => do
    let node ← nodeAt number
    match node.content with
    | .scalar scalar => return scalar
    | .sequence _ => throw (.at_ none (.notAScalar node.content.kind) node.mark)
    | .mapping pairs =>
      let nodes := (← get).nodes
      match pairs.find? fun pair => (nodes[pair.1]?).any (·.tag == .value) with
      | some (_, value) => written fuel value
      | none => throw (.at_ none (.notAScalar node.content.kind) node.mark)

/-- The text of a scalar as an atom. -/
def textOf (scalar : Scalar) : Atom :=
  if scalar.halves.isEmpty then .text scalar.text else .torn scalar.text scalar.halves

/-- The atom of a node with a scalar, or nothing if its tag is that of a collection. -/
def atom? (number : Nat) (node : Node) (scalar : Builder Scalar) : Builder (Option Atom) := do
  let text : Builder Text := do return (← scalar).text
  match node.tag with
  | .null => let _ ← text; return some .null
  | .bool => return some (← boolean (← text))
  | .int => return some (← integer (← text))
  | .float => return some (← float number (← text))
  | .binary => return some (← binary node.mark (← text))
  | .timestamp =>
    let t ← text
    match node.content with
    | .scalar _ => return some (← timestamp t)
    | _ => throw (.unsuitable .timestampMapping)
  | .text => return some (textOf (← scalar))
  | .orderedMap | .pairs | .set | .sequence | .mapping => return none
  | .merge | .value | .other _ => throw (.at_ none (.unknownTag node.tag.name) node.mark)

/-- The value of a node. It is made only once. -/
def value (number : Nat) : Builder Value := do
  let s ← get
  match (s.made[number]?).join with
  | some v => return v
  | none =>
    let node ← nodeAt number
    let v ← match ← atom? number node (written (s.nodes.size + 1) number) with
      | some atom => pure (Value.leaf ⟨atom, number⟩)
      | none => do
        modify fun s => { s with waiting := s.waiting ++ [number] }
        pure (Value.collection number)
    modify fun s => { s with made := s.made.setIfInBounds number (some v) }
    return v

/-- The entries of a mapping. -/
def entries (number : Nat) : Builder Entries := do
  let node ← nodeAt number
  match node.content with
  | .mapping _ =>
    flatten (pairCount (← get).nodes + 2) number
    (← pairsOf number).foldlM (fun (entries : Entries) (pair : Nat × Nat) => do
      match ← value pair.1 with
      | .leaf key => return entries.insert key (← value pair.2)
      | .collection _ =>
        throw (.at_ (some (.mapping, some node.mark)) .unhashableKey (← nodeAt pair.1).mark)) []
  | other => throw (.at_ none (.notAMapping other.kind) node.mark)

/-- The pairs of a sequence of mappings with one pair each. -/
def orderedPairs (context : Context) (node : Node) : Builder (List (Value × Value)) := do
  match node.content with
  | .sequence items =>
    items.mapM fun item => do
      let part ← nodeAt item
      match part.content with
      | .mapping [(key, second)] => return (← value key, ← value second)
      | .mapping pairs =>
        throw (.at_ (some (context, some node.mark)) (.entryOfMany pairs.length) part.mark)
      | other =>
        throw (.at_ (some (context, some node.mark)) (.entryNotAMapping other.kind) part.mark)
  | other =>
    throw (.at_ (some (context, some node.mark)) (.entriesNotASequence other.kind) node.mark)

/-- The parts of a collection. -/
def parts (number : Nat) : Builder Collection := do
  let node ← nodeAt number
  match node.tag with
  | .sequence =>
    match node.content with
    | .sequence items => return .sequence (← items.mapM value)
    | other => throw (.at_ none (.notASequence other.kind) node.mark)
  | .set => return .set ((← entries number).map (·.1))
  | .orderedMap => return .pairs (← orderedPairs .orderedMap node)
  | .pairs => return .pairs (← orderedPairs .pairs node)
  | _ => return .mapping (← entries number)

/-- Gives the waiting collections their parts, the first one first. No node waits twice. -/
def complete : Nat → Builder Unit
  | 0 => return ()
  | fuel + 1 => do
    match (← get).waiting with
    | [] => return ()
    | number :: waiting =>
      modify fun s => { s with waiting := waiting }
      let collection ← parts number
      modify fun s =>
        { s with collections := s.collections.setIfInBounds number (some collection) }
      complete fuel

end Construction

namespace Document

/-- The document of a graph. -/
def ofGraph (g : Graph) : Except Error Document := do
  let size := g.nodes.size
  let start : Construction.State := ⟨g.nodes, .replicate size none, .replicate size none, []⟩
  let construct : Construction.Builder Value := do
    let root ← Construction.value g.root
    Construction.complete (size + 1)
    return root
  let (root, state) ← construct.run start
  return ⟨root, state.collections⟩

/-- The only document of a text, if there is one. -/
def ofText (t : Text) : Except Error (Option Document) := do
  match ← Graph.ofText t with
  | some g => return some (← ofGraph g)
  | none => return none

end Document

end SiteAudit.Yaml
