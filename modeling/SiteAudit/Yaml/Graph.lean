import SiteAudit.Yaml.Event
import SiteAudit.Yaml.Tag

/-!
# Representation graphs

The nodes of a document. A node is named by its number, so that an alias is the number of its
anchor's node and a collection may contain itself.
-/

namespace SiteAudit.Yaml

/-- What a node consists of. -/
inductive Content where
  | scalar (scalar : Scalar)
  | sequence (items : List Nat)
  | mapping (pairs : List (Nat × Nat))
  deriving DecidableEq, Repr

/-- The kind of a node in words. -/
def Content.kind : Content → Text
  | .scalar _ => "scalar"
  | .sequence _ => "sequence"
  | .mapping _ => "mapping"

/-- A node, with the place where it starts. -/
structure Node where
  tag : Tag
  mark : Mark
  content : Content
  deriving DecidableEq, Repr

/-- The nodes of a document and the number of its outermost one. -/
structure Graph where
  nodes : Array Node
  root : Nat

namespace Graph

/-- A collection that is being read. The items are kept latest first. -/
inductive Frame where
  | sequence (node : Nat) (items : List Nat)
  | mapping (node : Nat) (pairs : List (Nat × Nat)) (key : Option Nat)

/-- The nodes read so far and the collections that are being read, innermost first. -/
structure Builder where
  nodes : Array Node
  anchors : List (Text × Nat)
  frames : List Frame
  root : Option Nat

namespace Builder

/-- Nothing has been read. -/
def empty : Builder := ⟨#[], [], [], none⟩

/-- The place of a node that has been read. -/
def markOf (b : Builder) (node : Nat) : Mark :=
  (b.nodes[node]?.map (·.mark)).getD .start

/-- Hands a node to the collection that it belongs to. -/
def place (node : Nat) (b : Builder) : Builder :=
  match b.frames with
  | [] => { b with root := some node }
  | .sequence s items :: frames => { b with frames := .sequence s (node :: items) :: frames }
  | .mapping m pairs none :: frames => { b with frames := .mapping m pairs (some node) :: frames }
  | .mapping m pairs (some key) :: frames =>
    { b with frames := .mapping m ((key, node) :: pairs) none :: frames }

/-- A new node. An anchor may be given only once. -/
def add (b : Builder) (anchor : Option Text) (node : Node) : Except Error (Nat × Builder) :=
  let number := b.nodes.size
  match anchor with
  | none => .ok (number, { b with nodes := b.nodes.push node })
  | some name =>
    match b.anchors.lookup name with
    | some first =>
      let began := some (b.markOf first)
      .error (.at_ (some (.firstOccurrence name, began)) .secondOccurrence node.mark)
    | none =>
      .ok (number, { b with nodes := b.nodes.push node, anchors := (name, number) :: b.anchors })

/-- The tag of a node, given the ones that its text and its kind suggest. -/
def tagOf (fromText fromKind : Tag) : Tagging → Tag
  | .given name => .ofName name
  | .fromText => fromText
  | .fromKind => fromKind

/-- Fills the innermost collection with its items and hands it on. -/
def close (b : Builder) : Builder :=
  let fill (node : Nat) (content : Content) (frames : List Frame) : Builder :=
    place node { b with
      nodes := b.nodes.modify node fun n => { n with content := content }, frames := frames }
  match b.frames with
  | [] => b
  | .sequence node items :: frames => fill node (.sequence items.reverse) frames
  | .mapping node pairs _ :: frames => fill node (.mapping pairs.reverse) frames

/-- Takes one event. Only one document may be read. -/
def step (b : Builder) (e : Event) : Except Error Builder :=
  match e.kind with
  | .documentStart =>
    match b.root with
    | some root =>
      let began := some (b.markOf root)
      .error (.at_ (some (.singleDocument, began)) .secondDocument e.mark)
    | none => .ok b
  | .documentEnd | .streamEnd => .ok b
  | .alias name =>
    match b.anchors.lookup name with
    | some node => .ok (b.place node)
    | none => .error (.at_ none (.undefinedAlias name) e.mark)
  | .scalar anchor tagging scalar => do
    let tag := tagOf (Tag.ofText scalar.text) .text tagging
    let (node, b) ← b.add anchor ⟨tag, e.mark, .scalar scalar⟩
    return b.place node
  | .sequenceStart anchor tagging => do
    let (node, b) ← b.add anchor ⟨tagOf .sequence .sequence tagging, e.mark, .sequence []⟩
    return { b with frames := .sequence node [] :: b.frames }
  | .mappingStart anchor tagging => do
    let (node, b) ← b.add anchor ⟨tagOf .mapping .mapping tagging, e.mark, .mapping []⟩
    return { b with frames := .mapping node [] none :: b.frames }
  | .sequenceEnd | .mappingEnd => .ok b.close

end Builder

/-- The graph of the only document of a text, if there is one. -/
def ofEvents (feed : Feed Event) : Except Error (Option Graph) := do
  let b ← feed.items.foldlM Builder.step .empty
  match feed.failure with
  | some e => throw e
  | none => return b.root.map fun root => ⟨b.nodes, root⟩

/-- The graph of the only document of a text, if there is one. -/
def ofText (t : Text) : Except Error (Option Graph) := ofEvents (events t)

end Graph

end SiteAudit.Yaml
