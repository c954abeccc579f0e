import SiteAudit.Yaml.Tokens

/-!
# Events

The structure of a YAML text as a sequence: documents, and in them scalars, aliases, and the
starts and ends of collections. What may come next is kept as a stack of expectations; each one
yields one event and takes the tokens that belong to it.
-/

namespace SiteAudit.Yaml

/-- Where the tag of a node comes from. -/
inductive Tagging where
  | given (tag : Text)
  /-- The text of a scalar decides. -/
  | fromText
  /-- The kind of the node decides. -/
  | fromKind
  deriving DecidableEq, Repr

namespace Event

/-- The kinds of events. -/
inductive Kind where
  | documentStart
  | documentEnd
  | streamEnd
  | alias (name : Text)
  | scalar (anchor : Option Text) (tagging : Tagging) (scalar : Scalar)
  | sequenceStart (anchor : Option Text) (tagging : Tagging)
  | sequenceEnd
  | mappingStart (anchor : Option Text) (tagging : Tagging)
  | mappingEnd
  deriving DecidableEq, Repr

end Event

/-- An event and the place where it starts. -/
structure Event where
  kind : Event.Kind
  mark : Mark
  deriving DecidableEq, Repr

/-- What may come next. Inside of a collection the place where it began is remembered. -/
inductive Expecting where
  | firstDocument
  | document
  | documentContent
  | documentEnd
  | blockNode
  | blockSequenceEntry (began : Mark)
  | indentlessEntry
  | blockMappingKey (began : Mark)
  | blockMappingValue (began : Mark)
  | flowSequenceFirst (began : Mark)
  | flowSequenceEntry (began : Mark)
  | pairKey (began : Mark)
  | pairValue (began : Mark)
  | pairEnd (began : Mark)
  | flowMappingFirst (began : Mark)
  | flowMappingKey (began : Mark)
  | flowMappingValue (began : Mark)
  | flowMappingNoValue (began : Mark)
  deriving DecidableEq, Repr

/-- The tokens still to come and the expectations, innermost first. -/
structure Outlook where
  feed : Feed Token
  stack : List Expecting
  /-- What the tag handles of the document stand for. -/
  handles : List (Text × Text)

/-- A step that takes tokens or fails. -/
abbrev Parser := StateT Outlook (Except Error)

namespace Parser

/-- The handles that need no declaration. -/
def standardHandles : List (Text × Text) :=
  [("!", "!"), ("!!", "tag:yaml.org,2002:")]

/-- The next token. The end of the text stands behind the last one. -/
def peek : Parser Token := do
  let feed := (← get).feed
  match feed.items, feed.failure with
  | token :: _, _ => return token
  | [], some e => throw e
  | [], none => return ⟨.streamEnd, .start, .start⟩

/-- Is the next token of a kind that satisfies the condition? -/
def next (p : Token.Kind → Bool) : Parser Bool := do return p (← peek).kind

/-- Takes the next token. -/
def take : Parser Token := do
  let token ← peek
  modify fun s => { s with feed := { s.feed with items := s.feed.items.tail } }
  return token

/-- Expects something more, before all else. -/
def expect (e : Expecting) : Parser Unit := modify fun s => { s with stack := e :: s.stack }

/-- A failure at the next token, in something that began earlier. -/
def fail {α : Type} (context : Context) (began : Mark) (problem : Text → Problem) : Parser α := do
  let token ← peek
  throw (.at_ (some (context, some began)) (problem token.kind.name) token.start)

/-- A scalar that is not written. -/
def emptyScalar (mark : Mark) : Event := ⟨.scalar none .fromText (.ofText []), mark⟩

/-- The token is a directive. -/
def isDirective : Token.Kind → Bool
  | .directive _ => true
  | _ => false

/-! ### Nodes -/

/-- The anchor and the tag before a node, in either order, with the places of the first of them
and of the tag. -/
structure Properties where
  anchor : Option Text
  tag : Option (Option Text × Text)
  start : Option Mark
  tagMark : Mark

/-- An anchor, if there is one. -/
def anchor? : Parser (Option (Text × Mark)) := do
  let token ← peek
  match token.kind with
  | .anchor name => let _ ← take; return some (name, token.start)
  | _ => return none

/-- A tag, if there is one. -/
def tag? : Parser (Option ((Option Text × Text) × Mark)) := do
  let token ← peek
  match token.kind with
  | .tag handle suffix => let _ ← take; return some ((handle, suffix), token.start)
  | _ => return none

/-- The anchor and the tag before a node. -/
def properties : Parser Properties := do
  match ← anchor? with
  | some (name, start) =>
    match ← tag? with
    | some (tag, mark) => return ⟨some name, some tag, some start, mark⟩
    | none => return ⟨some name, none, some start, start⟩
  | none =>
    match ← tag? with
    | some (tag, mark) => return ⟨(← anchor?).map (·.1), some tag, some mark, mark⟩
    | none => return ⟨none, none, none, .start⟩

/-- The whole tag of a node, where it differs from the lone mark. -/
def resolve (p : Properties) : Parser (Option Text) := do
  match p.tag with
  | none => return none
  | some (none, suffix) => return some suffix
  | some (some handle, suffix) =>
    match (← get).handles.lookup handle with
    | some start => return some (start ++ suffix)
    | none =>
      throw (.at_ (some (.node, p.start)) (.undefinedHandle handle) p.tagMark)

/-- A lone mark, like no tag at all, leaves the tag open. -/
def tagging (tag : Option Text) (otherwise : Tagging) : Tagging :=
  match tag with
  | none => otherwise
  | some tag => if tag = ['!'] then otherwise else .given tag

/-- The tag of a scalar that is written: only a plain one and one with a lone mark follow their
text. -/
def scalarTagging (tag : Option Text) (plain : Bool) : Tagging :=
  tagging tag (if plain || tag.isSome then .fromText else .fromKind)

/-- A node: an alias, or a scalar or the start of a collection with its properties. Block
collections are nodes only where `block` holds, and sequences without indentation of their own
only where `indentless` does. -/
def node (block indentless : Bool) : Parser Event := do
  let first ← peek
  match first.kind with
  | .alias name => let _ ← take; return ⟨.alias name, first.start⟩
  | _ =>
    let p ← properties
    let tag ← resolve p
    let token ← peek
    let start := p.start.getD token.start
    let sequence : Event := ⟨.sequenceStart p.anchor (tagging tag .fromKind), start⟩
    let mapping : Event := ⟨.mappingStart p.anchor (tagging tag .fromKind), start⟩
    match token.kind, block, indentless with
    | .blockEntry, _, true => expect .indentlessEntry; return sequence
    | .scalar scalar plain, _, _ =>
      let _ ← take
      return ⟨.scalar p.anchor (scalarTagging tag plain) scalar, start⟩
    | .flowSequenceStart, _, _ =>
      let _ ← take
      expect (.flowSequenceFirst token.start)
      return sequence
    | .flowMappingStart, _, _ =>
      let _ ← take
      expect (.flowMappingFirst token.start)
      return mapping
    | .blockSequenceStart, true, _ =>
      let _ ← take
      expect (.blockSequenceEntry token.start)
      return sequence
    | .blockMappingStart, true, _ =>
      let _ ← take
      expect (.blockMappingKey token.start)
      return mapping
    | _, _, _ =>
      if p.anchor.isSome || tag.isSome then
        return ⟨.scalar p.anchor (tagging tag .fromText) (.ofText []), start⟩
      else fail (if block then .blockNode else .flowNode) start .noContent

/-! ### Documents -/

/-- The directives before a document, after those read so far. Every one of them is a token. -/
def directives : List Token → Bool → List (Text × Text) → Parser (List (Text × Text))
  | [], _, handles => do
    let _ ← peek
    return handles
  | token :: rest, versioned, handles => do
    match token.kind with
    | .directive directive =>
      let _ ← take
      match directive with
      | .version major _ =>
        if versioned then throw (.at_ none .secondVersion token.start)
        if major ≠ 1 then throw (.at_ none .wrongVersion token.start)
        directives rest true handles
      | .handle handle start =>
        if (handles.lookup handle).isSome then
          throw (.at_ none (.secondHandle handle) token.start)
        directives rest versioned (handles ++ [(handle, start)])
      | .reserved _ => directives rest versioned handles
    | _ => return handles

/-- Takes the marks of document ends. -/
def skipDocumentEnds : List Token → Parser Unit
  | [] => return ()
  | token :: rest => do
    if token.kind == .documentEnd then
      let _ ← take
      skipDocumentEnds rest

/-- A document that starts with a line of its own, or the end of the text. -/
def document : Parser Event := do
  skipDocumentEnds (← get).feed.items
  let first ← peek
  if first.kind == .streamEnd then return ⟨.streamEnd, first.start⟩
  let declared ← directives (← get).feed.items false []
  modify fun s => { s with handles := declared ++ standardHandles }
  let token ← peek
  if token.kind != .documentStart then
    throw (.at_ none (.noDocumentStart token.kind.name) token.start)
  let _ ← take
  expect .documentEnd
  expect .documentContent
  return ⟨.documentStart, first.start⟩

/-- The first document, which may start without a line of its own. -/
def firstDocument : Parser Event := do
  let token ← peek
  if isDirective token.kind || token.kind == .documentStart || token.kind == .streamEnd then
    document
  else
    modify fun s => { s with handles := standardHandles }
    expect .documentEnd
    expect .blockNode
    return ⟨.documentStart, token.start⟩

/-- The content of a document after its first line. -/
def documentContent : Parser Event := do
  let token ← peek
  if isDirective token.kind || token.kind == .documentStart || token.kind == .documentEnd
      || token.kind == .streamEnd then
    return emptyScalar token.start
  else node true false

/-- The end of a document. -/
def documentEnd : Parser Event := do
  let token ← peek
  if token.kind == .documentEnd then
    let _ ← take
  expect .document
  return ⟨.documentEnd, token.start⟩

/-! ### Collections -/

/-- A node, or nothing where one of the given tokens follows. -/
def nodeUnless (stop : Token.Kind → Bool) (mark : Mark) (then_ : Expecting)
    (node : Parser Event) : Parser Event := do
  expect then_
  if ← next stop then return emptyScalar mark else node

/-- The end of a collection, if the given token is there. -/
def endOf (kind : Event.Kind) : Parser Event := do
  let token ← take
  return ⟨kind, token.start⟩

/-- An entry of a block sequence, or its end. -/
def blockSequenceEntry (began : Mark) : Parser Event := do
  let token ← peek
  if token.kind == .blockEntry then
    let _ ← take
    nodeUnless (fun k => k == .blockEntry || k == .blockEnd) token.stop
      (.blockSequenceEntry began) (node true false)
  else if token.kind == .blockEnd then endOf .sequenceEnd
  else fail .blockCollection began .noBlockEnd

/-- An entry of a sequence without indentation of its own, or its end. -/
def indentlessEntry : Parser Event := do
  let token ← peek
  if token.kind == .blockEntry then
    let _ ← take
    nodeUnless (fun k => k == .blockEntry || k == .key || k == .value || k == .blockEnd)
      token.stop .indentlessEntry (node true false)
  else return ⟨.sequenceEnd, token.start⟩

/-- What follows the key or the value of a block mapping that is not written. -/
def endsBlockPart (k : Token.Kind) : Bool := k == .key || k == .value || k == .blockEnd

/-- A key of a block mapping, or its end. -/
def blockMappingKey (began : Mark) : Parser Event := do
  let token ← peek
  if token.kind == .key then
    let _ ← take
    nodeUnless endsBlockPart token.stop (.blockMappingValue began) (node true true)
  else if token.kind == .blockEnd then endOf .mappingEnd
  else fail .blockMapping began .noBlockEnd

/-- A value of a block mapping. -/
def blockMappingValue (began : Mark) : Parser Event := do
  let token ← peek
  if token.kind == .value then
    let _ ← take
    nodeUnless endsBlockPart token.stop (.blockMappingKey began) (node true true)
  else
    expect (.blockMappingKey began)
    return emptyScalar token.start

/-- The comma before an entry of a flow collection that is not the first. -/
def separator (context : Context) (began : Mark) (problem : Text → Problem) : Parser Unit := do
  if ← next (· == .flowEntry) then
    let _ ← take
  else fail context began problem

/-- An entry of a flow sequence, or its end. A key starts a mapping of one pair. -/
def flowSequenceEntry (began : Mark) (first : Bool) : Parser Event := do
  if ← next (· == .flowSequenceEnd) then return ← endOf .sequenceEnd
  if !first then separator .flowSequence began .noSequenceSeparator
  let token ← peek
  if token.kind == .key then
    expect (.pairKey began)
    return ⟨.mappingStart none .fromKind, token.start⟩
  else if token.kind == .flowSequenceEnd then endOf .sequenceEnd
  else
    expect (.flowSequenceEntry began)
    node false false

/-- The key of a mapping of one pair. -/
def pairKey (began : Mark) : Parser Event := do
  let token ← take
  nodeUnless (fun k => k == .value || k == .flowEntry || k == .flowSequenceEnd) token.stop
    (.pairValue began) (node false false)

/-- The value of a mapping of one pair. -/
def pairValue (began : Mark) : Parser Event := do
  let token ← peek
  if token.kind == .value then
    let _ ← take
    nodeUnless (fun k => k == .flowEntry || k == .flowSequenceEnd) token.stop
      (.pairEnd began) (node false false)
  else
    expect (.pairEnd began)
    return emptyScalar token.start

/-- The end of a mapping of one pair. -/
def pairEnd (began : Mark) : Parser Event := do
  expect (.flowSequenceEntry began)
  return ⟨.mappingEnd, (← peek).start⟩

/-- A key of a flow mapping, or its end. -/
def flowMappingKey (began : Mark) (first : Bool) : Parser Event := do
  if ← next (· == .flowMappingEnd) then return ← endOf .mappingEnd
  if !first then separator .flowMapping began .noMappingSeparator
  let token ← peek
  if token.kind == .key then
    let _ ← take
    nodeUnless (fun k => k == .value || k == .flowEntry || k == .flowMappingEnd) token.stop
      (.flowMappingValue began) (node false false)
  else if token.kind == .flowMappingEnd then endOf .mappingEnd
  else
    expect (.flowMappingNoValue began)
    node false false

/-- A value of a flow mapping. -/
def flowMappingValue (began : Mark) : Parser Event := do
  let token ← peek
  if token.kind == .value then
    let _ ← take
    nodeUnless (fun k => k == .flowEntry || k == .flowMappingEnd) token.stop
      (.flowMappingKey began) (node false false)
  else
    expect (.flowMappingKey began)
    return emptyScalar token.start

/-- The event that meets an expectation. -/
def meet : Expecting → Parser Event
  | .firstDocument => firstDocument
  | .document => document
  | .documentContent => documentContent
  | .documentEnd => documentEnd
  | .blockNode => node true false
  | .blockSequenceEntry began => blockSequenceEntry began
  | .indentlessEntry => indentlessEntry
  | .blockMappingKey began => blockMappingKey began
  | .blockMappingValue began => blockMappingValue began
  | .flowSequenceFirst began => flowSequenceEntry began true
  | .flowSequenceEntry began => flowSequenceEntry began false
  | .pairKey began => pairKey began
  | .pairValue began => pairValue began
  | .pairEnd began => pairEnd began
  | .flowMappingFirst began => flowMappingKey began true
  | .flowMappingKey began => flowMappingKey began false
  | .flowMappingValue began => flowMappingValue began
  | .flowMappingNoValue began => do
    expect (.flowMappingKey began)
    return emptyScalar (← peek).start

/-- The event that meets the innermost expectation. Without one the text is at its end. -/
def event : Parser Event := do
  match (← get).stack with
  | [] => return ⟨.streamEnd, (← peek).start⟩
  | e :: stack =>
    modify fun s => { s with stack := stack }
    meet e

/-- All events. -/
def run : Nat → Outlook → Feed Event
  | 0, _ => ⟨[], none⟩
  | fuel + 1, s =>
    match event s with
    | .error e => ⟨[], some e⟩
    | .ok (e, next) =>
      if e.kind == .streamEnd then ⟨[e], none⟩
      else
        let feed := run fuel next
        ⟨e :: feed.items, feed.failure⟩

end Parser

/-- The events of a text, up to the place where it turns out to be wrong. At most four of them
come between one token and the next. -/
def events (t : Text) : Feed Event :=
  let feed := tokens t
  Parser.run (4 * feed.items.length + 8) ⟨feed, [.firstDocument], []⟩

end SiteAudit.Yaml
