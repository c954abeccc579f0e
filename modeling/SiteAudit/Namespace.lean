import SiteAudit.Config
import SiteAudit.Yaml.Memory
import SiteAudit.Yaml.Outline

/-!
# The namespace of a configuration

The settings of the theme live under one key of the configuration, in groups. `Namespace.fill`
completes them: where the key is missing it appends all settings with their defaults, and where
groups are missing it inserts them after the line of the key. A group that is there is never
touched. The text is worked on directly, so that comments and order survive, and a completion is
taken back unless the result reads as the same configuration with the missing groups filled in. What
is compared has been written out, its sets in the order in which they lie in memory, so that the
memory of the process has a part in whether a completion is taken back.
-/

namespace SiteAudit

/-- The groups of settings that a namespace must have. -/
inductive SettingGroup where
  | tailwind
  | distill
  deriving DecidableEq, Repr

namespace SettingGroup

/-- The groups in the order in which they are inserted. -/
def all : List SettingGroup := [.tailwind, .distill]

/-- The key of a group. -/
def key : SettingGroup → Text
  | .tailwind => "tailwind"
  | .distill => "distill"

/-- The default settings of a group. -/
def defaults : SettingGroup → List (Text × Text)
  | .tailwind =>
    [("version", "4.1.18"), ("preflight", "false"), ("css_entry", "assets/tailwind/app.css")]
  | .distill =>
    [("engine", "distillpub-template"), ("source", "alshedivat/distillpub-template#al-folio"),
      ("allow_remote_loader", "true")]

/-- The group with the given key. -/
def ofKey? (key : Text) : Option SettingGroup := all.find? fun group => group.key == key

/-- The lines of a group with its defaults, without a line end after the last one. -/
def block (group : SettingGroup) (indent lineEnd : Text) : Text :=
  Text.join lineEnd <|
    (indent ++ group.key ++ [':'])
      :: group.defaults.map fun (name, value) => indent ++ indent ++ name ++ [':', ' '] ++ value

end SettingGroup

/-- What stops a completion: the configuration has a scalar that does not suit its tag, or an
integer that cannot be written out for the comparison. -/
inductive CompletionError where
  | unsuitable (cause : Yaml.Unsuitable)
  | numeral (cause : NumeralError)
  deriving DecidableEq, Repr

namespace Namespace

/-- The key of the namespace. -/
def key : Text := "al_folio"

/-- The namespace with all its defaults. -/
def defaultLines : List Text :=
  ["al_folio:",
    "  api_version: 1",
    "  style_engine: tailwind",
    "  tailwind:",
    "    version: 4.1.18",
    "    preflight: false",
    "    css_entry: assets/tailwind/app.css",
    "  distill:",
    "    engine: distillpub-template",
    "    source: alshedivat/distillpub-template#al-folio",
    "    allow_remote_loader: true",
    "  compat:",
    "    bootstrap:",
    "      enabled: false",
    "      support_window: v1.0-v1.2",
    "      deprecates_in: v1.3",
    "      removed_in: v2.0",
    "  upgrade:",
    "    channel: stable",
    "    auto_apply_safe_fixes: false"]

/-- The default namespace, with a line end after every line. -/
def defaultBlock (lineEnd : Text) : Text := defaultLines.flatMap (· ++ lineEnd)

/-- The line end of a text: a carriage return belongs to it if one stands before any line feed. -/
def lineEndOf (content : Text) : Text :=
  if Text.occursIn ['\r', '\n'] content then ['\r', '\n'] else ['\n']

/-- Appends the default namespace, after an empty line if it is to stand apart. -/
def append (content : Text) (apart : Bool) : Text :=
  let lineEnd := lineEndOf content
  let block := defaultBlock lineEnd
  if content.isEmpty then block
  else
    let content := if content.endsWith ['\n'] then content else content ++ lineEnd
    let content :=
      if apart && !content.endsWith (lineEnd ++ lineEnd) then content ++ lineEnd else content
    content ++ block

/-! ### The line of the key -/

/-- Does a line end here, with or without a carriage return before its line feed? -/
def atLineEnd : Text → Bool
  | [] => true
  | '\n' :: _ => true
  | '\r' :: rest => rest.isEmpty || rest.head? == some '\n'
  | _ => false

/-- The length of the key with the blanks and the comment after it, if they make up a line. -/
def headerLength? (line : Text) : Option Nat := do
  let rest ← Text.dropPrefix? (key ++ [':']) line
  let rest := rest.dropWhile fun c => c == ' ' || c == '\t'
  let rest :=
    if rest.head? == some '#' then rest.dropWhile fun c => c != '\r' && c != '\n' else rest
  if atLineEnd rest then some (line.length - rest.length) else none

/-- The first line that holds the key alone: the number of characters before it and up to its
end. `lineStart` tells whether a line starts at the text. -/
def findHeader? : Nat → Bool → Text → Option (Nat × Nat)
  | _, _, [] => none
  | position, lineStart, c :: rest =>
    match if lineStart then headerLength? (c :: rest) else none with
    | some length => some (position, position + length)
    | none => findHeader? (position + 1) (c == '\n') rest

/-- The indentation of the first line after the header that is neither empty nor a comment; two
spaces where there is none. -/
def childIndent (fromHeader : Text) : Text :=
  let isContent (line : Text) : Bool :=
    match Text.trim line with
    | [] => false
    | c :: _ => c != '#'
  match ((Text.lines fromHeader).drop 1).find? isContent with
  | some line =>
    let indent := line.takeWhile fun c => c == ' ' || c == '\t'
    if indent.isEmpty then [' ', ' '] else indent
  | none => [' ', ' ']

/-- Inserts the given groups after the line of the key, if there is such a line. -/
def insert (content : Text) (groups : List SettingGroup) : Text :=
  match findHeader? 0 true content with
  | none => content
  | some (start, stop) =>
    if groups.isEmpty then content
    else
      let lineEnd := lineEndOf content
      let indent := childIndent (content.drop start)
      content.take stop ++ lineEnd
        ++ Text.join lineEnd (groups.map fun group => group.block indent lineEnd)
        ++ content.drop stop

/-- Inserts the groups with the given keys. There is nothing to insert without a line of the
key; otherwise every key must be that of a group. -/
def insertNamed? (content : Text) (keys : List Text) : Option Text :=
  if (findHeader? 0 true content).isNone then some content
  else (keys.mapM SettingGroup.ofKey?).map (insert content)

/-! ### Completion -/

/-- The configuration that a text holds; nothing for a text that is wrong. -/
def parse? (content : Text) : Except CompletionError (Option Config.Tree) :=
  match Config.parse content with
  | .ok tree => .ok (some tree)
  | .error (.invalid _) => .ok none
  | .error (.unsuitable cause) => .error (.unsuitable cause)

/-- The same, as a reading leaves it in memory. -/
def read? (m : Yaml.Memory) (reading : Nat) (content : Text) :
    Except CompletionError (Option Config.Tree) := do
  return (← parse? content).map (·.arranged m reading)

/-- The outline, or what stops it. -/
def outlined (o : Except NumeralError (List Yaml.Sign)) : Except CompletionError (List Yaml.Sign) :=
  match o with
  | .ok signs => .ok signs
  | .error cause => .error (.numeral cause)

/-- Does the text hold a mapping whose namespace is a mapping with all the groups? -/
def isFilled (content : Text) (groups : List SettingGroup) : Except CompletionError Bool := do
  match ← parse? content with
  | none => return false
  | some tree =>
    match (tree.get? tree.root key).bind tree.entries? with
    | none => return false
    | some entries => return groups.all fun group => (entries.get? group.key).isSome

/-- The entries beside the namespace. -/
def others (entries : Yaml.Entries) : Yaml.Entries :=
  entries.filter fun entry => !entry.1.atom.sameKey (.text key)

/-- Is the entry of one document among the entries of another one, with a value that is written
in the same way? No number read from a text is found in another document. -/
def entryKept (before after : Config.Tree) (entry : Yaml.Leaf × Yaml.Value)
    (entries : Yaml.Entries) : Except CompletionError Bool := do
  let found := match entry.1.atom with
    | .nan (some _) => none
    | atom => Yaml.Entries.find? entries atom
  match found with
  | none => return false
  | some (_, value) =>
    return (← outlined (before.outline entry.2)) == (← outlined (after.outline value))

/-- Are all the entries kept? -/
def entriesKept (before after : Config.Tree) (entries : Yaml.Entries) :
    Yaml.Entries → Except CompletionError Bool
  | [] => return true
  | entry :: rest => do
    if ← entryKept before after entry entries then entriesKept before after entries rest
    else return false

/-- Does the text hold the same settings as before? Outside of the namespace nothing may differ;
within it nothing that was there. The text is read for this once more. -/
def isPreserved (m : Yaml.Memory) (reading : Nat) (before : Config.Tree) (entries : Yaml.Entries)
    (content : Text) : Except CompletionError Bool := do
  match ← read? m reading content with
  | none => return false
  | some after =>
    match after.entries? after.root with
    | none => return false
    | some newEntries =>
      let old ← outlined (before.outlineEntries (others entries))
      let new ← outlined (after.outlineEntries (others newEntries))
      if old != new then return false
      match (entries.get? key).bind before.entries? with
      | none => return true
      | some namespaceEntries =>
        match (newEntries.get? key).bind after.entries? with
        | none => return false
        | some newNamespace => entriesKept before after newNamespace namespaceEntries

/-- The outcome of a completion. -/
structure Completion where
  content : Text
  /-- A completion was tried and taken back. -/
  declined : Bool
  deriving DecidableEq, Repr

/-- The text with what is missing, before it is checked; nothing if nothing is missing or the
namespace is something that cannot be completed. -/
def candidate? (m : Yaml.Memory) (tree : Config.Tree) (entries : Yaml.Entries) (content : Text)
    (groups : List SettingGroup) : Except CompletionError (Option Text) := do
  match entries.get? key with
  | none =>
    let apart := append content true
    if ← isPreserved m 1 tree entries apart then return some apart
    else return some (append content false)
  | some value =>
    match tree.entries? value, Yaml.Document.isNull value with
    | none, false => return none
    | present, _ =>
      let missing := groups.filter fun group => ((present.getD []).get? group.key).isNone
      return if missing.isEmpty then none else some (insert content missing)

/-- Completes the namespace with the given groups. The settings as they were read first are compared
with those of the result, read by itself. -/
def fill (m : Yaml.Memory) (content : Text) (groups : List SettingGroup) :
    Except CompletionError Completion := do
  match ← read? m 0 content with
  | none => return ⟨content, false⟩
  | some tree =>
    match tree.entries? tree.root with
    | none => return ⟨content, false⟩
    | some entries =>
      match ← candidate? m tree entries content groups with
      | none => return ⟨content, false⟩
      | some updated =>
        if !(← isFilled updated groups) then return ⟨content, true⟩
        else if !(← isPreserved m 2 tree entries updated) then return ⟨content, true⟩
        else return ⟨updated, false⟩

/-- Completes the namespace with all groups. -/
def complete (m : Yaml.Memory) (content : Text) : Except CompletionError Completion :=
  fill m content SettingGroup.all

end Namespace

end SiteAudit
