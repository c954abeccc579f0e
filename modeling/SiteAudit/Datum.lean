import SiteAudit.Finding
import SiteAudit.Json.Value
import SiteAudit.Path
import SiteAudit.Text.Quoted
import SiteAudit.Yaml.Timestamp

/-!
# Data

A datum is a value on its way into JSON: beside what JSON has, it can be a path, a severity, a
date or a tuple, and the keys of its mappings can be anything. `Datum.toJson` turns keys into
texts and keeps one entry of those whose keys are the same, so that `Datum.document` is canonical.
-/

namespace SiteAudit

/-- A value on its way into JSON. -/
inductive Datum where
  | null
  | bool (b : Bool)
  | int (n : Int)
  | float (x : Binary64)
  | text (t : Text)
  | path (p : Path)
  | severity (s : Severity)
  | date (d : Yaml.Date)
  | sequence (items : List Datum)
  | tuple (items : List Datum)
  | mapping (entries : List (Datum × Datum))
  deriving Inhabited

namespace Datum

/-! ### Keys -/

/-- The full name of a severity. -/
def severityName : Severity → Text
  | .blocking => "Severity.BLOCKING"
  | .warning => "Severity.WARNING"

/-- A date as it is shown inside a tuple. -/
def shownDate (d : Yaml.Date) : Text :=
  "datetime.date(" ++ Text.ofNat d.year ++ ", " ++ Text.ofNat d.month ++ ", " ++ Text.ofNat d.day
    ++ ")"

/-- The parts of a tuple between parentheses; a single part is followed by a comma. -/
def parenthesized : List Text → Text
  | [part] => '(' :: part ++ [',', ')']
  | parts => '(' :: Text.join ", " parts ++ [')']

mutual

/-- The datum as it is shown inside a tuple. -/
def shown : Datum → Text
  | .null => "None"
  | .bool b => if b then "True" else "False"
  | .int n => Text.ofInt n
  | .float x => x.text
  | .text t => Text.quoted t
  | .path p => "PosixPath(" ++ Text.quoted p.text ++ ")"
  | .severity s => "<" ++ severityName s ++ ": " ++ Text.quoted s.name ++ ">"
  | .date d => shownDate d
  | .sequence items => '[' :: Text.join ", " (shownItems items) ++ [']']
  | .tuple items => parenthesized (shownItems items)
  | .mapping entries => '\x7b' :: Text.join ", " (shownEntries entries) ++ ['\x7d']

/-- The items as they are shown. -/
def shownItems : List Datum → List Text
  | [] => []
  | item :: items => shown item :: shownItems items

/-- The entries as they are shown. -/
def shownEntries : List (Datum × Datum) → List Text
  | [] => []
  | (key, value) :: entries => (shown key ++ ": " ++ shown value) :: shownEntries entries

end

/-- The text of a key. -/
def label : Datum → Text
  | .text t => t
  | .path p => p.text
  | .severity s => severityName s
  | .date d => d.text
  | other => other.shown

/-- The integer that a truth value or an integer counts as. -/
def int? : Datum → Option Int
  | .bool b => some (if b then 1 else 0)
  | .int n => some n
  | _ => none

/-- The text that a text or a severity counts as. -/
def text? : Datum → Option Text
  | .text t => some t
  | .severity s => some s.name
  | _ => none

/-- Are two data without parts one key? Numbers of all kinds are compared by their value, and a
severity is its name. -/
def sameAtom (a b : Datum) : Bool :=
  match a, b with
  | .null, .null => true
  | .float x, .float y => x.same y
  | .float x, b => b.int?.any x.sameInt
  | a, .float y => a.int?.any y.sameInt
  | .path p, .path q => p == q
  | .date d, .date e => d == e
  | a, b =>
    (match a.int?, b.int? with
      | some m, some n => m == n
      | _, _ => false)
      || match a.text?, b.text? with
        | some s, some t => s == t
        | _, _ => false

mutual

/-- Are two data one key? -/
def sameKey : Datum → Datum → Bool
  | .tuple items, other =>
    match other with
    | .tuple others => sameKeys items others
    | _ => false
  | a, b => sameAtom a b

/-- Are the items of two tuples the same, one by one? -/
def sameKeys : List Datum → List Datum → Bool
  | [], others => others.isEmpty
  | item :: items, others =>
    match others with
    | [] => false
    | other :: others => sameKey item other && sameKeys items others

end

/-! ### Conversion -/

/-- Sets the value of a key; a key that is there keeps its place and its form. -/
def insertEntry {κ α : Type} (same : κ → κ → Bool) (entries : List (κ × α)) (entry : κ × α) :
    List (κ × α) :=
  if entries.any fun other => same other.1 entry.1 then
    entries.map fun other => if same other.1 entry.1 then (other.1, entry.2) else other
  else entries ++ [entry]

/-- The entries with each key once, with its last value. -/
def uniqueEntries {κ α : Type} (same : κ → κ → Bool) (entries : List (κ × α)) : List (κ × α) :=
  entries.foldl (insertEntry same) []

/-- The entries of an object: first the keys are told apart as data, then as texts. -/
def objectEntries (entries : List (Datum × Json)) : List (Text × Json) :=
  let labelled := (uniqueEntries sameKey entries).map fun (key, value) => (key.label, value)
  uniqueEntries (· == ·) labelled

mutual

/-- The datum as a JSON value. -/
def toJson : Datum → Json
  | .null => .null
  | .bool b => .bool b
  | .int n => .int n
  | .float x => .float x
  | .text t => .text t
  | .path p => .text p.text
  | .severity s => .text s.name
  | .date d => .text d.text
  | .sequence items => .array (itemsToJson items)
  | .tuple items => .array (itemsToJson items)
  | .mapping entries => .object (objectEntries (entriesToJson entries))

/-- The items as JSON values. -/
def itemsToJson : List Datum → List Json
  | [] => []
  | item :: items => toJson item :: itemsToJson items

/-- The entries with their values as JSON values. -/
def entriesToJson : List (Datum × Datum) → List (Datum × Json)
  | [] => []
  | (key, value) :: entries => (key, toJson value) :: entriesToJson entries

end

/-- The canonical text of a datum. -/
def document (layout : Json.Layout) (d : Datum) : Text := Json.document layout d.toJson

end Datum

end SiteAudit
