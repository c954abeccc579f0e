import SiteAudit.Json.Shown
import SiteAudit.Regex

/-!
# Schemas

A schema describes JSON values. An object must have exactly the properties that its schema names.
`Schema.violations` lists what is wrong with a value, in the order of the rules; of all
violations, `Schema.check` picks the one that is nearest to the root.
-/

namespace SiteAudit

/-- A description of JSON values. -/
inductive Schema where
  /-- This text. -/
  | const (value : Text)
  /-- One of these texts. -/
  | oneOf (values : List Text)
  | boolean
  /-- An integer, of at least the given value. -/
  | integer (least : Option Int)
  /-- A text, perhaps not the empty one, in which a pattern may have to be found. -/
  | text (nonEmpty : Bool) (pattern : Option Text)
  | array (items : Schema)
  | object (properties : List (Text × Schema))
  deriving Inhabited

namespace Schema

/-- A step from a value to one of its parts. -/
inductive Step where
  | key (key : Text)
  | index (index : Nat)
  deriving DecidableEq, Repr

/-- The order of steps into the same value. -/
def Step.before : Step → Step → Bool
  | .key a, .key b => Text.before a b
  | .index i, .index j => i < j
  | _, _ => false

/-- A rule that is violated. -/
inductive Fault where
  | type (name : Text)
  | const (value : Text)
  | enum (values : List Text)
  | minLength
  | minimum (least : Int)
  | pattern (pattern : Text)
  | additionalProperties (keys : List Text)
  | required (key : Text)
  deriving DecidableEq, Repr

/-- A violation: the way to the part that is wrong, the part, and the rule. -/
structure Violation where
  path : List Step
  value : Json
  fault : Fault

/-- The name of the rule. -/
def Fault.keyword : Fault → Text
  | .type _ => "type"
  | .const _ => "const"
  | .enum _ => "enum"
  | .minLength => "minLength"
  | .minimum _ => "minimum"
  | .pattern _ => "pattern"
  | .additionalProperties _ => "additionalProperties"
  | .required _ => "required"

/-- The texts, quoted, with commas between them. -/
def quotedList (texts : List Text) : Text := Text.join ", " (texts.map Text.quoted)

/-- The violation in words. -/
def Violation.message (v : Violation) : Text :=
  match v.fault with
  | .type name => v.value.shown ++ " is not of type " ++ Text.quoted name
  | .const value => Text.quoted value ++ " was expected"
  | .enum values => v.value.shown ++ " is not one of [" ++ quotedList values ++ "]"
  | .minLength => v.value.shown ++ " should be non-empty"
  | .minimum least => v.value.shown ++ " is less than the minimum of " ++ Text.ofInt least
  | .pattern pattern => v.value.shown ++ " does not match " ++ Text.quoted pattern
  | .additionalProperties keys =>
    "Additional properties are not allowed (" ++ quotedList keys
      ++ (if keys.length = 1 then " was unexpected)" else " were unexpected)" : String).toList
  | .required key => Text.quoted key ++ " is a required property"

/-- The violation as seen from the value around. -/
def Violation.under (step : Step) (v : Violation) : Violation := { v with path := step :: v.path }

/-- A violation by the value itself, if it is one. -/
def violationIf (violated : Bool) (value : Json) (fault : Fault) : List Violation :=
  if violated then [⟨[], value, fault⟩] else []

/-- Is the value one of the texts? -/
def isAmong (values : List Text) : Json → Bool
  | .text t => values.contains t
  | _ => false

/-- Is the value an integer? A number without a fraction is one however it is written. -/
def isInteger : Json → Bool
  | .int _ => true
  | .float x => x.isInteger
  | _ => false

/-- Is the value a number below the bound? -/
def isBelow (value : Json) (bound : Int) : Bool :=
  match value with
  | .int n => n < bound
  | .float x => x.belowInt bound
  | _ => false

/-- Is the pattern found in the text? -/
def finds (pattern t : Text) : Bool := (Regex.ofText? pattern).any (·.search t)

/-- The violations of a schema for texts. -/
def textViolations (nonEmpty : Bool) (pattern : Option Text) (value : Json) : List Violation :=
  match value with
  | .text t =>
    violationIf (nonEmpty && t.isEmpty) value .minLength
      ++ pattern.toList.flatMap fun p => violationIf (!finds p t) value (.pattern p)
  | _ => [⟨[], value, .type "string"⟩]

/-- The violations of the rule that an object has exactly the given properties. -/
def keyViolations (keys : List Text) (value : Json) (entries : List (Text × Json)) :
    List Violation :=
  let extra := (entries.map (·.1)).filter fun key => !keys.contains key
  let missing := keys.filter fun key => (entries.lookup key).isNone
  violationIf (!extra.isEmpty) value (.additionalProperties (sortBy Text.before extra))
    ++ missing.map fun key => ⟨[], value, .required key⟩

mutual

/-- What is wrong with a value. -/
def violations : Schema → Json → List Violation
  | .const expected, value => violationIf (!isAmong [expected] value) value (.const expected)
  | .oneOf values, value => violationIf (!isAmong values value) value (.enum values)
  | .boolean, value =>
    match value with
    | .bool _ => []
    | _ => [⟨[], value, .type "boolean"⟩]
  | .integer least, value =>
    violationIf (!isInteger value) value (.type "integer")
      ++ least.toList.flatMap fun bound => violationIf (isBelow value bound) value (.minimum bound)
  | .text nonEmpty pattern, value => textViolations nonEmpty pattern value
  | .array schema, value =>
    match value with
    | .array items =>
      (items.mapIdx fun i item => (violations schema item).map (·.under (.index i))).flatten
    | _ => [⟨[], value, .type "array"⟩]
  | .object properties, value =>
    match value with
    | .object entries =>
      keyViolations (properties.map (·.1)) value entries ++ propertyViolations properties entries
    | _ => [⟨[], value, .type "object"⟩]

/-- What is wrong with the properties that are there. -/
def propertyViolations : List (Text × Schema) → List (Text × Json) → List Violation
  | [], _ => []
  | (key, schema) :: properties, entries =>
    (match entries.lookup key with
      | some value => (violations schema value).map (·.under (.key key))
      | none => [])
      ++ propertyViolations properties entries

end

/-- Of two ways of the same length, does the first part where they differ come later? -/
def isLater : List Step → List Step → Bool
  | s :: path, t :: other => if s = t then isLater path other else t.before s
  | _, _ => false

/-- Does the violation count more than the other one? A shorter way does, and of ways of the same
length the later one. -/
def Violation.outweighs (v w : Violation) : Bool :=
  v.path.length < w.path.length || (v.path.length == w.path.length && isLater v.path w.path)

/-- The violation that counts most; of those that count alike the first one. -/
def heaviest : List Violation → Option Violation
  | [] => none
  | v :: rest =>
    match heaviest rest with
    | some w => some (if w.outweighs v then w else v)
    | none => some v

/-- The violation to report, if there is one. -/
def check (schema : Schema) (value : Json) : Option Violation := heaviest (schema.violations value)

/-! ### Schemas as documents -/

/-- An entry of a document. -/
def entry (key : String) (value : Json) : Text × Json := (key, value)

/-- The entry that names the type. -/
def typeEntry (name : String) : Text × Json := entry "type" (.text name)

mutual

/-- The entries of the document of a schema. -/
def toEntries : Schema → List (Text × Json)
  | .const value => [entry "const" (.text value)]
  | .oneOf values => [entry "enum" (.array (values.map .text))]
  | .boolean => [typeEntry "boolean"]
  | .integer least =>
    typeEntry "integer" :: least.toList.map fun bound => entry "minimum" (.int bound)
  | .text nonEmpty pattern =>
    typeEntry "string" :: (if nonEmpty then [entry "minLength" (.int 1)] else [])
      ++ pattern.toList.map fun p => entry "pattern" (.text p)
  | .array schema => [typeEntry "array", entry "items" (.object (toEntries schema))]
  | .object properties =>
    [typeEntry "object", entry "additionalProperties" (.bool false),
      entry "required" (.array (properties.map fun property => .text property.1)),
      entry "properties" (.object (propertyDocuments properties))]

/-- The documents of the properties. -/
def propertyDocuments : List (Text × Schema) → List (Text × Json)
  | [] => []
  | (key, schema) :: properties => (key, .object (toEntries schema)) :: propertyDocuments properties

end

end Schema

end SiteAudit
