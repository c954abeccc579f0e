import SiteAudit.Proofs.Languages
import SiteAudit.Proofs.Schema

/-!
# What keeps a result from being accepted

An identifier is a small letter with small letters, digits and underscores after it
(`Finding.isId_iff`). The schema of results finds fault with a result exactly where it lacks a
version or the name of a command, and where a finding lacks an identifier, a file or a line
(`Result.failsAt_result`); so nothing else keeps it from being accepted
(`Result.check_eq_none_iff`).
-/

namespace SiteAudit

/-! ### Identifiers -/

/-- A small letter. -/
def IsSmallLetter (c : Char) : Prop := 'a' ≤ c ∧ c ≤ 'z'

/-- What may follow the first letter of an identifier. -/
def IsIdentifierPart (c : Char) : Prop := c = '_' ∨ ('0' ≤ c ∧ c ≤ '9') ∨ IsSmallLetter c

/-- A small letter, and small letters, digits and underscores after it. -/
inductive IsIdentifier : Text → Prop
  | mk {first : Char} {rest : Text} (hfirst : IsSmallLetter first)
    (hrest : ∀ c ∈ rest, IsIdentifierPart c) : IsIdentifier (first :: rest)

section Identifiers
open Regex

/-- The class of small letters. -/
def smallLetter : Regex := .oneOf false [('a', 'z')] []

/-- The class of what may follow. -/
def identifierPart : Regex := .oneOf false [('_', '_'), ('0', '9'), ('a', 'z')] []

/-- The first class of the expression is that of small letters. -/
lemma isClass_smallLetter : IsClass smallLetter IsSmallLetter := by
  intro w
  simp [smallLetter, IsWord, admits, IsSmallLetter]

/-- The second one is that of what may follow them. -/
lemma isClass_identifierPart : IsClass identifierPart IsIdentifierPart := by
  intro w
  simp [identifierPart, IsWord, admits, IsIdentifierPart, IsSmallLetter, le_and_le_iff]

/-- So its words are the identifiers. -/
lemma isWord_identifier {w : Text} :
    (Regex.sequence [smallLetter, .many identifierPart]).IsWord w ↔ IsIdentifier w := by
  rw [isWord_sequence_cons]
  constructor
  · rintro ⟨_, rest, rfl, hword, hrest⟩
    obtain ⟨first, rfl, hfirst⟩ := (isClass_smallLetter _).1 hword
    exact .mk hfirst (isClass_identifierPart.isWord_many.1 hrest)
  · rintro ⟨hfirst, hrest⟩
    exact ⟨[_], _, rfl, (isClass_smallLetter _).2 ⟨_, rfl, hfirst⟩,
      isClass_identifierPart.isWord_many.2 hrest⟩

/-- What identifies a kind of findings is an identifier, where a line feed after it does not
count. -/
lemma Finding.isId_iff {id : Text} :
    Finding.IsId id ↔ ∃ w, IsIdentifier w ∧ (id = w ∨ id = w ++ ['\n']) := by
  have hpattern : ofText? "^[a-z][a-z0-9_]*$".toList =
      some (Regex.sequence (.start :: ([smallLetter, .many identifierPart] ++ [.stop]))) := rfl
  unfold Finding.IsId Schema.finds
  rw [hpattern, Option.any_some, search_whole rfl]
  simp only [isWord_identifier]

end Identifiers

/-! ### Where a value fails -/

namespace Schema

/-- The value violates a rule of the schema, at the end of the path. -/
def FailsAt (schema : Schema) (value : Json) (path : List Step) : Prop :=
  ∃ v ∈ schema.violations value, v.path = path

variable {schema : Schema} {value : Json} {path : List Step}

/-- The schema is one for values without parts to look at. -/
def IsLeaf : Schema → Bool
  | .array _ | .object _ => false
  | .const _ | .oneOf _ | .boolean | .integer _ | .text .. => true

/-- A value that is accepted fails nowhere. -/
lemma Accepts.not_failsAt (h : schema.Accepts value) : ¬ FailsAt schema value path := by
  rintro ⟨v, hv, -⟩
  rw [show schema.violations value = [] from h] at hv
  exact List.not_mem_nil hv

/-- A fault of the value itself is at the value. -/
lemma path_of_mem_violationIf {violated : Bool} {fault : Fault} {v : Violation}
    (h : v ∈ violationIf violated value fault) : v.path = [] := by
  unfold violationIf at h
  rw [List.mem_ite_nil_right, List.mem_singleton] at h
  rw [h.2]

/-- A schema without parts has violations at the value only. -/
lemma path_of_isLeaf (hschema : schema.IsLeaf = true) {v : Violation}
    (hv : v ∈ schema.violations value) : v.path = [] := by
  cases schema with
  | const expected => exact path_of_mem_violationIf hv
  | oneOf values => exact path_of_mem_violationIf hv
  | boolean =>
    cases value with
    | bool b => cases hv
    | _ => exact List.mem_singleton.1 hv ▸ rfl
  | integer least =>
    rcases List.mem_append.1 hv with hv | hv
    · exact path_of_mem_violationIf hv
    · obtain ⟨bound, -, hv⟩ := List.mem_flatMap.1 hv
      exact path_of_mem_violationIf hv
  | text nonEmpty pattern =>
    cases value with
    | text t =>
      rcases List.mem_append.1 hv with hv | hv
      · exact path_of_mem_violationIf hv
      · obtain ⟨p, -, hv⟩ := List.mem_flatMap.1 hv
        exact path_of_mem_violationIf hv
    | _ => exact List.mem_singleton.1 hv ▸ rfl
  | array => cases hschema
  | object => cases hschema

/-- So such a schema fails at the value, exactly if it does not accept it. -/
lemma failsAt_leaf (hschema : schema.IsLeaf = true) :
    FailsAt schema value path ↔ path = [] ∧ ¬ schema.Accepts value := by
  constructor
  · rintro ⟨v, hv, rfl⟩
    refine ⟨path_of_isLeaf hschema hv, fun h => ?_⟩
    exact h.not_failsAt ⟨v, hv, rfl⟩
  · rintro ⟨rfl, h⟩
    obtain ⟨v, hv⟩ := List.exists_mem_of_ne_nil _ h
    exact ⟨v, hv, path_of_isLeaf hschema hv⟩

section Kinds

variable {t : Text}

/-- A constant is violated by every other text. -/
lemma failsAt_const {expected : Text} :
    FailsAt (.const expected) (.text t) path ↔ path = [] ∧ t ≠ expected := by
  rw [failsAt_leaf rfl, accepts_const]

/-- A choice is violated by every text that is not listed. -/
lemma failsAt_oneOf {values : List Text} :
    FailsAt (.oneOf values) (.text t) path ↔ path = [] ∧ t ∉ values := by
  rw [failsAt_leaf rfl, accepts_oneOf]

/-- A least integer is violated by the smaller ones. -/
lemma failsAt_integer {least n : Int} :
    FailsAt (.integer (some least)) (.int n) path ↔ path = [] ∧ n < least := by
  rw [failsAt_leaf rfl, accepts_integer, Int.not_le]

/-- A text is violated by the empty one, if that is excluded, and by one without the pattern. -/
lemma failsAt_text {nonEmpty : Bool} {pattern : Option Text} :
    FailsAt (.text nonEmpty pattern) (.text t) path ↔
      path = [] ∧ ¬ ((nonEmpty = true → t ≠ []) ∧ pattern.all (finds · t) = true) := by
  rw [failsAt_leaf rfl, accepts_text]

end Kinds

/-- An array fails where one of its items does. -/
lemma failsAt_array {items : List Json} :
    FailsAt (.array schema) (.array items) path ↔
      ∃ i item rest, items[i]? = some item ∧ path = .index i :: rest ∧
        FailsAt schema item rest := by
  have hviolations : violations (.array schema) (.array items) =
      (items.mapIdx fun i item => (schema.violations item).map (·.under (.index i))).flatten := rfl
  unfold FailsAt
  rw [hviolations]
  constructor
  · rintro ⟨v, hv, rfl⟩
    obtain ⟨l, hl, hv⟩ := List.mem_flatten.1 hv
    obtain ⟨i, hi, rfl⟩ := List.mem_mapIdx.1 hl
    obtain ⟨w, hw, rfl⟩ := List.mem_map.1 hv
    exact ⟨i, items[i], w.path, List.getElem?_eq_getElem hi, rfl, w, hw, rfl⟩
  · rintro ⟨i, item, _, hitem, rfl, w, hw, rfl⟩
    obtain ⟨hi, rfl⟩ := List.getElem?_eq_some_iff.1 hitem
    refine ⟨w.under (.index i), List.mem_flatten.2 ⟨_, List.mem_mapIdx.2 ⟨i, hi, rfl⟩, ?_⟩, rfl⟩
    exact List.mem_map_of_mem hw

variable {properties : List (Text × Schema)} {entries : List (Text × Json)}

/-- The violations of properties are those of their values, under their keys. -/
lemma mem_propertyViolations {v : Violation} : v ∈ propertyViolations properties entries ↔
    ∃ property ∈ properties, ∃ value, entries.lookup property.1 = some value ∧
      ∃ w ∈ property.2.violations value, w.under (.key property.1) = v := by
  induction properties with
  | nil => simp [propertyViolations]
  | cons property properties ih =>
    rw [propertyViolations, List.mem_append, ih, List.exists_mem_cons_iff]
    refine or_congr_left ?_
    cases entries.lookup property.1 with
    | none => simp
    | some value => simp

/-- An object with the keys of its schema fails where one of its values does. -/
lemma failsAt_object (hkeys : entries.map Prod.fst = properties.map Prod.fst)
    (hnodup : (properties.map Prod.fst).Nodup) :
    FailsAt (.object properties) (.object entries) path ↔
      ∃ pair ∈ properties.zip entries, ∃ rest, path = .key pair.1.1 :: rest ∧
        FailsAt pair.1.2 pair.2.2 rest := by
  have hviolations : violations (.object properties) (.object entries) =
      propertyViolations properties entries := by
    show keyViolations (properties.map Prod.fst) (.object entries) entries ++ _ = _
    rw [keyViolations_eq_nil hkeys, List.nil_append]
  unfold FailsAt
  rw [hviolations]
  constructor
  · rintro ⟨v, hv, rfl⟩
    obtain ⟨property, hproperty, value, hvalue, w, hw, rfl⟩ := mem_propertyViolations.1 hv
    have hmem : (property, (property.1, value)) ∈ properties.zip entries :=
      (mem_zip_iff hkeys hnodup).2 ⟨hproperty, rfl, hvalue⟩
    exact ⟨_, hmem, w.path, rfl, w, hw, rfl⟩
  · rintro ⟨⟨property, entry⟩, hmem, _, rfl, w, hw, rfl⟩
    obtain ⟨hproperty, -, hvalue⟩ := (mem_zip_iff hkeys hnodup).1 hmem
    refine ⟨w.under (.key property.1), ?_, rfl⟩
    exact mem_propertyViolations.2 ⟨property, hproperty, entry.2, hvalue, w, hw, rfl⟩

/-- The heaviest violation is one of the list. -/
lemma heaviest_mem {list : List Violation} {v : Violation} (h : heaviest list = some v) :
    v ∈ list := by
  induction list generalizing v with
  | nil => cases h
  | cons w rest ih =>
    rw [heaviest] at h
    cases hrest : heaviest rest with
    | none =>
      rw [hrest] at h
      cases h
      exact List.mem_cons_self
    | some u =>
      rw [hrest] at h
      obtain rfl := Option.some.inj h
      split
      · exact List.mem_cons_of_mem w (ih hrest)
      · exact List.mem_cons_self

end Schema

/-! ### Results -/

/-- The commands that have results. -/
def Result.commands : List Text := ["audit", "apply", "report"]

/-- The part of the result at the path is not as it should be. -/
inductive Result.IsFault (r : Result) : List Schema.Step → Prop
  | version (h : r.toolVersion = []) : IsFault r [.key "tool_version"]
  | command (h : r.command ∉ commands) : IsFault r [.key "command"]
  | id {i f} (hf : r.findings[i]? = some f) (h : ¬ Finding.IsId f.id) :
    IsFault r [.key "findings", .index i, .key "id"]
  | file {i f} (hf : r.findings[i]? = some f) (h : f.file = []) :
    IsFault r [.key "findings", .index i, .key "file"]
  | line {i f} (hf : r.findings[i]? = some f) (h : f.line < 1) :
    IsFault r [.key "findings", .index i, .key "line"]

namespace Result
open Schema

variable {path : List Step}

/-- A finding fails at its identifier, its file or its line. -/
lemma failsAt_finding {f : Finding} : FailsAt findingSchema f.toJson path ↔
    path = [.key "id"] ∧ ¬ Finding.IsId f.id ∨ path = [.key "file"] ∧ f.file = [] ∨
      path = [.key "line"] ∧ f.line < 1 := by
  have hseverity := name_severity_mem f.severity
  unfold findingSchema Finding.toJson
  rw [failsAt_object rfl (by decide)]
  simp [failsAt_text, failsAt_oneOf, failsAt_integer, hseverity, Finding.IsId]

/-- A result fails where there is fault with it. Its counts, its list of changed files and whether
it is of a dry run are always as they should be. -/
lemma failsAt_result {r : Result} : FailsAt schema r.toJson path ↔ r.IsFault path := by
  have hboolean : ∀ b rest, ¬ FailsAt .boolean (.bool b) rest := fun b rest =>
    (accepts_boolean b).not_failsAt
  have hcount : ∀ n : Nat, ¬ (n : Int) < 0 := fun n => by omega
  have hparts : FailsAt schema r.toJson path ↔
      path = [.key "tool_version"] ∧ r.toolVersion = [] ∨
        path = [.key "command"] ∧ r.command ∉ commands ∨
          ∃ i f rest, path = .key "findings" :: .index i :: rest ∧ r.findings[i]? = some f ∧
            FailsAt findingSchema f.toJson rest := by
    unfold schema toJson
    rw [failsAt_object rfl (by decide)]
    simp [failsAt_object, failsAt_array, failsAt_const, failsAt_text, failsAt_oneOf,
      failsAt_integer, hboolean, hcount, commands]
  rw [hparts]
  constructor
  · rintro (⟨rfl, h⟩ | ⟨rfl, h⟩ | ⟨i, f, rest, rfl, hf, h⟩)
    · exact .version h
    · exact .command h
    · rcases failsAt_finding.1 h with ⟨rfl, hid⟩ | ⟨rfl, hfile⟩ | ⟨rfl, hline⟩
      · exact .id hf hid
      · exact .file hf hfile
      · exact .line hf hline
  · intro h
    cases h with
    | version h => exact .inl ⟨rfl, h⟩
    | command h => exact .inr (.inl ⟨rfl, h⟩)
    | id hf h => exact .inr (.inr ⟨_, _, _, rfl, hf, failsAt_finding.2 (.inl ⟨rfl, h⟩)⟩)
    | file hf h => exact .inr (.inr ⟨_, _, _, rfl, hf, failsAt_finding.2 (.inr (.inl ⟨rfl, h⟩))⟩)
    | line hf h => exact .inr (.inr ⟨_, _, _, rfl, hf, failsAt_finding.2 (.inr (.inr ⟨rfl, h⟩))⟩)

/-- A result is accepted exactly if it has the name of a command and a version, and each of its
findings an identifier, a file and a line. Of a result that is not accepted one of these is
reported. -/
theorem check_eq_none_iff (r : Result) :
    (schema.check r.toJson = none ↔
      r.command ∈ commands ∧ r.toolVersion ≠ [] ∧
        ∀ f ∈ r.findings, Finding.IsId f.id ∧ f.file ≠ [] ∧ 1 ≤ f.line) ∧
    (∀ id, Finding.IsId id ↔ ∃ w, IsIdentifier w ∧ (id = w ∨ id = w ++ ['\n'])) ∧
    ∀ v, schema.check r.toJson = some v → r.IsFault v.path := by
  refine ⟨?_, fun id => Finding.isId_iff, fun v hv => ?_⟩
  · rw [check_eq_none, accepts_result]
    constructor
    · rintro ⟨hversion, hcommand, hfindings⟩
      exact ⟨hcommand, hversion, fun f hf =>
        ⟨(hfindings f hf).id, (hfindings f hf).file, (hfindings f hf).line⟩⟩
    · rintro ⟨hcommand, hversion, hfindings⟩
      refine ⟨hversion, hcommand, fun f hf => ?_⟩
      obtain ⟨hid, hfile, hline⟩ := hfindings f hf
      exact ⟨hid, hfile, hline⟩
  · exact failsAt_result.1 ⟨v, heaviest_mem hv, rfl⟩

end Result

end SiteAudit
