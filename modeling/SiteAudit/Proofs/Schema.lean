import Mathlib.Data.List.Forall2
import Mathlib.Data.List.Nodup
import Mathlib.Tactic.Common
import SiteAudit.Result.Schema

/-!
# What schemas accept

A schema accepts a value that violates none of its rules (`Schema.Accepts`). What this means is said
kind by kind, and for objects entry by entry (`accepts_object`). The schema of results accepts a
result exactly if it has a version, the name of a command and well-formed findings
(`accepts_result`).
-/

namespace SiteAudit

namespace Schema

/-- The value violates no rule of the schema. -/
def Accepts (schema : Schema) (value : Json) : Prop := schema.violations value = []

/-- There is no heaviest violation exactly if there is none at all. -/
lemma heaviest_eq_none {list : List Violation} : heaviest list = none ↔ list = [] := by
  cases list with
  | nil => exact iff_of_true rfl rfl
  | cons v rest =>
    refine iff_of_false ?_ (List.cons_ne_nil v rest)
    rw [heaviest]
    cases heaviest rest with
    | none => exact fun h => by cases h
    | some w => exact fun h => by cases h

/-- Nothing is to be reported about a value exactly if it is accepted. -/
lemma check_eq_none {schema : Schema} {value : Json} :
    schema.check value = none ↔ schema.Accepts value :=
  heaviest_eq_none

/-- A fault is no violation where it does not apply. -/
lemma violationIf_eq_nil {violated : Bool} {value : Json} {fault : Fault} :
    violationIf violated value fault = [] ↔ violated = false := by
  cases violated <;> simp [violationIf]

section Kinds

variable {t : Text}

/-- A constant accepts its own text. -/
lemma accepts_const {expected : Text} : Accepts (.const expected) (.text t) ↔ t = expected := by
  show violationIf (!isAmong [expected] (.text t)) (.text t) (.const expected) = [] ↔ _
  rw [violationIf_eq_nil]
  simp [isAmong]

/-- A choice accepts the texts that are listed. -/
lemma accepts_oneOf {values : List Text} : Accepts (.oneOf values) (.text t) ↔ t ∈ values := by
  show violationIf (!isAmong values (.text t)) (.text t) (.enum values) = [] ↔ _
  rw [violationIf_eq_nil]
  simp [isAmong]

/-- Either truth value is accepted as one. -/
lemma accepts_boolean (b : Bool) : Accepts .boolean (.bool b) := rfl

/-- An integer is accepted from the least one on. -/
lemma accepts_integer {least n : Int} : Accepts (.integer (some least)) (.int n) ↔ least ≤ n := by
  show violationIf (!isInteger (.int n)) (.int n) (.type "integer") ++
    [least].flatMap (fun bound => violationIf (isBelow (.int n) bound) (.int n) (.minimum bound)) =
      [] ↔ _
  simp [violationIf_eq_nil, isInteger, isBelow]

/-- A text is accepted if it is not empty where that is asked, and has the pattern. -/
lemma accepts_text {nonEmpty : Bool} {pattern : Option Text} :
    Accepts (.text nonEmpty pattern) (.text t) ↔
      (nonEmpty = true → t ≠ []) ∧ pattern.all (finds · t) = true := by
  show textViolations nonEmpty pattern (.text t) = [] ↔ _
  rw [textViolations]
  cases pattern with
  | none => simp [violationIf_eq_nil]
  | some p => simp [violationIf_eq_nil]

/-- An array is accepted if its items are. -/
lemma accepts_array {items : List Json} {schema : Schema} :
    Accepts (.array schema) (.array items) ↔ ∀ item ∈ items, schema.Accepts item := by
  show (items.mapIdx fun i item =>
    (violations schema item).map (·.under (.index i))).flatten = [] ↔ _
  rw [List.flatten_eq_nil_iff]
  constructor
  · intro h item hitem
    obtain ⟨i, hi, rfl⟩ := List.mem_iff_getElem.1 hitem
    have hmem := h _ (List.mem_mapIdx.2 ⟨i, hi, rfl⟩)
    exact List.map_eq_nil_iff.1 hmem
  · intro h l hl
    obtain ⟨i, hi, rfl⟩ := List.mem_mapIdx.1 hl
    exact List.map_eq_nil_iff.2 (h _ (List.getElem_mem hi))

end Kinds

/-! ### Objects -/

variable {properties : List (Text × Schema)} {entries : List (Text × Json)}

/-- Properties are satisfied if each one is that is there. -/
lemma propertyViolations_eq_nil : propertyViolations properties entries = [] ↔
    ∀ property ∈ properties, ∀ value, entries.lookup property.1 = some value →
      property.2.Accepts value := by
  induction properties with
  | nil => exact iff_of_true rfl fun _ h => absurd h List.not_mem_nil
  | cons property properties ih =>
    rw [propertyViolations, List.append_eq_nil_iff, ih, List.forall_mem_cons]
    refine and_congr_left fun _ => ?_
    cases entries.lookup property.1 with
    | none => exact iff_of_true rfl fun _ h => by cases h
    | some value =>
      dsimp only
      rw [List.map_eq_nil_iff]
      constructor
      · intro h value' e
        cases e
        exact h
      · exact fun h => h value rfl

/-- An object that has the properties of its schema in their order violates no rule on keys. -/
lemma keyViolations_eq_nil (hkeys : entries.map Prod.fst = properties.map Prod.fst)
    (value : Json) : keyViolations (properties.map Prod.fst) value entries = [] := by
  unfold keyViolations
  rw [← hkeys]
  have hextra : (entries.map Prod.fst).filter (fun key => !(entries.map Prod.fst).contains key) =
      [] := by
    rw [List.filter_eq_nil_iff]
    intro key hkey
    simpa using hkey
  have hmissing : (entries.map Prod.fst).filter (fun key => (entries.lookup key).isNone) = [] := by
    rw [List.filter_eq_nil_iff]
    intro key hkey
    obtain ⟨entry, hentry, rfl⟩ := List.mem_map.1 hkey
    have hsome : (entries.lookup entry.1).isSome :=
      List.lookup_isSome_iff.2 ⟨entry, hentry, beq_self_eq_true _⟩
    rw [Option.isNone_eq_false_iff.2 hsome]
    exact Bool.false_ne_true
  dsimp only
  rw [hextra, hmissing]
  rfl

/-- Where no key comes twice, the entry at the place of a property is the one that is looked up. -/
lemma mem_zip_iff (hkeys : entries.map Prod.fst = properties.map Prod.fst)
    (hnodup : (properties.map Prod.fst).Nodup) {property : Text × Schema} {entry : Text × Json} :
    (property, entry) ∈ properties.zip entries ↔
      property ∈ properties ∧ entry.1 = property.1 ∧ entries.lookup property.1 = some entry.2 := by
  induction properties generalizing entries with
  | nil => simp
  | cons first properties ih =>
    cases entries with
    | nil => cases hkeys
    | cons head entries =>
      rw [List.map_cons, List.map_cons, List.cons.injEq] at hkeys
      obtain ⟨hkey, hkeys⟩ := hkeys
      rw [List.map_cons, List.nodup_cons] at hnodup
      obtain ⟨hnot, hnodup⟩ := hnodup
      rw [List.zip_cons_cons, List.mem_cons, List.mem_cons, ih hkeys hnodup, List.lookup_cons,
        Prod.mk.injEq, Prod.ext_iff (x := entry)]
      by_cases h : property.1 = head.1
      · -- the first entry is that of the first property only
        have hlater : property ∉ properties := fun hmem =>
          hnot (hkey ▸ h ▸ List.mem_map_of_mem hmem)
        simp [h, hlater, eq_comm]
      · have hfirst : property ≠ first := fun e => h (e ▸ hkey.symm)
        simp [hfirst, beq_eq_false_iff_ne.2 h]

/-- Values are looked up in their order where no key comes twice. -/
lemma forall_lookup_iff (hkeys : entries.map Prod.fst = properties.map Prod.fst)
    (hnodup : (properties.map Prod.fst).Nodup) :
    (∀ property ∈ properties, ∀ value, entries.lookup property.1 = some value →
        property.2.Accepts value) ↔
      List.Forall₂ (fun property entry => property.2.Accepts entry.2) properties entries := by
  have hlength : properties.length = entries.length := by
    simpa using congrArg List.length hkeys.symm
  rw [List.forall₂_iff_zip]
  constructor
  · intro h
    refine ⟨hlength, fun {property entry} hmem => ?_⟩
    obtain ⟨hproperty, -, hvalue⟩ := (mem_zip_iff hkeys hnodup).1 hmem
    exact h property hproperty entry.2 hvalue
  · rintro ⟨-, h⟩ property hproperty value hvalue
    exact h (b := (property.1, value)) ((mem_zip_iff hkeys hnodup).2 ⟨hproperty, rfl, hvalue⟩)

/-- An object with the keys of its schema is accepted if all of its values are. -/
lemma accepts_object (hkeys : entries.map Prod.fst = properties.map Prod.fst)
    (hnodup : (properties.map Prod.fst).Nodup) :
    Accepts (.object properties) (.object entries) ↔
      List.Forall₂ (fun property entry => property.2.Accepts entry.2) properties entries := by
  show keyViolations (properties.map Prod.fst) (.object entries) entries ++
    propertyViolations properties entries = [] ↔ _
  rw [keyViolations_eq_nil hkeys, List.nil_append, propertyViolations_eq_nil]
  exact forall_lookup_iff hkeys hnodup

end Schema

/-! ### Results -/

/-- The text identifies a kind of findings. -/
def Finding.IsId (id : Text) : Prop := Schema.finds "^[a-z][a-z0-9_]*$" id = true

instance (id : Text) : Decidable (Finding.IsId id) := inferInstanceAs (Decidable (_ = true))

/-- The finding has an identifier, a file and a line. -/
structure Finding.WellFormed (f : Finding) : Prop where
  id : Finding.IsId f.id
  file : f.file ≠ []
  line : 1 ≤ f.line

namespace Result
open Schema

/-- The name of a severity is one of those that the schema knows. -/
lemma name_severity_mem (severity : Severity) :
    severity.name ∈ [Severity.blocking.name, Severity.warning.name] := by
  cases severity with
  | blocking => exact List.mem_cons_self ..
  | warning => exact List.mem_cons_of_mem _ (List.mem_cons_self ..)

/-- A finding is accepted exactly if it is well-formed. -/
lemma accepts_finding {f : Finding} : Accepts findingSchema f.toJson ↔ f.WellFormed := by
  unfold findingSchema Finding.toJson
  rw [accepts_object rfl (by decide)]
  simp only [List.forall₂_cons, accepts_text, accepts_oneOf, accepts_integer,
    name_severity_mem, Option.all_some, Option.all_none]
  constructor
  · rintro ⟨⟨-, hid⟩, -, -, ⟨hfile, -⟩, hline, -⟩
    exact ⟨hid, hfile trivial, hline⟩
  · rintro ⟨hid, hfile, hline⟩
    have hany : ∀ {t : Text}, false = true → t ≠ [] := fun h => by cases h
    exact ⟨⟨hany, hid⟩, trivial, ⟨hany, trivial⟩, ⟨fun _ => hfile, trivial⟩, hline, ⟨hany, trivial⟩,
      .nil⟩

/-- A result is accepted for its version, its command and its findings; the rest of it cannot be
wrong. -/
lemma accepts_result {r : Result} : Accepts schema r.toJson ↔
    r.toolVersion ≠ [] ∧ r.command ∈ ["audit".toList, "apply".toList, "report".toList] ∧
      ∀ f ∈ r.findings, f.WellFormed := by
  unfold schema toJson
  rw [accepts_object rfl (by decide)]
  simp only [List.forall₂_cons, List.forall₂_nil_left_iff]
  rw [accepts_object rfl (by decide), accepts_object rfl (by decide)]
  simp only [List.forall₂_cons, List.forall₂_nil_left_iff, accepts_const, accepts_text,
    accepts_oneOf, accepts_integer, accepts_boolean, accepts_array, List.forall_mem_map,
    accepts_finding]
  simp

end Result

end SiteAudit
