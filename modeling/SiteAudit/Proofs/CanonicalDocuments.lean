import Mathlib.Data.List.Forall2
import Mathlib.Data.List.Perm.Basic
import SiteAudit.Proofs.DirectUse
import SiteAudit.Proofs.JsonReading

/-!
# Canonical documents

Of data that are built from what JSON has, and from tuples, the document is canonical and lossless:
two of them have the same document exactly when they are equal, where a tuple counts as a sequence
and the entries of a mapping stand in no order (`Datum.document_eq_iff`).
-/

namespace SiteAudit

namespace Json

variable {xs ys : List (Text × Json)}

/-- Entries with distinct keys are sorted into the same list exactly when they are the same. -/
lemma sortEntries_eq_iff (h : (xs.map (·.1)).Nodup) :
    sortEntries xs = sortEntries ys ↔ xs.Perm ys := by
  constructor
  · intro e
    have hperm : (sortEntries xs).Perm ys := e ▸ sortBy_perm ys
    exact (sortBy_perm xs).symm.trans hperm
  · intro hperm
    have hsorted : (sortEntries xs).Perm (sortEntries ys) :=
      (sortBy_perm xs).trans (hperm.trans (sortBy_perm ys).symm)
    refine hsorted.eq_of_pairwise (fun a b ha hb hab hba => ?_) (pairwise_sortBy _)
      (pairwise_sortBy _)
    have ha := mem_sortBy.1 ha
    have hb := hperm.mem_iff.2 (mem_sortBy.1 hb)
    exact List.inj_on_of_nodup_map h ha hb (hab.antisymm hba)

end Json

namespace Datum

variable {v w : Datum} {items : List Datum} {entries : List (Text × Datum)}

/-- The entries of a mapping whose keys are texts. -/
def textEntries (entries : List (Text × Datum)) : List (Datum × Datum) :=
  entries.map fun entry => (.text entry.1, entry.2)

/-- A datum that is built from null, truth values, integers that can be printed, texts, sequences,
tuples, and mappings of distinct texts. -/
inductive IsPlain : Datum → Prop where
  | null : IsPlain .null
  | bool (b : Bool) : IsPlain (.bool b)
  | int {n : Int} (h : (Text.ofNat n.natAbs).length ≤ Numeral.digitLimit) : IsPlain (.int n)
  | text (t : Text) : IsPlain (.text t)
  | sequence {items : List Datum} (h : ∀ item ∈ items, IsPlain item) : IsPlain (.sequence items)
  | tuple {items : List Datum} (h : ∀ item ∈ items, IsPlain item) : IsPlain (.tuple items)
  | mapping {entries : List (Text × Datum)} (hkeys : (entries.map (·.1)).Nodup)
    (h : ∀ entry ∈ entries, IsPlain entry.2) : IsPlain (.mapping (textEntries entries))

/-- The items of a sequence or of a tuple. -/
def items? : Datum → Option (List Datum)
  | .sequence items | .tuple items => some items
  | _ => none

/-- Are two data equal, where a tuple counts as a sequence, and the entries of a mapping stand in no
order? -/
inductive Equivalent : Datum → Datum → Prop where
  | null : Equivalent .null .null
  | bool (b : Bool) : Equivalent (.bool b) (.bool b)
  | int (n : Int) : Equivalent (.int n) (.int n)
  | text (t : Text) : Equivalent (.text t) (.text t)
  | items {v w : Datum} {xs ys : List Datum} (hv : v.items? = some xs) (hw : w.items? = some ys)
    (hlength : xs.length = ys.length) (h : ∀ x y, (x, y) ∈ xs.zip ys → Equivalent x y) :
    Equivalent v w
  | mapping {xs ys : List (Datum × Datum)} (hkeys : (xs.map (·.1)).Perm (ys.map (·.1)))
    (h : ∀ x ∈ xs, ∀ y ∈ ys, x.1 = y.1 → Equivalent x.2 y.2) :
    Equivalent (.mapping xs) (.mapping ys)

/-! ### The values of data -/

/-- Whatever has items becomes an array. -/
lemma toJson_of_items? (h : v.items? = some items) : v.toJson = .array (items.map toJson) := by
  have hitems : ∀ items, itemsToJson items = items.map toJson := by
    intro items
    induction items with
    | nil => rfl
    | cons item items ih => rw [itemsToJson, ih, List.map_cons]
  cases v <;> cases h <;> rw [toJson, hitems]

/-- A mapping of texts becomes an object if no two of its keys are the same. -/
lemma toJson_textEntries (hkeys : (entries.map (·.1)).Nodup) :
    (mapping (textEntries entries)).toJson =
      .object (entries.map fun entry => (entry.1, entry.2.toJson)) := by
  have hentries : entriesToJson (textEntries entries) =
      (entries.map fun entry => (entry.1, entry.2.toJson)).map
        fun entry => (text entry.1, entry.2) := by
    clear hkeys
    induction entries with
    | nil => rfl
    | cons entry entries ih =>
      rw [textEntries, List.map_cons, entriesToJson, ← textEntries, ih]
      rfl
  rw [toJson, hentries, objectEntries_of_texts]
  rwa [List.map_map]

/-- Plain data have no floating-point numbers. -/
lemma IsPlain.floatFree (h : v.IsPlain) : v.toJson.FloatFree := by
  induction h with
  | null => exact .null
  | bool b => exact .bool b
  | @int n h => exact .int n
  | text t => exact .text t
  | sequence _ ih | tuple _ ih =>
    rw [toJson_of_items? rfl]
    exact .array (List.forall_mem_map.2 ih)
  | mapping hkeys _ ih =>
    rw [toJson_textEntries hkeys]
    exact .object (List.forall_mem_map.2 ih)

/-- The value of the datum, with the entries of its objects in the order of their keys. -/
def canonical (v : Datum) : Json := v.toJson.sorted

/-- The canonical form of what has items is an array. -/
lemma canonical_of_items? (h : v.items? = some items) :
    v.canonical = .array (items.map canonical) := by
  rw [canonical, toJson_of_items? h, Json.sorted, Json.sortedItems_eq_map, List.map_map]
  rfl

/-- That of a mapping of texts has its entries in the order of their keys. -/
lemma canonical_textEntries (hkeys : (entries.map (·.1)).Nodup) :
    (mapping (textEntries entries)).canonical =
      .object (Json.sortEntries (entries.map fun entry => (entry.1, entry.2.canonical))) := by
  rw [canonical, toJson_textEntries hkeys, Json.sorted, Json.sortedEntries_eq_map, List.map_map]
  rfl

/-- Lists have the same canonical form if their items have, one by one. -/
lemma map_canonical_eq_iff {xs ys : List Datum} :
    xs.map canonical = ys.map canonical ↔
      xs.length = ys.length ∧ ∀ x y, (x, y) ∈ xs.zip ys → x.canonical = y.canonical := by
  have hforall : xs.map canonical = ys.map canonical ↔
      List.Forall₂ (fun x y => x.canonical = y.canonical) xs ys := by
    rw [← List.forall₂_eq_eq_eq, List.forall₂_map_left_iff, List.forall₂_map_right_iff]
  rw [hforall, List.forall₂_iff_zip]

/-- Mappings of distinct texts have the same value exactly when they have the same keys, each with
the same value. -/
lemma canonical_textEntries_eq_iff {xs ys : List (Text × Datum)} (hxs : (xs.map (·.1)).Nodup)
    (hys : (ys.map (·.1)).Nodup) :
    (mapping (textEntries xs)).canonical = (mapping (textEntries ys)).canonical ↔
      (xs.map (·.1)).Perm (ys.map (·.1)) ∧
        ∀ x ∈ xs, ∀ y ∈ ys, x.1 = y.1 → x.2.canonical = y.2.canonical := by
  have hkeys : ∀ zs : List (Text × Datum),
      (zs.map fun z => (z.1, z.2.canonical)).map (·.1) = zs.map (·.1) :=
    fun zs => List.map_map
  rw [canonical_textEntries hxs, canonical_textEntries hys, Json.object.injEq,
    Json.sortEntries_eq_iff (by rwa [hkeys])]
  constructor
  · intro hperm
    refine ⟨?_, fun x hx y hy e => ?_⟩
    · rw [← hkeys, ← hkeys ys]
      exact hperm.map _
    · obtain ⟨y', hy', e'⟩ := List.mem_map.1 (hperm.mem_iff.1 (List.mem_map_of_mem hx))
      obtain ⟨hkey, hvalue⟩ := Prod.mk.inj e'
      rw [List.inj_on_of_nodup_map hys hy hy' (e.symm.trans hkey.symm)]
      exact hvalue.symm
  · rintro ⟨hperm, hvalues⟩
    have hsubset :
        (xs.map fun x => (x.1, x.2.canonical)) ⊆ ys.map fun y => (y.1, y.2.canonical) := by
      refine List.forall_mem_map.2 fun x hx => ?_
      obtain ⟨y, hy, hkey⟩ := List.mem_map.1 (hperm.mem_iff.1 (List.mem_map_of_mem hx))
      rw [hvalues x hx y hy hkey.symm, ← hkey]
      exact List.mem_map_of_mem hy
    have hnodup : (xs.map fun x => (x.1, x.2.canonical)).Nodup := by
      refine .of_map (·.1) ?_
      rwa [hkeys]
    refine (List.subperm_of_subset hnodup hsubset).perm_of_length_le ?_
    simpa using hperm.length_eq.ge

/-- Mappings of texts are equivalent exactly when they have the same keys, and equivalent values of
each. -/
lemma equivalent_textEntries_iff {xs ys : List (Text × Datum)} :
    Equivalent (mapping (textEntries xs)) (mapping (textEntries ys)) ↔
      (xs.map (·.1)).Perm (ys.map (·.1)) ∧
        ∀ x ∈ xs, ∀ y ∈ ys, x.1 = y.1 → Equivalent x.2 y.2 := by
  have hkeys : ∀ zs, (textEntries zs).map (·.1) = (zs.map (·.1)).map Datum.text := by
    intro zs
    rw [textEntries, List.map_map, List.map_map]
    rfl
  constructor
  · intro h
    cases h with
    | items hv => cases hv
    | mapping hperm hvalues =>
      rw [hkeys, hkeys, List.map_perm_map_iff fun _ _ e => Datum.text.inj e] at hperm
      refine ⟨hperm, fun x hx y hy e => ?_⟩
      exact hvalues _ (List.mem_map_of_mem hx) _ (List.mem_map_of_mem hy) (congrArg text e)
  · rintro ⟨hperm, hvalues⟩
    refine .mapping ?_ ?_
    · rw [hkeys, hkeys]
      exact hperm.map _
    · refine List.forall_mem_map.2 fun x hx => List.forall_mem_map.2 fun y hy e => ?_
      exact hvalues x hx y hy (Datum.text.inj e)

/-- Data with the same value are equivalent. -/
lemma IsPlain.equivalent_of_canonical_eq (hv : v.IsPlain) (hw : w.IsPlain)
    (h : v.canonical = w.canonical) : Equivalent v w := by
  induction hv generalizing w with
  | null =>
    cases hw with
    | null => exact .null
    | _ => cases h
  | bool b =>
    cases hw with
    | bool b' => cases h; exact .bool b
    | _ => cases h
  | @int n _ =>
    cases hw with
    | int _ => cases h; exact .int n
    | _ => cases h
  | text t =>
    cases hw with
    | text t' => cases h; exact .text t
    | _ => cases h
  | sequence _ ih | tuple _ ih =>
    rw [canonical_of_items? rfl] at h
    cases hw with
    | sequence hys | tuple hys =>
      rw [canonical_of_items? rfl] at h
      obtain ⟨hlength, hitems⟩ := map_canonical_eq_iff.1 (Json.array.inj h)
      refine .items rfl rfl hlength fun x y hxy => ?_
      obtain ⟨hx, hy⟩ := List.of_mem_zip hxy
      exact ih x hx (hys y hy) (hitems x y hxy)
    | _ => cases h
  | @mapping xs hxs _ ih =>
    cases hw with
    | @mapping ys hys hplain =>
      obtain ⟨hkeys, hvalues⟩ := (canonical_textEntries_eq_iff hxs hys).1 h
      refine equivalent_textEntries_iff.2 ⟨hkeys, fun x hx y hy e => ?_⟩
      exact ih x hx (hplain y hy) (hvalues x hx y hy e)
    | _ => cases h

/-- The items of a plain datum are plain. -/
lemma IsPlain.of_mem_items? (hv : v.IsPlain) (h : v.items? = some items) :
    ∀ item ∈ items, item.IsPlain := by
  cases hv with
  | sequence hitems | tuple hitems => cases h; exact hitems
  | _ => cases h

/-- Equivalent data have the same value. -/
lemma Equivalent.canonical_eq (h : Equivalent v w) (hv : v.IsPlain) (hw : w.IsPlain) :
    v.canonical = w.canonical := by
  induction h with
  | null | bool b | int n | text t => rfl
  | items hxs hys hlength _ ih =>
    rw [canonical_of_items? hxs, canonical_of_items? hys]
    refine congrArg _ (map_canonical_eq_iff.2 ⟨hlength, fun x y hxy => ?_⟩)
    obtain ⟨hx, hy⟩ := List.of_mem_zip hxy
    exact ih x y hxy (hv.of_mem_items? hxs x hx) (hw.of_mem_items? hys y hy)
  | mapping hkeys h ih =>
    cases hv with
    | mapping hxs hplain =>
    cases hw with
    | mapping hys hplain' =>
      have hequivalent := equivalent_textEntries_iff.1 (.mapping hkeys h)
      refine (canonical_textEntries_eq_iff hxs hys).2 ⟨hequivalent.1, fun x hx y hy e => ?_⟩
      exact ih _ (List.mem_map_of_mem hx) _ (List.mem_map_of_mem hy) (congrArg Datum.text e)
        (hplain x hx) (hplain' y hy)

/-- **The document of a datum is canonical and lossless.** In every layout, two data that are built
from null, truth values, integers, texts, sequences, tuples and mappings of texts have the same
document exactly when they are equivalent. -/
theorem document_eq_iff (hv : v.IsPlain) (hw : w.IsPlain) (layout : Json.Layout) :
    v.document layout = w.document layout ↔ Equivalent v w := by
  unfold document
  rw [hv.floatFree.same_document_iff hw.floatFree]
  exact ⟨hv.equivalent_of_canonical_eq hw, fun h => h.canonical_eq hv hw⟩

/-- A mapping with a tuple in its first entry. -/
def tupleFirst : Datum :=
  .mapping (textEntries [("b", .tuple [.text "\"\n", .bool true]), ("a", .null)])

/-- The same entries in the other order, with a sequence. -/
def sequenceLast : Datum :=
  .mapping (textEntries [("a", .null), ("b", .sequence [.text "\"\n", .bool true])])

/-- An integer for the truth value. -/
def integerLast : Datum :=
  .mapping (textEntries [("a", .null), ("b", .sequence [.text "\"\n", .int 1])])

/-- The document tells a truth value from an integer, but neither a tuple from a sequence nor an
order of entries from the other one. -/
theorem document_eq_iff_tupleFirst :
    tupleFirst.IsPlain ∧ sequenceLast.IsPlain ∧ integerLast.IsPlain ∧
      tupleFirst.document (.indented 2) = sequenceLast.document (.indented 2) ∧
      Equivalent tupleFirst sequenceLast ∧ ¬ Equivalent tupleFirst integerLast := by
  have hpair : ∀ {v w : Datum}, v.IsPlain → w.IsPlain → ∀ item ∈ [v, w], item.IsPlain :=
    fun hv hw => List.forall_mem_cons.2 ⟨hv, List.forall_mem_singleton.2 hw⟩
  have hentries : ∀ {s t : Text} {v w : Datum}, v.IsPlain → w.IsPlain →
      ∀ entry ∈ [(s, v), (t, w)], entry.2.IsPlain :=
    fun hv hw => List.forall_mem_cons.2 ⟨hv, List.forall_mem_singleton.2 hw⟩
  have htuple : tupleFirst.IsPlain :=
    .mapping (by decide) (hentries (.tuple (hpair (.text _) (.bool true))) .null)
  have hsequence : sequenceLast.IsPlain :=
    .mapping (by decide) (hentries .null (.sequence (hpair (.text _) (.bool true))))
  have hinteger : integerLast.IsPlain :=
    .mapping (by decide) (hentries .null (.sequence (hpair (.text _) (.int (by decide)))))
  have hsame : tupleFirst.document (.indented 2) = sequenceLast.document (.indented 2) := by
    decide +kernel
  have hother : tupleFirst.document (.indented 2) ≠ integerLast.document (.indented 2) := by
    decide +kernel
  exact ⟨htuple, hsequence, hinteger, hsame, (document_eq_iff htuple hsequence _).1 hsame,
    fun h => hother ((document_eq_iff htuple hinteger _).2 h)⟩

end Datum

end SiteAudit
