import Mathlib.Data.List.Basic
import SiteAudit.Text.Basic

/-!
# Sorting

A sort keeps the elements (`sortBy_perm`) and leaves what is in order (`sortBy_eq_self`). It depends
on the order of its elements only (`sortBy_congr`), so that elements can be changed before it or
after it (`sortBy_map`).
-/

namespace SiteAudit

variable {α β : Type}

/-- An insertion adds the element. -/
lemma insertBy_perm {before : α → α → Bool} (x : α) (l : List α) :
    (insertBy before x l).Perm (x :: l) := by
  induction l with
  | nil => exact .refl [x]
  | cons y l ih =>
    rw [insertBy]
    split
    · exact (ih.cons y).trans (.swap x y l)
    · exact .refl _

/-- So the elements are the old ones and the new one. -/
lemma mem_insertBy {before : α → α → Bool} {x y : α} {l : List α} :
    y ∈ insertBy before x l ↔ y = x ∨ y ∈ l :=
  (insertBy_perm x l).mem_iff.trans List.mem_cons

/-- What is sorted has the same elements. -/
lemma sortBy_perm {before : α → α → Bool} (l : List α) : (sortBy before l).Perm l := by
  induction l with
  | nil => exact .nil
  | cons x l ih => exact (insertBy_perm x _).trans (ih.cons x)

/-- So nothing comes in or is lost. -/
lemma mem_sortBy {before : α → α → Bool} {y : α} {l : List α} :
    y ∈ sortBy before l ↔ y ∈ l :=
  (sortBy_perm l).mem_iff

/-- What is in order already stays as it is. -/
lemma sortBy_eq_self {before : α → α → Bool} {l : List α}
    (h : l.Pairwise fun x y => before y x = false) : sortBy before l = l := by
  induction h with
  | nil => rfl
  | @cons x l hx _ ih =>
    change insertBy before x (sortBy before l) = x :: l
    rw [ih]
    cases l with
    | nil => rfl
    | cons y l => rw [insertBy, hx y List.mem_cons_self, if_neg Bool.false_ne_true]

/-- Elements are inserted at the same position after a change that does not concern the order. -/
lemma insertBy_map {before : β → β → Bool} (f : α → β) (x : α) (l : List α) :
    insertBy before (f x) (l.map f) =
      (insertBy (fun a b => before (f a) (f b)) x l).map f := by
  induction l with
  | nil => rfl
  | cons y l ih =>
    rw [List.map_cons, insertBy, insertBy]
    split
    · rw [ih, List.map_cons]
    · rfl

/-- Elements are sorted in the same way after a change that does not concern the order. -/
lemma sortBy_map {before : β → β → Bool} (f : α → β) (l : List α) :
    sortBy before (l.map f) = (sortBy (fun a b => before (f a) (f b)) l).map f := by
  induction l with
  | nil => rfl
  | cons x l ih =>
    change insertBy before (f x) (sortBy before (l.map f)) = _
    rw [ih, insertBy_map]
    rfl

/-- An insertion asks for the order of the elements only. -/
lemma insertBy_congr {before before' : α → α → Bool} {x : α} {l : List α}
    (h : ∀ y ∈ l, before y x = before' y x) : insertBy before x l = insertBy before' x l := by
  induction l with
  | nil => rfl
  | cons y l ih =>
    obtain ⟨hy, hl⟩ := List.forall_mem_cons.1 h
    rw [insertBy, insertBy, hy, ih hl]

/-- So does a sort. -/
lemma sortBy_congr {before before' : α → α → Bool} {l : List α}
    (h : ∀ a ∈ l, ∀ b ∈ l, before a b = before' a b) : sortBy before l = sortBy before' l := by
  induction l with
  | nil => rfl
  | cons x l ih =>
    have hrest : sortBy before l = sortBy before' l :=
      ih fun a ha b hb => h a (List.mem_cons_of_mem x ha) b (List.mem_cons_of_mem x hb)
    change insertBy before x (sortBy before l) = insertBy before' x (sortBy before' l)
    rw [hrest]
    exact insertBy_congr fun y hy =>
      h y (List.mem_cons_of_mem x (mem_sortBy.1 hy)) x List.mem_cons_self

end SiteAudit
