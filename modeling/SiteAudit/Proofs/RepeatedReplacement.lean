import SiteAudit.Proofs.Remains

/-!
# Single replacements

One of several compatible replacements leaves by itself nothing to replace, unless one of its
targets can join with the next one (`Compatible.isFree_apply`). The targets of a safe replacement
cannot, so that each of them is made once and for all (`apply_leaves_no_match`).
-/

namespace SiteAudit.Replacement

variable {rules : List Replacement} {r : Replacement}

/-- One of several compatible replacements is compatible by itself, if its targets cannot join with
one another. -/
lemma Compatible.single (h : Compatible rules) (hr : r ∈ rules) (hjoins : ¬ Joins r r) :
    Compatible [r] where
  proper := List.forall_mem_singleton.2 (h.proper r hr)
  spares := by
    simp only [List.forall_mem_singleton]
    exact h.spares r hr r hr
  ordered := List.pairwise_singleton _ r
  intact := by
    simp only [List.forall_mem_singleton]
    exact fun hseam => absurd hseam hjoins
  distinct := by
    simp only [Distinct, List.forall_mem_singleton]
    exact fun hne => absurd rfl hne
  ends := List.forall_mem_singleton.2 (h.ends r hr)

/-- Such a replacement leaves nothing to replace. -/
lemma Compatible.isFree_apply (h : Compatible rules) (hr : r ∈ rules) (hjoins : ¬ Joins r r)
    (t : Text) : isFree [r] none (r.apply t) = true := by
  refine ((h.single hr hjoins).isFree_iff t).2 ?_
  rintro ⟨u, hu, v, hv, hseam, -⟩
  rw [List.mem_singleton.1 hu, List.mem_singleton.1 hv] at hseam
  exact hjoins hseam

/-- A text stays as it is exactly if there is nothing to replace in it. -/
lemma apply_eq_self_iff (hr : r.Proper) {t : Text} : r.apply t = t ↔ isFree [r] none t = true := by
  constructor
  · exact (pass_apply hr.target_ne t).isFree_of_eq (List.forall_mem_singleton.2 hr)
  · exact apply_of_isFree (List.mem_singleton_self r)

/-- No target of a safe replacement can join with itself. -/
lemma not_joins_self (hr : r ∈ safe) : ¬ Joins r r := by
  intro hjoins
  obtain ⟨hiff, hplain⟩ := safe_compatible.2 r hr r hr
  obtain ⟨hword, htarget⟩ := hiff.1 hjoins
  cases hword.symm.trans (hplain htarget)

/-- **A safe replacement is made once and for all.** It leaves no match of its own, so that a second
time it does nothing; and it changes a text exactly if there is a match in it. -/
theorem apply_leaves_no_match (hr : r ∈ safe) (t : Text) :
    (∀ x y, ¬ r.Matches (r.apply t) x y) ∧ r.apply (r.apply t) = r.apply t ∧
      (r.apply t = t ↔ ∀ x y, ¬ r.Matches t x y) := by
  have hproper := safe_compatible.1.proper r hr
  have hmatches : ∀ {t : Text}, isFree [r] none t = true ↔ ∀ x y, ¬ r.Matches t x y := by
    intro t
    rw [isFree_iff_matches (List.forall_mem_singleton.2 hproper.target_ne)]
    exact List.forall_mem_singleton
  have hfree := safe_compatible.1.isFree_apply hr (not_joins_self hr) t
  exact ⟨hmatches.1 hfree, (apply_eq_self_iff hproper).2 hfree,
    (apply_eq_self_iff hproper).trans hmatches⟩

/-- Class names side by side, and one that goes on. -/
def sideBySide : Text := "font-weight-bold-font-weight-bold font-weight-bolder"

/-- Both are replaced the first time, and nothing is left for the second. -/
theorem apply_leaves_no_match_sideBySide :
    ∃ r ∈ safe, r.id = "font_weight_bold".toList ∧
      r.apply sideBySide = "font-bold-font-bold font-weight-bolder".toList ∧
      r.apply (r.apply sideBySide) = r.apply sideBySide ∧
      (∀ x y, ¬ r.Matches (r.apply sideBySide) x y) ∧ ∃ x y, r.Matches sideBySide x y := by
  have hr : ⟨"font_weight_bold", "font-weight-bold", true, "font-bold"⟩ ∈ safe :=
    List.mem_cons_self ..
  obtain ⟨hleft, hagain, hchanged⟩ := apply_leaves_no_match hr sideBySide
  refine ⟨_, hr, rfl, by decide, hagain, hleft, ?_⟩
  by_contra hnone
  simp only [not_exists] at hnone
  revert hnone
  rw [← hchanged]
  decide

end SiteAudit.Replacement
