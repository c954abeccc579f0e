import SiteAudit.Proofs.SafeReplacements

/-!
# What the safe replacements leave

The class names that are left are those that ran into the address of the remote template, and they
stand before its local copy (`matches_safe_iff`); nothing else is left. What is left is replaced the
second time, and then nothing is (`applyAll_safe_leaves`).
-/

namespace SiteAudit.Replacement

/-! ### Matches -/

/-- The target stands in the text between the two others. If it must be a word, then none goes on
before or after it. -/
structure Matches (r : Replacement) (t x y : Text) : Prop where
  whole : t = x ++ (r.target ++ y)
  edges : r.wholeWord = true → isEdge x.getLast? = true ∧ isEdge y.head? = true

/-- A match is an occurrence at a place. -/
lemma matches_iff {r : Replacement} {t x y : Text} :
    r.Matches t x y ↔
      t = x ++ (r.target ++ y) ∧ r.occursAt (lastOr none x) (r.target ++ y) = true := by
  rw [occursAt_iff, lastOr_none]
  constructor
  · rintro ⟨whole, edges⟩
    exact ⟨whole, y, rfl, edges⟩
  · rintro ⟨whole, after, e, edges⟩
    obtain rfl := List.append_cancel_left e
    exact ⟨whole, edges⟩

/-- A text is free if there is no match in it. -/
lemma isFree_iff_matches {rules : List Replacement} (hne : ∀ r ∈ rules, r.target ≠ []) {t : Text} :
    isFree rules none t = true ↔ ∀ r ∈ rules, ∀ x y, ¬ r.Matches t x y := by
  rw [isFree_iff_occursAt hne]
  refine forall₂_congr fun r _ => ⟨fun h x y hmatch => ?_, fun h x y e => ?_⟩
  · obtain ⟨e, here⟩ := matches_iff.1 hmatch
    cases (h x _ e).symm.trans here
  · rw [← Bool.not_eq_true]
    intro here
    obtain ⟨after, rfl, -⟩ := occursAt_iff.1 here
    exact h x after (matches_iff.2 ⟨e, here⟩)

/-! ### Class names before the template -/

/-- The local copy of the distribution script. -/
def localTemplate : Text := "/assets/js/distillpub/template.v2.js"

/-- The replacement of the address of the script. -/
def template : Replacement :=
  ⟨"distill_local_template", remoteTemplate, false, localTemplate⟩

/-- The replacement of the remote template is one of the safe ones. -/
lemma template_mem : template ∈ safe :=
  List.mem_cons_of_mem _ <| List.mem_cons_of_mem _ <| List.mem_cons_of_mem _ <|
    List.mem_cons_self ..

/-- The address of the script counts everywhere. -/
lemma template_occursAt (b : Option Char) (y : Text) :
    template.occursAt b (remoteTemplate ++ y) = true :=
  occursAt_iff.2 ⟨y, rfl, nofun⟩

/-- What becomes of a text that begins with the address does not depend on what stands before, and
begins with the local copy. -/
lemma Pass.eq_of_template {b : Option Char} {y t' : Text}
    (p : Pass safe b (remoteTemplate ++ y) t') :
    t' = (applyAll safe (remoteTemplate ++ y)).1 ∧ ∃ rest, t' = localTemplate ++ rest := by
  obtain ⟨hproper, -, hordered, -, hdistinct, -⟩ := safe_compatible.1
  have q := pass_applyAll hproper hordered (remoteTemplate ++ y)
  obtain ⟨rest, hp, p⟩ := p.swap_inv hproper hdistinct template_mem (template_occursAt b y)
  obtain ⟨rest', hq, q⟩ := q.swap_inv hproper hdistinct template_mem (template_occursAt none y)
  -- the two go on after the same character
  have hne := (hproper template template_mem).target_ne
  rw [lastOr_of_ne hne] at p
  refine ⟨?_, rest, hp⟩
  rw [hp, hq, p.unique hproper hdistinct q]

variable {r : Replacement} (hr : r ∈ safe) (hword : r.wholeWord = true)
include hr hword

/-- A class name joins with the address of the script. -/
lemma joins_template : Joins r template :=
  (safe_compatible.2 r hr template template_mem).1.2 ⟨hword, rfl⟩

/-- A class name that runs into the address is left alone. -/
lemma Pass.seam {b : Option Char} {y t' : Text}
    (p : Pass safe b (r.target ++ (remoteTemplate ++ y)) t') :
    t' = r.target ++ (applyAll safe (remoteTemplate ++ y)).1 := by
  have hintact := safe_compatible.1.intact r hr template template_mem (joins_template hr hword)
  obtain ⟨t'', rfl, after⟩ := p.keep_append hintact.inside (by simp)
  rw [after.eq_of_template.1]

/-- The safe replacements leave a class name exactly where it ran into the address: they do what
stands before it and what follows it each by itself. -/
lemma matches_safe_iff (t x' y' : Text) :
    r.Matches (applyAll safe t).1 x' y' ↔
      ∃ x y, t = x ++ (r.target ++ (remoteTemplate ++ y)) ∧ isEdge x.getLast? = true ∧
        x' = (applyAll safe x).1 ∧ y' = (applyAll safe (remoteTemplate ++ y)).1 := by
  have hcompatible := safe_compatible.1
  have hpass := pass_applyAll hcompatible.proper hcompatible.ordered
  have p := hpass t
  rw [matches_iff]
  constructor
  · rintro ⟨e, here⟩
    rw [e] at p
    obtain ⟨x, s, rfl, before, after, hb, u, hu, hjoins, hs⟩ :=
      p.seam_of_occursAt hcompatible hr here
    obtain ⟨y, rfl, -⟩ := occursAt_iff.1 hs
    rw [((safe_compatible.2 r hr u hu).1.1 hjoins).2] at after ⊢
    refine ⟨x, y, rfl, by rw [← lastOr_none]; exact hb, ?_, ?_⟩
    · exact before.unique hcompatible.proper hcompatible.distinct (hpass x)
    · exact List.append_cancel_left (after.seam hr hword)
  · rintro ⟨x, y, rfl, hb, rfl, rfl⟩
    rw [← lastOr_none] at hb
    obtain ⟨x', s', e, before, after, here⟩ := p.occursAt_of_seam hcompatible hr template_mem
      (joins_template hr hword) hb (template_occursAt _ y)
    rw [after.seam hr hword] at e here
    rw [before.unique hcompatible.proper hcompatible.distinct (hpass x)] at e here
    exact ⟨e, here⟩

omit hr hword

/-- The former name of the style sheet. -/
def oldStyleSheet : Text := "assets/tailwind/input.css"

/-- **What the safe replacements leave.** Neither the address of the script nor the former name of
the style sheet is left. A class name is left exactly where it ran into that address, and stands
before the local copy of the script now; what stands before it and what follows it is replaced by
itself. The second time nothing is left of any target, and the third time nothing is done. -/
theorem applyAll_safe_leaves {t once twice : Text} {fired fired' : List Text}
    (h : applyAll safe t = (once, fired)) (h' : applyAll safe once = (twice, fired')) :
    Text.occursIn remoteTemplate once = false ∧ Text.occursIn oldStyleSheet once = false ∧
    (∀ r ∈ safe, r.wholeWord = true → ∀ x' y', r.Matches once x' y' ↔
      ∃ x y rest, t = x ++ (r.target ++ (remoteTemplate ++ y)) ∧ isEdge x.getLast? = true ∧
        x' = (applyAll safe x).1 ∧ y' = (applyAll safe (remoteTemplate ++ y)).1 ∧
        y' = localTemplate ++ rest) ∧
    (∀ r ∈ safe, ∀ x y, ¬ r.Matches twice x y) ∧ applyAll safe twice = (twice, []) := by
  obtain rfl : (applyAll safe t).1 = once := by rw [h]
  obtain rfl : (applyAll safe (applyAll safe t).1).1 = twice := by rw [h']
  have hproper := safe_compatible.1.proper
  have hpass := pass_applyAll hproper safe_compatible.1.ordered
  have hremote := not_occursIn_of_plain template_mem rfl t
  have hsheet := not_occursIn_of_plain (r := _) (List.mem_of_getLast? (l := safe) rfl) rfl t
  -- without the address no class name runs into it
  have hfree : isFree safe none (applyAll safe (applyAll safe t).1).1 = true := by
    refine (isFree_applyAll_safe _).2 ?_
    rintro ⟨r, -, -, x, y, e, -⟩
    refine absurd (Text.occursIn_iff.2 ⟨x ++ r.target, y, ?_⟩) (Bool.not_eq_true _ ▸ hremote)
    rw [e]
    exact List.append_assoc ..
  refine ⟨hremote, hsheet, fun r hr hword x' y' => ?_,
    (isFree_iff_matches fun r hr => (hproper r hr).target_ne).1 hfree, applyAll_of_isFree hfree⟩
  rw [matches_safe_iff hr hword]
  constructor
  · rintro ⟨x, y, e, hb, hx, hy⟩
    obtain ⟨rest, hrest⟩ := (hpass (remoteTemplate ++ y)).eq_of_template.2
    exact ⟨x, y, rest, e, hb, hx, hy, hy.trans hrest⟩
  · rintro ⟨x, y, -, e, hb, hx, hy, -⟩
    exact ⟨x, y, e, hb, hx, hy⟩

/-- Two class names, of which one runs into the address of the script. -/
def runningInto : Text := "font-weight-bold" ++ (remoteTemplate ++ " font-weight-medium")

/-- What is left of them the first time. -/
def leftOver : Text := "font-weight-bold" ++ (localTemplate ++ " font-medium")

/-- What is left of them the second time. -/
def replacedTwice : Text := "font-bold" ++ (localTemplate ++ " font-medium")

/-- The class name that runs into the address is left the first time, and replaced the second. -/
theorem applyAll_safe_leaves_runningInto :
    applyAll safe runningInto =
        (leftOver, (["font_weight_medium", "distill_local_template"] : List Text)) ∧
      applyAll safe leftOver = (replacedTwice, (["font_weight_bold"] : List Text)) ∧
      Text.occursIn remoteTemplate leftOver = false ∧
      (∃ r ∈ safe, r.wholeWord = true ∧ ∃ y, r.Matches leftOver [] y) ∧
      applyAll safe replacedTwice = (replacedTwice, []) := by
  obtain ⟨h, h'⟩ : applyAll safe runningInto =
        (leftOver, (["font_weight_medium", "distill_local_template"] : List Text)) ∧
      applyAll safe leftOver = (replacedTwice, (["font_weight_bold"] : List Text)) := by
    unfold runningInto leftOver replacedTwice localTemplate safe remoteTemplate
    repeat rw [String.toList_ofList]
    decide
  obtain ⟨hremote, -, hmatches, -, hdone⟩ := applyAll_safe_leaves h h'
  obtain ⟨rest, hrest⟩ := (pass_applyAll safe_compatible.1.proper safe_compatible.1.ordered
    (remoteTemplate ++ (" font-weight-medium" : Text))).eq_of_template.2
  have hmatch := (hmatches _ (List.mem_cons_self ..) rfl [] _).2
    ⟨[], _, rest, rfl, rfl, rfl, rfl, hrest⟩
  exact ⟨h, h', hremote, ⟨_, List.mem_cons_self .., rfl, _, hmatch⟩, hdone⟩

end SiteAudit.Replacement
