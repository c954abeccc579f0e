import SiteAudit.Lines
import SiteAudit.Proofs.SafeReplacements

/-!
# Line by line

A function on texts is linewise if it leaves the ends of lines and does each side of one by itself
(`Linewise`). Such a function makes of the lines of a text the lines of the new text
(`Linewise.ofText`), so that the numbers of lines stay. The safe replacements are linewise
(`linewise_safe`).
-/

namespace SiteAudit

/-- A function on texts that leaves the ends of lines and does each side of one by itself. -/
structure Linewise (f : Text → Text) : Prop where
  nil : f [] = []
  ne_nil : ∀ t, t ≠ [] → f t ≠ []
  apart : ∀ c ∈ ['\n', '\r'], ∀ s t, f (s ++ c :: t) = f s ++ c :: f t
  fresh : ∀ c ∈ ['\n', '\r'], ∀ t, c ∉ t → c ∉ f t

namespace Linewise

variable {f g : Text → Text}

/-- To change nothing is linewise. -/
lemma id : Linewise id where
  nil := rfl
  ne_nil _ h := h
  apart _ _ _ _ := rfl
  fresh _ _ _ h := h

/-- Linewise functions may be run one after the other. -/
lemma comp (hg : Linewise g) (hf : Linewise f) : Linewise (g ∘ f) where
  nil := (congrArg g hf.nil).trans hg.nil
  ne_nil t ht := hg.ne_nil (f t) (hf.ne_nil t ht)
  apart c hc s t := (congrArg g (hf.apart c hc s t)).trans (hg.apart c hc (f s) (f t))
  fresh c hc t ht := hg.fresh c hc (f t) (hf.fresh c hc t ht)

/-- Nothing comes of nothing only. -/
lemma eq_nil_iff (hf : Linewise f) {t : Text} : f t = [] ↔ t = [] := by
  constructor
  · intro h
    by_contra hne
    exact hf.ne_nil t hne h
  · rintro rfl
    exact hf.nil

/-- The ends of lines are those of the text. -/
lemma mem_iff (hf : Linewise f) {c : Char} (hc : c ∈ ['\n', '\r']) {t : Text} :
    c ∈ f t ↔ c ∈ t := by
  constructor
  · intro h
    by_contra hnot
    exact hf.fresh c hc t hnot h
  · intro h
    obtain ⟨s, rest, rfl⟩ := List.append_of_mem h
    rw [hf.apart c hc]
    exact List.mem_append_right _ List.mem_cons_self

/-- The pieces between line feeds are those of the text, each changed by itself. -/
lemma splitOn (hf : Linewise f) (t : Text) :
    Text.splitOn '\n' (f t) = (Text.splitOn '\n' t).map f := by
  have hfeed : '\n' ∈ ['\n', '\r'] := List.mem_cons_self
  induction t using Text.inductionOnPieces ['\n'] with
  | piece t ht =>
    have ht := List.forall_mem_singleton.1 ht
    rw [Text.splitOn_of_not_mem ht, Text.splitOn_of_not_mem (hf.fresh _ hfeed t ht)]
    rfl
  | append s c t hc hs ih =>
    obtain rfl := List.mem_singleton.1 hc
    have hs := List.forall_mem_singleton.1 hs
    rw [hf.apart _ hfeed, Text.splitOn_append (hf.fresh _ hfeed s hs), Text.splitOn_append hs, ih,
      List.map_cons]

/-- A text keeps the carriage return at its end, and gets none. -/
lemma getLast?_eq_return (hf : Linewise f) (t : Text) :
    (f t).getLast? = some '\r' ↔ t.getLast? = some '\r' := by
  have hreturn : '\r' ∈ ['\n', '\r'] := by simp
  induction t using Text.inductionOnPieces ['\r'] with
  | piece t ht =>
    have ht := List.forall_mem_singleton.1 ht
    have hnot := hf.fresh _ hreturn t ht
    exact iff_of_false (fun h => hnot (List.mem_of_getLast? h)) fun h =>
      ht (List.mem_of_getLast? h)
  | append s c t hc _ ih =>
    obtain rfl := List.mem_singleton.1 hc
    have hlast : ∀ x y : Text, y ≠ [] → (x ++ '\r' :: y).getLast? = y.getLast? := by
      intro x y hy
      rw [List.getLast?_append_of_ne_nil _ (List.cons_ne_nil _ _),
        List.getLast?_cons_of_ne_nil hy]
    rw [hf.apart _ hreturn]
    by_cases ht : t = []
    · rw [ht, hf.nil, List.getLast?_concat, List.getLast?_concat]
    · rw [hlast _ _ ht, hlast _ _ (hf.ne_nil t ht)]
      exact ih

/-- A text stays as it is exactly if it does on both sides of the end of a line. -/
lemma eq_self_iff (hf : Linewise f) {c : Char} (hc : c ∈ ['\n', '\r']) {s t : Text} :
    f (s ++ c :: t) = s ++ c :: t ↔ f s = s ∧ f t = t := by
  constructor
  · intro h
    rw [hf.apart c hc] at h
    induction s using Text.inductionOnPieces [c] with
    | piece s hs =>
      have hs : c ∉ s := hs c List.mem_cons_self
      exact (Text.append_cons_inj (hf.fresh c hc s hs) hs).1 h
    | append first d s hd hfirst ih =>
      obtain rfl := List.mem_singleton.1 hd
      have hfirst : d ∉ first := hfirst d List.mem_cons_self
      rw [hf.apart d hc, List.append_assoc, List.append_assoc, List.cons_append,
        List.cons_append] at h
      obtain ⟨hsame, hrest⟩ := (Text.append_cons_inj (hf.fresh d hc first hfirst) hfirst).1 h
      obtain ⟨hs, ht⟩ := ih hrest
      rw [hf.apart d hc, hsame, hs]
      exact ⟨rfl, ht⟩
  · rintro ⟨hs, ht⟩
    rw [hf.apart c hc, hs, ht]

/-- A carriage return at the end of a line stays where it is. -/
lemma dropReturn (hf : Linewise f) (t : Text) :
    Lines.dropReturn (f t) = f (Lines.dropReturn t) := by
  have hreturn : '\r' ∈ ['\n', '\r'] := by simp
  have hlast := hf.getLast?_eq_return t
  unfold Lines.dropReturn
  by_cases h : t.getLast? = some '\r'
  · rw [if_pos h, if_pos (hlast.2 h)]
    obtain ⟨s, rfl⟩ := List.getLast?_eq_some_iff.1 h
    rw [hf.apart _ hreturn, hf.nil, List.dropLast_concat, List.dropLast_concat]
  · rw [if_neg h, if_neg (mt hlast.1 h)]

/-- The lines are those of the text, each changed by itself. -/
lemma ofText (hf : Linewise f) (t : Text) : Lines.ofText (f t) = (Lines.ofText t).map f := by
  have hdrop : (Lines.dropReturn ∘ f) = (f ∘ Lines.dropReturn) := funext hf.dropReturn
  have hlast : ∀ pieces : List Text,
      (pieces.map f).getLast? = some [] ↔ pieces.getLast? = some [] := by
    intro pieces
    rw [List.getLast?_map, Option.map_eq_some_iff]
    simp only [hf.eq_nil_iff, exists_eq_right]
  unfold Lines.ofText
  rw [hf.splitOn]
  dsimp only
  by_cases h : (Text.splitOn '\n' t).getLast? = some []
  · rw [if_pos h, if_pos ((hlast _).2 h), ← List.map_dropLast, List.map_map, List.map_map, hdrop]
  · rw [if_neg h, if_neg (mt (hlast _).1 h), List.map_map, List.map_map, hdrop]

end Linewise

namespace Replacement

variable {r : Replacement} {rules : List Replacement}

/-- The character belongs to no word, nor to what is looked for or written. -/
def Avoids (r : Replacement) (c : Char) : Prop :=
  Text.isWordChar c = false ∧ c ∉ r.target ∧ c ∉ r.substitute

instance (r : Replacement) (c : Char) : Decidable (r.Avoids c) :=
  inferInstanceAs (Decidable (_ ∧ _ ∧ _))

/-- What a replacement avoids separates its matches. -/
lemma Avoids.isSeparator {c : Char} (hc : r.Avoids c) : IsSeparator [r] c :=
  ⟨hc.1, List.forall_mem_singleton.2 hc.2.1⟩

/-- Only the edge before a text matters for what is replaced in it. -/
lemma applyFrom_congr {b b' : Option Char} (h : isEdge b = isEdge b') (t : Text) :
    r.applyFrom 0 b t = r.applyFrom 0 b' t := by
  cases t with
  | nil => rfl
  | cons c t => rw [applyFrom, applyFrom, occursAt_congr h]

/-- A text is replaced on both sides of such a character by itself, when what is being skipped ends
before it. -/
lemma applyFrom_apart {c : Char} (hr : r.target ≠ []) (hc : r.Avoids c) {skip : Nat} {s : Text}
    (hskip : skip ≤ s.length) (before : Option Char) (t : Text) :
    r.applyFrom skip before (s ++ c :: t) =
      r.applyFrom skip before s ++ c :: r.applyFrom 0 none t := by
  have hone := List.mem_singleton_self r
  induction s generalizing skip before with
  | nil =>
    rw [Nat.le_zero.1 hskip]
    have hnot : r.occursAt before (c :: t) = false := by
      have hhere := occursAt_separator hone hc.isSeparator before [] t
      rw [List.nil_append] at hhere
      rw [hhere, ← Bool.not_eq_true, occursAt_iff]
      rintro ⟨after, e, -⟩
      exact hr (List.append_eq_nil_iff.1 e.symm).1
    have hkeep : r.applyFrom 0 before (c :: t) = c :: r.applyFrom 0 (some c) t := by
      rw [applyFrom, if_neg (by simp [hnot])]
    rw [List.nil_append, hkeep, applyFrom_congr hc.isSeparator.isEdge]
    rfl
  | cons d s ih =>
    cases skip with
    | succ skip => exact ih (Nat.le_of_succ_le_succ hskip) _
    | zero =>
      have hsame : r.occursAt before (d :: (s ++ c :: t)) = r.occursAt before (d :: s) :=
        occursAt_separator hone hc.isSeparator before (d :: s) t
      rw [List.cons_append, applyFrom, applyFrom, hsame]
      split
      · rename_i here
        obtain ⟨after, e, -⟩ := occursAt_iff.1 here
        have hlength := congrArg List.length e
        rw [List.length_cons, List.length_append] at hlength
        rw [ih (by omega), List.append_assoc]
      · rw [ih (Nat.zero_le _)]
        rfl

/-- What is in a text after a replacement was there before or has been written. -/
lemma mem_applyFrom {c : Char} {skip : Nat} {before : Option Char} {t : Text}
    (h : c ∈ r.applyFrom skip before t) : c ∈ t ∨ c ∈ r.substitute := by
  induction t generalizing skip before with
  | nil =>
    cases skip <;> exact absurd h List.not_mem_nil
  | cons d t ih =>
    have hlater : c ∈ t ∨ c ∈ r.substitute → c ∈ d :: t ∨ c ∈ r.substitute :=
      Or.imp_left (List.mem_cons_of_mem d)
    cases skip with
    | succ skip => exact hlater (ih h)
    | zero =>
      rw [applyFrom] at h
      split at h
      · rcases List.mem_append.1 h with h | h
        · exact .inr h
        · exact hlater (ih h)
      · rcases List.mem_cons.1 h with rfl | h
        · exact .inl (List.mem_cons_self ..)
        · exact hlater (ih h)

/-- A replacement is linewise if neither of its texts is empty or holds a line break. -/
lemma linewise_apply (hr : r.target ≠ []) (hs : r.substitute ≠ [])
    (hc : ∀ c ∈ ['\n', '\r'], r.Avoids c) : Linewise r.apply where
  nil := rfl
  ne_nil t ht := by
    obtain ⟨c, t, rfl⟩ := List.exists_cons_of_ne_nil ht
    unfold apply
    rw [applyFrom]
    split
    · exact List.append_ne_nil_of_left_ne_nil hs _
    · exact List.cons_ne_nil _ _
  apart c hmem s t := applyFrom_apart hr (hc c hmem) (Nat.zero_le _) none t
  fresh c hmem t ht hin := (mem_applyFrom hin).elim ht (hc c hmem).2.2

/-- Linewise replacements one after the other are linewise. -/
lemma linewise_applyAll (h : ∀ r ∈ rules, Linewise r.apply) :
    Linewise fun t => (applyAll rules t).1 := by
  induction rules with
  | nil => exact .id
  | cons r rules ih =>
    obtain ⟨hr, hrules⟩ := List.forall_mem_cons.1 h
    exact (ih hrules).comp hr

/-- The safe replacements have nothing to do with line breaks. -/
lemma safe_avoids : ∀ r ∈ safe, ∀ c ∈ ['\n', '\r'], r.Avoids c := by
  have h : ∀ r ∈ safe, r.Avoids '\n' ∧ r.Avoids '\r' := by
    unfold safe remoteTemplate
    repeat rw [String.toList_ofList]
    decide
  intro r hr
  obtain ⟨hfeed, hreturn⟩ := h r hr
  exact List.forall_mem_cons.2 ⟨hfeed, List.forall_mem_singleton.2 hreturn⟩

/-- So they are linewise. -/
lemma linewise_of_mem_safe : ∀ r ∈ safe, Linewise r.apply := by
  intro r hr
  have hproper := safe_compatible.1.proper r hr
  exact linewise_apply hproper.target_ne hproper.substitute_ne (safe_avoids r hr)

/-- The safe replacements are linewise. -/
theorem linewise_safe : Linewise fun t => (applyAll safe t).1 :=
  linewise_applyAll linewise_of_mem_safe

end Replacement

end SiteAudit
