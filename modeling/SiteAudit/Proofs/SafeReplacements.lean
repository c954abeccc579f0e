import SiteAudit.Proofs.Completion
import SiteAudit.Proofs.Insertion
import SiteAudit.Proofs.Seam

/-!
# The safe replacements together

None of the safe replacements disturbs another one, so that they make one pass. The only seam is a
class name that runs into the address of the remote template (`RunsIntoTemplate`): only there do
they leave something to be replaced (`isFree_applyAll_safe`). A completion of the namespace
neither brings nor takes away anything that is replaced (`isFree_fill`).
-/

namespace SiteAudit.Replacement
open Namespace

/-! ### Deciding the conditions -/

instance (r : Replacement) : Decidable r.Proper :=
  decidable_of_iff
    (r.target ≠ [] ∧ r.substitute ≠ [] ∧ mayBegin r.target false false r.substitute = false ∧
      isEdge (lastOr none r.target) = isEdge (lastOr none r.substitute) ∧
      (isEdge r.target.head? = true → isEdge r.substitute.head? = true))
    ⟨fun ⟨ht, hs, hd, hl, hh⟩ => ⟨ht, hs, hd, hl, hh⟩,
      fun ⟨ht, hs, hd, hl, hh⟩ => ⟨ht, hs, hd, hl, hh⟩⟩

instance (r u : Replacement) : Decidable (Spares r u) :=
  decidable_of_iff
    (mayBeginIn r.substitute false false [] u.target = false ∧
      mayBeginIn u.target u.wholeWord r.wholeWord [] r.substitute = false)
    ⟨fun ⟨hp, hs⟩ => ⟨hp, hs⟩, fun ⟨hp, hs⟩ => ⟨hp, hs⟩⟩

instance (r u : Replacement) : Decidable (Precedes r u) :=
  decidable_of_iff
    (Spares r u ∧ mayBeginIn r.target r.wholeWord false [] u.target = false ∧
      (u.wholeWord = true → isEdge r.target.head? = isEdge r.substitute.head?))
    ⟨fun ⟨hs, ht, hh⟩ => ⟨hs, ht, hh⟩, fun ⟨hs, ht, hh⟩ => ⟨hs, ht, hh⟩⟩

instance (rules : List Replacement) (u r : Replacement) : Decidable (Intact rules u r) :=
  decidable_of_iff
    ((∀ q ∈ rules, mayBeginIn q.target q.wholeWord false r.target u.target = false) ∧
      (∀ q ∈ rules, isEdge q.substitute.head? = true ∨
        mayBegin q.target q.wholeWord false r.target = false) ∧
      ∀ q ∈ rules, mayBeginIn (u.target ++ r.target) false false [] q.target.tail = false)
    ⟨fun ⟨hi, hr, ha⟩ => ⟨hi, hr, ha⟩, fun ⟨hi, hr, ha⟩ => ⟨hi, hr, ha⟩⟩

instance (rules : List Replacement) : Decidable (Compatible rules) :=
  decidable_of_iff
    ((∀ r ∈ rules, r.Proper) ∧ (∀ r ∈ rules, ∀ u ∈ rules, Spares r u) ∧
      rules.Pairwise Precedes ∧ (∀ u ∈ rules, ∀ r ∈ rules, Joins u r → Intact rules u r) ∧
      Distinct rules ∧ ∀ r ∈ rules, r.wholeWord = true → isEdge (lastOr none r.target) = false)
    ⟨fun ⟨hp, hs, ho, hi, hd, he⟩ => ⟨hp, hs, ho, hi, hd, he⟩,
      fun ⟨hp, hs, ho, hi, hd, he⟩ => ⟨hp, hs, ho, hi, hd, he⟩⟩

/-- The safe replacements are compatible, and only the remote template can run on from a class
name. -/
lemma safe_compatible : Compatible safe ∧ ∀ u ∈ safe, ∀ r ∈ safe,
    (Joins u r ↔ u.wholeWord = true ∧ r.target = remoteTemplate) ∧
      (r.target = remoteTemplate → r.wholeWord = false) := by
  -- the kernel is slow at decoding string literals, but not at lists of characters
  unfold safe remoteTemplate
  repeat rw [String.toList_ofList]
  decide +kernel

/-- The remote template is among what is looked for. -/
lemma exists_remoteTemplate : ∃ r ∈ safe, r.target = remoteTemplate :=
  ⟨_, List.mem_cons_of_mem _ <| List.mem_cons_of_mem _ <| List.mem_cons_of_mem _ <|
    List.mem_cons_self .., rfl⟩

/-! ### The seam -/

/-- Somewhere in the text a class name that is replaced as a word runs into the address of the
remote template. -/
def RunsIntoTemplate (t : Text) : Prop :=
  ∃ r ∈ safe, r.wholeWord = true ∧
    ∃ x y, t = x ++ r.target ++ remoteTemplate ++ y ∧ isEdge x.getLast? = true

/-- This is the only kind of seam of the safe replacements. -/
lemma hasSeam_safe {t : Text} : HasSeam safe none t ↔ RunsIntoTemplate t := by
  constructor
  · rintro ⟨u, hu, r, hr, hj, x, y, rfl, hb, here⟩
    obtain ⟨hword, ht⟩ := (safe_compatible.2 u hu r hr).1.1 hj
    obtain ⟨z, rfl, _⟩ := occursAt_iff.1 here
    refine ⟨u, hu, hword, x, z, ?_, by rw [← lastOr_none]; exact hb⟩
    rw [ht]
    simp only [List.append_assoc]
  · rintro ⟨u, hu, hword, x, y, rfl, hb⟩
    obtain ⟨r, hr, ht⟩ := exists_remoteTemplate
    obtain ⟨hjoins, hplain⟩ := safe_compatible.2 u hu r hr
    refine ⟨u, hu, r, hr, hjoins.2 ⟨hword, ht⟩, x, remoteTemplate ++ y,
      by simp only [List.append_assoc], ?_, ?_⟩
    · rw [lastOr_none]
      exact hb
    · refine occursAt_iff.2 ⟨y, by rw [ht], fun hf => ?_⟩
      rw [hplain ht] at hf
      cases hf

/-- What the safe replacements leave is free of their targets, unless a class name ran into the
address of the remote template. -/
lemma isFree_applyAll_safe (t : Text) :
    isFree safe none (applyAll safe t).1 = true ↔ ¬ RunsIntoTemplate t := by
  rw [← hasSeam_safe]
  exact safe_compatible.1.isFree_iff t

/-- The address of the remote template need not be a word, and is left nowhere. -/
lemma isFree_remoteTemplate (t : Text) :
    ∃ r ∈ safe, r.target = remoteTemplate ∧ r.wholeWord = false ∧
      isFree [r] none (applyAll safe t).1 = true := by
  obtain ⟨r, hr, ht⟩ := exists_remoteTemplate
  have hplain := (safe_compatible.2 r hr r hr).2 ht
  exact ⟨r, hr, ht, hplain, safe_compatible.1.isFree_of_plain hr hplain t⟩

/-- What need not be a word is left nowhere. -/
lemma not_occursIn_of_plain {r : Replacement} (hr : r ∈ safe) (hplain : r.wholeWord = false)
    (t : Text) : Text.occursIn r.target (applyAll safe t).1 = false := by
  have hfree := safe_compatible.1.isFree_of_plain hr hplain t
  rw [← Bool.not_eq_true, Text.occursIn_iff]
  rintro ⟨x, y, e⟩
  rw [e] at hfree
  have hne := (safe_compatible.1.proper r hr).target_ne
  cases (not_isFree_of_plain hplain hne none x y).symm.trans hfree

/-! ### Lines -/

/-- What a completion writes holds nothing that is replaced, and its lines are made with
separators. -/
lemma safe_written :
    ['\n', '\r', ' ', '\t'].all (fun c => decide (IsSeparator safe c)) = true ∧
      (∀ line ∈ defaultLines, isFree safe none line = true) ∧
      ∀ group ∈ SettingGroup.all, isFree safe none (group.key ++ [':']) = true ∧
        ∀ setting ∈ group.defaults,
          isFree safe none (setting.1 ++ [':', ' '] ++ setting.2) = true := by
  unfold safe remoteTemplate defaultLines
  repeat rw [String.toList_ofList]
  decide +kernel

section Lines
variable {rules : List Replacement} (hsub : rules ⊆ safe)
include hsub

/-- The characters that indent and end lines are separators. -/
lemma safe_separator : ∀ c ∈ ['\n', '\r', ' ', '\t'], IsSeparator rules c := by
  intro c hc
  obtain ⟨hword, hrules⟩ := of_decide_eq_true (List.all_eq_true.1 safe_written.1 c hc)
  exact ⟨hword, fun r hr => hrules r (hsub hr)⟩

/-- A text with such a character in it is free exactly if both sides are. -/
lemma isFree_blank {c : Char} (hc : c ∈ ['\n', '\r', ' ', '\t']) (b : Option Char) (x y : Text) :
    isFree rules b (x ++ c :: y) = (isFree rules b x && isFree rules none y) :=
  isFree_separator (fun r hr => safe_compatible.1.proper r (hsub hr)) (safe_separator hsub c hc)
    b x y

/-- A text is free exactly if the parts before and after the end of a line are. -/
lemma isFree_lineEnd {lineEnd : Text} (h : IsLineEnd lineEnd) (b : Option Char) (x y : Text) :
    isFree rules b (x ++ lineEnd ++ y) = (isFree rules b x && isFree rules none y) := by
  have hn := isFree_blank hsub (c := '\n') (by simp)
  have hr := isFree_blank hsub (c := '\r') (by simp)
  rw [List.append_assoc]
  rcases h with rfl | rfl
  · exact hn b x y
  · rw [List.cons_append, hr, List.cons_append, List.nil_append]
    congr 1
    exact hn none [] y

/-- An end of a line after a text does not matter. -/
lemma isFree_append_lineEnd {lineEnd : Text} (h : IsLineEnd lineEnd) (t : Text) :
    isFree rules none (t ++ lineEnd) = isFree rules none t := by
  have h := isFree_lineEnd hsub h none t []
  rw [List.append_nil] at h
  rw [h]
  exact Bool.and_true _

/-- Blanks before a text do not matter. -/
lemma isFree_indent {indent : Text} (h : ∀ c ∈ indent, c = ' ' ∨ c = '\t') (y : Text) :
    isFree rules none (indent ++ y) = isFree rules none y := by
  induction indent with
  | nil => rfl
  | cons c indent ih =>
    obtain ⟨hc, h⟩ := List.forall_mem_cons.1 h
    rw [← ih h]
    exact isFree_blank hsub (by rcases hc with rfl | rfl <;> simp) none [] (indent ++ y)

/-- Parts that are free are free with ends of lines between them. -/
lemma isFree_join {lineEnd : Text} (h : IsLineEnd lineEnd) {parts : List Text}
    (hall : ∀ part ∈ parts, isFree rules none part = true) :
    isFree rules none (Text.join lineEnd parts) = true := by
  fun_induction Text.join lineEnd parts with
  | case1 => rfl
  | case2 part => exact hall part (List.mem_singleton_self part)
  | case3 part rest _ ih =>
    obtain ⟨hpart, hrest⟩ := List.forall_mem_cons.1 hall
    rw [isFree_lineEnd hsub h, hpart, ih hrest]
    rfl

end Lines

end SiteAudit.Replacement

namespace SiteAudit.Namespace
open Replacement

variable {rules : List Replacement} (hsub : rules ⊆ safe)
include hsub

/-- The default namespace holds nothing that is replaced. -/
lemma isFree_defaultBlock {lineEnd : Text} (h : IsLineEnd lineEnd) :
    isFree rules none (defaultBlock lineEnd) = true := by
  have hall := safe_written.2.1
  unfold defaultBlock
  -- only that every line is free matters
  generalize defaultLines = lines at hall
  induction lines with
  | nil => rfl
  | cons line lines ih =>
    obtain ⟨hline, hlines⟩ := List.forall_mem_cons.1 hall
    rw [List.flatMap_cons, isFree_lineEnd hsub h, isFree_mono hsub hline, ih hlines]
    rfl

/-- The settings of a group hold nothing that is replaced. -/
lemma isFree_block {indent lineEnd : Text} (hi : ∀ c ∈ indent, c = ' ' ∨ c = '\t')
    (h : IsLineEnd lineEnd) (group : SettingGroup) :
    isFree rules none (group.block indent lineEnd) = true := by
  have hgroup : group ∈ SettingGroup.all := by cases group <;> simp [SettingGroup.all]
  obtain ⟨hkey, hdefaults⟩ := safe_written.2.2 group hgroup
  refine isFree_join hsub h (List.forall_mem_cons.2 ⟨?_, fun line hline => ?_⟩)
  · rw [List.append_assoc, isFree_indent hsub hi, isFree_mono hsub hkey]
  · obtain ⟨setting, hs, rfl⟩ := List.mem_map.1 hline
    have hsetting := isFree_mono hsub (hdefaults setting hs)
    simp only [List.append_assoc] at hsetting ⊢
    rw [isFree_indent hsub hi, isFree_indent hsub hi, hsetting]

/-- A text is free exactly if the parts before and after the place where a line ends are. -/
lemma isFree_append_of_endsLine {y : Text} (h : EndsLine y) (b : Option Char) (x : Text) :
    isFree rules b (x ++ y) = (isFree rules b x && isFree rules none y) := by
  rcases h.head with rfl | ⟨c, rest, rfl, hc⟩
  · rw [List.append_nil]
    exact (Bool.and_true _).symm
  · have hblank : c ∈ ['\n', '\r', ' ', '\t'] := by rcases hc with rfl | rfl <;> simp
    rw [isFree_blank hsub hblank]
    -- nothing stands before the character itself
    congr 1
    exact (isFree_blank hsub hblank none [] rest).symm

/-- Groups before the place where a line ends do not matter. -/
lemma isFree_insertion {indent lineEnd after : Text} (hi : IsIndent indent) (h : IsLineEnd lineEnd)
    (hafter : EndsLine after) (groups : List SettingGroup) :
    isFree rules none (insertion indent lineEnd groups ++ after) = isFree rules none after := by
  induction groups with
  | nil => rfl
  | cons group groups ih =>
    have hrest := endsLine_insertion h hafter indent groups
    have hend := isFree_lineEnd hsub h none []
      (group.block indent lineEnd ++ (insertion indent lineEnd groups ++ after))
    rw [insertion_cons, List.append_assoc, List.append_assoc]
    refine hend.trans ?_
    rw [isFree_append_of_endsLine hsub hrest, isFree_block hsub hi.2 h, ih]
    rfl

/-- Inserted groups neither bring nor take away anything that is replaced. -/
lemma isFree_insert (content : Text) (groups : List SettingGroup) :
    isFree rules none (insert content groups) = isFree rules none content := by
  rcases findHeader?_cases content with hnone | ⟨before, header, after, hfirst⟩
  · rw [insert_of_findHeader?_eq_none hnone]
  · have hle := isLineEnd_lineEndOf content
    have hi := isIndent_childIndent (header ++ after)
    rw [insert_eq hfirst, List.append_assoc,
      isFree_append_of_endsLine hsub (endsLine_insertion hle hfirst.stop _ groups),
      isFree_insertion hsub hi hle hfirst.stop, ← isFree_append_of_endsLine hsub hfirst.stop,
      List.append_assoc, ← hfirst.whole]

/-- The default namespace after a line neither brings nor takes away anything that is replaced. -/
lemma isFree_append_defaultBlock {lineEnd t : Text} (h : IsLineEnd lineEnd)
    (ht : Text.endsWith t ['\n'] = true) :
    isFree rules none (t ++ defaultBlock lineEnd) = isFree rules none t := by
  obtain ⟨z, rfl⟩ := Text.endsWith_iff.1 ht
  have hn := isFree_blank hsub (c := '\n') (by simp) none z
  rw [List.append_assoc, List.singleton_append, hn, isFree_defaultBlock hsub h, hn []]
  rfl

/-- The appended namespace neither brings nor takes away anything that is replaced. -/
lemma isFree_append (content : Text) (apart : Bool) :
    isFree rules none (append content apart) = isFree rules none content := by
  have hle := isLineEnd_lineEndOf content
  unfold append
  generalize lineEndOf content = lineEnd at hle
  dsimp only
  split
  · rename_i hempty
    rw [List.isEmpty_iff.1 hempty, isFree_defaultBlock hsub hle]
    rfl
  · generalize hc : (if Text.endsWith content ['\n'] = true then content
      else content ++ lineEnd) = ended
    have hended : Text.endsWith ended ['\n'] = true ∧
        isFree rules none ended = isFree rules none content := by
      rw [← hc]
      split
      · rename_i hend
        exact ⟨hend, rfl⟩
      · exact ⟨endsWith_lineEnd hle content, isFree_append_lineEnd hsub hle content⟩
    split
    · rw [isFree_append_defaultBlock hsub hle (endsWith_lineEnd hle ended),
        isFree_append_lineEnd hsub hle, hended.2]
    · rw [isFree_append_defaultBlock hsub hle hended.1, hended.2]

/-- A completion neither brings nor takes away anything that is replaced. -/
lemma isFree_fill {m : Yaml.Memory} {content : Text} {groups : List SettingGroup} {r : Completion}
    (h : fill m content groups = .ok r) :
    isFree rules none r.content = isFree rules none content := by
  rcases fill_content h with hc | ⟨apart, hc⟩ | ⟨missing, hc⟩
  · rw [hc]
  · rw [hc, isFree_append hsub]
  · rw [hc, isFree_insert hsub]

end SiteAudit.Namespace
