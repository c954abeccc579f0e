import SiteAudit.Codemod
import SiteAudit.Proofs.SafeReplacements

/-!
# What a transform leaves to do

A transform of a text that it has made itself changes nothing, unless a class name ran into the
address of the remote template in the text before (`transform_again_iff`). The one pass removes all
addresses of the template, so that no further transform meets this case (`not_runsIntoTemplate`).
-/

namespace SiteAudit.Codemod
open Replacement Namespace

variable {m m' : Yaml.Memory} {configFile file content : Text} {o : Outcome}

/-- Beside the configuration, a transform makes the safe replacements and nothing else. -/
lemma transform_eq (m : Yaml.Memory) (hfile : file ≠ configFile) (content : Text) :
    transform m configFile file content =
      .ok ⟨(Replacement.applyAll safe content).1,
        (Replacement.applyAll safe content).2, false⟩ := by
  unfold transform
  dsimp only
  rw [if_pos hfile]
  rfl

/-- A configuration without anything to replace is completed. -/
lemma transform_config_of_clean {completion : Completion} (hfile : file = configFile)
    (hclean : Replacement.applyAll safe content = (content, []))
    (h : complete m content = .ok completion) :
    transform m configFile file content =
      .ok ⟨completion.content, if completion.content = content then [] else [completionId],
        completion.declined⟩ := by
  unfold transform
  rw [hclean]
  dsimp only
  rw [if_neg (not_not.2 hfile), h]
  rfl

/-- A transform returns the replaced text, completed if it is the configuration. -/
lemma transform_content (h : transform m configFile file content = .ok o) :
    (file ≠ configFile ∧ o.content = (Replacement.applyAll safe content).1) ∨
      file = configFile ∧ ∃ completion,
        complete m (Replacement.applyAll safe content).1 = .ok completion ∧
          o.content = completion.content := by
  unfold transform at h
  dsimp only at h
  split at h
  · rename_i hfile
    cases h
    exact .inl ⟨hfile, rfl⟩
  · rename_i hfile
    obtain ⟨completion, hc, h⟩ := bind_eq_ok.1 h
    cases h
    exact .inr ⟨not_not.1 hfile, completion, hc, rfl⟩

/-- A transform leaves what the replacements leave to be replaced. -/
lemma isFree_transform_eq {rules : List Replacement} (hsub : rules ⊆ safe)
    (h : transform m configFile file content = .ok o) :
    isFree rules none o.content = isFree rules none (Replacement.applyAll safe content).1 := by
  rcases transform_content h with ⟨_, ho⟩ | ⟨_, completion, hc, ho⟩
  · rw [ho]
  · rw [ho]
    exact isFree_fill hsub hc

/-- A transform leaves nothing to be replaced, unless a class name ran into the address of the
remote template. -/
lemma isFree_transform (h : transform m configFile file content = .ok o) :
    isFree safe none o.content = true ↔ ¬ RunsIntoTemplate content := by
  rw [isFree_transform_eq (List.Subset.refl safe) h]
  exact isFree_applyAll_safe content

/-- After a transform no class name runs into the address of the remote template. -/
lemma not_runsIntoTemplate (h : transform m configFile file content = .ok o) :
    ¬ RunsIntoTemplate o.content := by
  rintro ⟨u, _, _, x, y, e, _⟩
  obtain ⟨r, hr, ht, hplain, hleft⟩ := isFree_remoteTemplate content
  have hsub : [r] ⊆ safe := List.cons_subset.2 ⟨hr, List.nil_subset safe⟩
  have hne := (safe_compatible.1.proper r hr).target_ne
  have hnot := not_isFree_of_plain hplain hne none (x ++ u.target) y
  rw [← isFree_transform_eq hsub h, e, List.append_assoc, ← ht] at hleft
  cases hnot.symm.trans hleft

/-- The two memories leave in one order what a transform reads of a text. -/
def SameOrder (m m' : Yaml.Memory) (configFile file content : Text) : Prop :=
  file = configFile →
    Namespace.SameOrder m m' SettingGroup.all (Replacement.applyAll safe content).1

/-- One memory leaves it as it does. -/
lemma SameOrder.refl (m : Yaml.Memory) (configFile file content : Text) :
    SameOrder m m configFile file content := fun _ => Namespace.SameOrder.refl _ _ _

/-- Memory has no other part in a transform. -/
lemma transform_congr (h : SameOrder m m' configFile file content) :
    transform m configFile file content = transform m' configFile file content := by
  unfold transform
  dsimp only
  by_cases hfile : file = configFile
  · rw [complete, complete, fill_congr (h hfile)]
  · rw [if_pos hfile, if_pos hfile]

/-- A transform that has left nothing to be replaced changes nothing the second time. -/
lemma transform_of_isFree (h : transform m configFile file content = .ok o)
    (hsame : SameOrder m m' configFile file content) (hfree : isFree safe none o.content = true) :
    ∃ again, transform m' configFile file o.content = .ok again ∧ again.content = o.content ∧
      again.fired = [] := by
  have hdone := applyAll_of_isFree hfree
  unfold transform
  rw [hdone]
  dsimp only
  rcases transform_content h with ⟨hfile, _⟩ | ⟨hfile, completion, hc, ho⟩
  · rw [if_pos hfile]
    exact ⟨_, rfl, rfl, rfl⟩
  · -- the configuration has been completed, and stays complete
    rw [if_neg (not_not.2 hfile), ho]
    exact ⟨_, bind_eq_ok.2 ⟨_, fill_again hc (hsame hfile), rfl⟩, rfl, if_pos rfl⟩

/-- A transform of its own result leaves the text as it is only if nothing was to be replaced. -/
lemma isFree_of_transform {again : Outcome} (h : transform m configFile file content = .ok o)
    (hagain : transform m' configFile file o.content = .ok again)
    (he : again.content = o.content) : isFree safe none o.content = true := by
  rw [← he]
  exact (isFree_transform hagain).2 (not_runsIntoTemplate h)

/-- The second transform changes nothing exactly if no class name ran into the address of the
remote template before the first one. -/
lemma transform_again_iff (h : transform m configFile file content = .ok o)
    (hsame : SameOrder m m' configFile file content) :
    (∃ again, transform m' configFile file o.content = .ok again ∧ again.content = o.content ∧
      again.fired = []) ↔ ¬ RunsIntoTemplate content := by
  rw [← isFree_transform h]
  constructor
  · rintro ⟨again, hagain, he, _⟩
    exact isFree_of_transform h hagain he
  · exact transform_of_isFree h hsame

end SiteAudit.Codemod
