import Mathlib.Data.List.Basic
import SiteAudit.Proofs.Completion
import SiteAudit.Proofs.Yaml.Outline

/-!
# Completions one after the other

Once groups have been filled in they stay, whatever completions follow (`isFilled_fillInTurn`), so
that none of them is ever filled in again. A completion of its own result has the same outcome,
unless it was taken back in one memory and is not in the other (`fill_settles`): where a set has a
number that is known by its address, a text can be left as it is and completed the next time
(`fill_settles_unsteady`).
-/

namespace SiteAudit.Namespace

variable {m m' : Yaml.Memory} {content t : Text} {groups again : List SettingGroup} {r : Completion}

/-- The text after completions in turn, each in its own memory and with its own groups. -/
def fillInTurn (content : Text) :
    List (Yaml.Memory × List SettingGroup) → Except CompletionError Text
  | [] => return content
  | (m, groups) :: later => do fillInTurn (← fill m content groups).content later

/-- Groups that are there stay there in any completion. -/
lemma isFilled_fill (hfilled : isFilled content groups = .ok true)
    (h : fill m content again = .ok r) : isFilled r.content groups = .ok true := by
  rcases fill_inv h with hsame | ⟨_, before, old, hb, hold, _, _, hk⟩
  · rwa [hsame]
  · obtain ⟨tree, settings, ht, hs, hall⟩ := isFilled_eq_true.1 hfilled
    obtain rfl : before = tree := Except.ok.inj (hb.symm.trans ht)
    obtain ⟨after, new, ha, hnew, _, hkept⟩ := isPreserved_eq_true hk
    have hsettings : (old.get? key).bind before.entries? = some settings := by
      simpa [Yaml.Document.get?, hold] using hs
    obtain ⟨settings', hsettings', hkept⟩ := hkept settings (by simpa using hsettings)
    refine isFilled_eq_true.2
      ⟨after, settings', ha, by simpa [Yaml.Document.get?, hnew] using hsettings', ?_⟩
    -- the entry of a group is one of those that are kept
    intro group hgroup
    obtain ⟨value, hvalue⟩ := Option.isSome_iff_exists.1 (hall group hgroup)
    obtain ⟨entry, hentry, hname, _, _⟩ := Yaml.Outline.get?_eq_some hvalue
    obtain ⟨_, found, _, hfound, _, _⟩ := hkept entry hentry
    rw [hname] at hfound
    rw [Yaml.Entries.get?, hfound]
    rfl

/-- Groups that are there stay there however many completions follow. -/
lemma isFilled_fillInTurn (later : List (Yaml.Memory × List SettingGroup))
    (hfilled : isFilled content groups = .ok true) (h : fillInTurn content later = .ok t) :
    isFilled t groups = .ok true := by
  induction later generalizing content with
  | nil =>
    cases h
    exact hfilled
  | cons more later ih =>
    obtain ⟨r, hr, h⟩ := bind_eq_ok.1 h
    exact ih (isFilled_fill hfilled hr) h

/-- Some of the groups are there if all are. -/
lemma isFilled_of_subset (hsub : again ⊆ groups) (hfilled : isFilled content groups = .ok true) :
    isFilled content again = .ok true := by
  obtain ⟨tree, settings, ht, hs, hall⟩ := isFilled_eq_true.1 hfilled
  exact isFilled_eq_true.2 ⟨tree, settings, ht, hs, fun group hgroup => hall group (hsub hgroup)⟩

/-- **Nothing is filled in twice.** A completion of what a completion returned has the same outcome,
in another memory as well unless the first one was taken back, and then too if both memories leave
what is read in one order. After a completion that changed the text, and whatever completions
followed, a completion of any of its groups finds nothing to do. -/
theorem fill_settles (h : fill m content groups = .ok r) :
    (r.declined = false → ∀ m', fill m' r.content groups = .ok r) ∧
    (r.declined = true → r.content = content) ∧
    (∀ m', SameOrder m m' groups content → fill m' r.content groups = .ok r) ∧
    (r.content ≠ content → ∀ later t, fillInTurn r.content later = .ok t →
      ∀ m' again, again ⊆ groups → fill m' t again = .ok ⟨t, false⟩) := by
  refine ⟨fill_of_not_declined h, content_of_declined h, fun m' hsame => fill_again h hsame,
    fun hne later t hturn m' again hsub => ?_⟩
  rcases fill_inv h with hsame | ⟨_, _, _, _, _, _, hfilled, _⟩
  · exact absurd hsame hne
  · exact fill_of_filled (isFilled_of_subset hsub (isFilled_fillInTurn later hfilled hturn))

/-- In the one memory the completion is taken back, and in the other one it is made. It is not made
again after that. -/
theorem fill_settles_unsteady :
    fill turning unsteady SettingGroup.all = .ok ⟨unsteady, true⟩ ∧
      fill .inOrder unsteady SettingGroup.all = .ok ⟨append unsteady true, false⟩ ∧
      append unsteady true ≠ unsteady ∧ ¬ SameOrder turning .inOrder SettingGroup.all unsteady ∧
      ∀ m, fill m (append unsteady true) SettingGroup.all = .ok ⟨append unsteady true, false⟩ := by
  refine ⟨fill_unsteady_turning, fill_unsteady_inOrder, append_unsteady_ne, fun hsame => ?_,
    (fill_settles fill_unsteady_inOrder).1 rfl⟩
  have hagain := (fill_settles fill_unsteady_turning).2.2.1 .inOrder hsame
  cases hagain.symm.trans fill_unsteady_inOrder

end SiteAudit.Namespace
