import Mathlib.Tactic.Common
import SiteAudit.Proofs.Completion
import SiteAudit.Proofs.Insertion

/-!
# What a completion adds to the text

A completion keeps every character of the text and adds at most one piece: the default namespace at
its end (`append_eq`), or the groups that are missing after the line of the key (`insert_eq`).
Which of the two is decided by the configuration that the text holds (`fill_inserts`).
-/

namespace SiteAudit.Namespace

/-- The default namespace is appended after at most two ends of lines. -/
lemma append_eq (content : Text) (apart : Bool) :
    ∃ n ≤ 2, append content apart =
      content ++ ((List.replicate n (lineEndOf content)).flatten ++
        defaultBlock (lineEndOf content)) := by
  unfold append
  generalize lineEndOf content = lineEnd
  dsimp only
  split
  · rename_i hempty
    rw [List.isEmpty_iff.1 hempty]
    exact ⟨0, Nat.zero_le 2, rfl⟩
  · -- one to end the last line, and one for the empty line
    obtain ⟨m, hm, hended⟩ : ∃ m ≤ 1, (if Text.endsWith content ['\n'] = true then content
        else content ++ lineEnd) = content ++ (List.replicate m lineEnd).flatten := by
      split
      · exact ⟨0, Nat.zero_le 1, (List.append_nil content).symm⟩
      · exact ⟨1, Nat.le_refl 1, by simp⟩
    rw [hended]
    split
    · refine ⟨m + 1, Nat.succ_le_succ hm, ?_⟩
      simp [List.replicate_succ']
    · exact ⟨m, Nat.le_succ_of_le hm, by rw [List.append_assoc]⟩

/-- All characters of the text survive a completion, in their order. -/
lemma sublist_fill {m : Yaml.Memory} {content : Text} {groups : List SettingGroup} {r : Completion}
    (h : fill m content groups = .ok r) : content.Sublist r.content := by
  rcases fill_content h with hsame | ⟨apart, happend⟩ | ⟨missing, hinsert⟩
  · rw [hsame]
  · obtain ⟨n, -, e⟩ := append_eq content apart
    rw [happend, e]
    exact List.sublist_append_left content _
  · rw [hinsert]
    rcases findHeader?_cases content with hnone | ⟨before, header, after, hfirst⟩
    · rw [insert_of_findHeader?_eq_none hnone]
    · rw [insert_eq hfirst]
      conv_lhs => rw [hfirst.whole, ← List.append_assoc]
      apply List.Sublist.append_right
      exact List.sublist_append_left (before ++ header) _

/-- The default namespace is added at the end, after at most two ends of lines. All its lines end
like those of the text. -/
def IsAppended (content inserted after : Text) : Prop :=
  after = [] ∧ ∃ n ≤ 2, inserted = (List.replicate n (lineEndOf content)).flatten ++
    defaultBlock (lineEndOf content)

/-- The groups are added after the first line that holds the key alone, in their order and with one
indentation. -/
def IsInserted (content : Text) (groups : List SettingGroup)
    (before inserted after : Text) : Prop :=
  ∃ start header indent, before = start ++ header ∧ FirstHeader content start header after ∧
    IsIndent indent ∧ inserted = insertion indent (lineEndOf content) groups

/-- **A completion only inserts.** The text after it is the text before it with at most one piece
added: the default namespace at the end where the configuration has none, and otherwise those of the
groups that the namespace lacks. -/
theorem fill_inserts {m : Yaml.Memory} {content : Text} {groups : List SettingGroup}
    {r : Completion} (h : fill m content groups = .ok r) :
    ∃ before inserted after, content = before ++ after ∧ r.content = before ++ inserted ++ after ∧
      (inserted = [] ∨ ∃ tree, Config.parse content = .ok tree ∧
        (((tree.get? tree.root key).isNone = true ∧ IsAppended content inserted after) ∨
          (tree.get? tree.root key).isSome = true ∧
            IsInserted content (missing tree groups) before inserted after)) := by
  rcases fill_inv h with hsame | ⟨_, tree, old, hparse, hold, hc, _, _⟩
  · exact ⟨content, [], [], by simp, by simp [hsame], .inl rfl⟩
  have hkey : tree.get? tree.root key = old.get? key := by
    rw [Yaml.Document.get?, hold, Option.bind_some]
  have htried := (candidate?_eq_some (by simpa using hold) hc).2
  rw [missing_arranged] at htried
  rcases htried with ⟨hnone, apart, happend⟩ | ⟨hsome, hinsert⟩
  · obtain ⟨n, hn, e⟩ := append_eq content apart
    refine ⟨content, _, [], by simp, by rw [happend, e, List.append_nil],
      .inr ⟨tree, hparse, .inl ⟨?_, rfl, n, hn, rfl⟩⟩⟩
    rw [hkey, hnone]
    rfl
  · rcases findHeader?_cases content with hnone | ⟨start, header, after, hfirst⟩
    · rw [insert_of_findHeader?_eq_none hnone] at hinsert
      exact ⟨content, [], [], by simp, by simp [hinsert], .inl rfl⟩
    · exact ⟨start ++ header, _, after, by rw [List.append_assoc, ← hfirst.whole],
        hinsert.trans (insert_eq hfirst _), .inr ⟨tree, hparse, .inr ⟨by rw [hkey, hsome], start,
          header, _, rfl, hfirst, isIndent_childIndent _, rfl⟩⟩⟩

/-- The missing group is inserted, and nothing is appended. -/
theorem fill_inserts_lacking :
    fill .inOrder lacking SettingGroup.all = .ok ⟨insert lacking [.tailwind], false⟩ ∧
      ∃ tree before inserted after, Config.parse lacking = .ok tree ∧
        lacking = before ++ after ∧ insert lacking [.tailwind] = before ++ inserted ++ after ∧
        inserted ≠ [] ∧
        IsInserted lacking (missing tree SettingGroup.all) before inserted after := by
  obtain ⟨h, hne⟩ := fill_lacking
  have hstart : Text.startsWith (insert lacking [.tailwind]) lacking = false := by decide
  obtain ⟨before, inserted, after, hcontent, hresult, hcases⟩ := fill_inserts h
  have hinserted : inserted ≠ [] := fun e => by
    rw [e, List.append_nil, ← hcontent] at hresult
    exact hne hresult
  obtain ⟨tree, hparse, hcases⟩ := hcases.resolve_left hinserted
  rcases hcases with ⟨-, rfl, -⟩ | ⟨-, hcases⟩
  · -- with something appended the text would begin as it was
    rw [List.append_nil] at hcontent
    rw [List.append_nil, ← hcontent] at hresult
    rw [← Bool.not_eq_true, Text.startsWith_iff] at hstart
    exact absurd ⟨inserted, hresult⟩ hstart
  · exact ⟨h, tree, before, inserted, after, hparse, hcontent, hresult, hinserted, hcases⟩

end SiteAudit.Namespace
