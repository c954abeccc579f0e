import Mathlib.Data.List.TakeWhile
import Mathlib.Tactic.Common
import SiteAudit.Namespace
import SiteAudit.Proofs.Header

/-!
# Where a completion puts its lines

Groups are inserted at the end of the line that the first header stands in, each after an end of a
line (`insert_eq`); where there is no header nothing is inserted (`insert_of_findHeader?_eq_none`).
-/

namespace SiteAudit.Namespace

/-- Is this an end of a line, of one or of two characters? -/
def IsLineEnd (t : Text) : Prop := t = ['\n'] ∨ t = ['\r', '\n']

/-- The line end of a text is one of the two. -/
lemma isLineEnd_lineEndOf (content : Text) : IsLineEnd (lineEndOf content) := by
  unfold lineEndOf
  split
  · exact .inr rfl
  · exact .inl rfl

/-- The end of a line ends with a line feed. -/
lemma endsWith_lineEnd {lineEnd : Text} (h : IsLineEnd lineEnd) (t : Text) :
    Text.endsWith (t ++ lineEnd) ['\n'] = true := by
  rcases h with rfl | rfl
  · exact Text.endsWith_iff.2 ⟨t, rfl⟩
  · exact Text.endsWith_iff.2 ⟨t ++ ['\r'], by simp⟩

/-- The end of a line ends a line. -/
lemma IsLineEnd.endsLine {lineEnd : Text} (h : IsLineEnd lineEnd) (t : Text) :
    EndsLine (lineEnd ++ t) := by
  rcases h with rfl | rfl
  · exact .inr (.inr (.inl ⟨t, rfl⟩))
  · exact .inr (.inr (.inr ⟨t, rfl⟩))

/-- Some blanks. -/
def IsIndent (t : Text) : Prop := t ≠ [] ∧ ∀ c ∈ t, c = ' ' ∨ c = '\t'

/-- The lines below the key are indented by blanks. -/
lemma isIndent_childIndent (t : Text) : IsIndent (childIndent t) := by
  have hspaces : IsIndent [' ', ' '] := ⟨List.cons_ne_nil _ _, by simp⟩
  unfold childIndent
  dsimp only
  split
  · split
    · exact hspaces
    · rename_i hindent
      exact ⟨fun e => hindent (List.isEmpty_iff.2 e),
        fun c hc => by simpa using List.mem_takeWhile_imp hc⟩
  · exact hspaces

/-! ### What is inserted -/

/-- The lines of a group. -/
def linesOf (group : SettingGroup) (indent : Text) : List Text :=
  (indent ++ group.key ++ [':'])
    :: group.defaults.map fun (name, value) => indent ++ indent ++ name ++ [':', ' '] ++ value

/-- A group is written in lines. -/
lemma block_eq_join (group : SettingGroup) (indent lineEnd : Text) :
    group.block indent lineEnd = Text.join lineEnd (linesOf group indent) := rfl

/-- There is no end of a line in a line of a group. -/
lemma not_mem_linesOf {indent line : Text} (hindent : IsIndent indent) {group : SettingGroup}
    (hline : line ∈ linesOf group indent) : '\n' ∉ line ∧ '\r' ∉ line := by
  have hblank : '\n' ∉ indent ∧ '\r' ∉ indent :=
    ⟨fun hc => by simpa using hindent.2 _ hc, fun hc => by simpa using hindent.2 _ hc⟩
  have hdefaults : ('\n' ∉ group.key ∧ '\r' ∉ group.key) ∧ ∀ setting ∈ group.defaults,
      ('\n' ∉ setting.1 ∧ '\r' ∉ setting.1) ∧ '\n' ∉ setting.2 ∧ '\r' ∉ setting.2 := by
    cases group <;> decide
  rcases List.mem_cons.1 hline with rfl | hline
  · simp [hblank, hdefaults.1]
  · obtain ⟨setting, hsetting, rfl⟩ := List.mem_map.1 hline
    simp [hblank, hdefaults.2 setting hsetting]

/-- The lines of the groups, each group after the end of the line before it. -/
def insertion (indent lineEnd : Text) (groups : List SettingGroup) : Text :=
  groups.flatMap fun group => lineEnd ++ group.block indent lineEnd

/-- Each group is inserted after the end of a line. -/
lemma insertion_cons (indent lineEnd : Text) (group : SettingGroup) (groups : List SettingGroup) :
    insertion indent lineEnd (group :: groups) =
      lineEnd ++ (group.block indent lineEnd ++ insertion indent lineEnd groups) := by
  unfold insertion
  rw [List.flatMap_cons, List.append_assoc]

/-- The groups that are inserted are joined by ends of lines. -/
lemma insertion_eq_join (indent lineEnd : Text) (group : SettingGroup)
    (groups : List SettingGroup) : insertion indent lineEnd (group :: groups) =
      lineEnd ++ Text.join lineEnd ((group :: groups).map (·.block indent lineEnd)) := by
  induction groups generalizing group with
  | nil => simp [insertion, Text.join]
  | cons next groups ih =>
    rw [insertion_cons, ih next]
    simp [Text.join]

/-- After the insertion of groups a line ends where one ended before. -/
lemma endsLine_insertion {lineEnd after : Text} (h : IsLineEnd lineEnd) (hafter : EndsLine after)
    (indent : Text) (groups : List SettingGroup) :
    EndsLine (insertion indent lineEnd groups ++ after) := by
  cases groups with
  | nil => exact hafter
  | cons group groups =>
    rw [insertion_cons, List.append_assoc]
    exact h.endsLine _

/-- Nothing is inserted where no line holds the key alone. -/
lemma insert_of_findHeader?_eq_none {content : Text} (h : findHeader? 0 true content = none)
    (groups : List SettingGroup) : insert content groups = content := by
  unfold insert
  rw [h]

/-- Groups are inserted after the first header. -/
lemma insert_eq {content before header after : Text} (h : FirstHeader content before header after)
    (groups : List SettingGroup) :
    insert content groups = before ++ header ++
      insertion (childIndent (header ++ after)) (lineEndOf content) groups ++ after := by
  have hbelow : content.drop before.length = header ++ after := by
    rw [h.whole, List.drop_left]
  unfold insert
  rw [findHeader?_eq_some_iff.2 ⟨before, header, after, h, rfl, rfl⟩]
  dsimp only
  cases groups with
  | nil => simpa [insertion] using h.whole
  | cons group groups =>
    rw [insertion_eq_join, h.take, h.drop, hbelow]
    simp

end SiteAudit.Namespace
