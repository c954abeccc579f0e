import Mathlib.Data.List.Basic
import SiteAudit.Namespace
import SiteAudit.Proofs.Run
import SiteAudit.Proofs.Yaml.Memory

/-!
# What a completion keeps

A completion is taken back unless the result reads as the same configuration with the groups filled
in. `Completes` says what that means for the two configurations, each as a reading left it in
memory, and `fill_completes` that nothing else is ever returned but the text itself. What a
completion has filled in stays, whatever memory it is read with (`fill_of_filled`), and a completion
only inserts or appends whole lines (`fill_content`).
-/

namespace SiteAudit

namespace Namespace

variable {m : Yaml.Memory} {reading : Nat}

/-! ### What must be kept -/

/-- Beside the namespace the two configurations are written in the same way. -/
def SameOthers (before after : Config.Tree) (old new : Yaml.Entries) : Prop :=
  ∃ signs, before.outlineEntries (others old) = .ok signs ∧
    after.outlineEntries (others new) = .ok signs

/-- The namespace is missing, empty or a mapping. -/
def HasRoom (before : Config.Tree) (old : Yaml.Entries) : Prop :=
  ∀ value, old.get? key = some value →
    Yaml.Document.isNull value = true ∨ before.isMapping value = true

/-- The entry is still there, with a value that is written in the same way. -/
def IsKept (before after : Config.Tree) (settings : Yaml.Entries)
    (entry : Yaml.Leaf × Yaml.Value) : Prop :=
  (∀ node, entry.1.atom ≠ .nan (some node)) ∧
    ∃ found signs, Yaml.Entries.find? settings entry.1.atom = some found ∧
      before.outline entry.2 = .ok signs ∧ after.outline found.2 = .ok signs

/-- Every entry of the namespace is still there. -/
def KeepsSettings (before after : Config.Tree) (old settings : Yaml.Entries) : Prop :=
  ∀ value entries, old.get? key = some value → before.entries? value = some entries →
    ∀ entry ∈ entries, IsKept before after settings entry

/-- The one configuration is the other one with the groups filled in. -/
def Completes (groups : List SettingGroup) (before after : Config.Tree) : Prop :=
  ∃ old new settings,
    before.entries? before.root = some old ∧
    after.entries? after.root = some new ∧
    (new.get? key).bind after.entries? = some settings ∧
    SameOthers before after old new ∧
    HasRoom before old ∧
    (∀ group ∈ groups, (settings.get? group.key).isSome = true) ∧
    KeepsSettings before after old settings

/-! ### What the checks find out -/

/-- A text is read as a configuration exactly if it is one. -/
lemma parse?_eq_some {content : Text} {tree : Config.Tree} :
    parse? content = .ok (some tree) ↔ Config.parse content = .ok tree := by
  unfold parse?
  split
  · rename_i h
    simp [h]
  · rename_i h
    simp [h]
  · rename_i h
    simp [h]

/-- A reading leaves the configuration of the text in memory. -/
lemma read?_eq_some {content : Text} {tree : Config.Tree} :
    read? m reading content = .ok (some tree) ↔
      ∃ parsed, Config.parse content = .ok parsed ∧ parsed.arranged m reading = tree := by
  unfold read?
  constructor
  · intro h
    obtain ⟨parsed, hp, h⟩ := bind_eq_ok.1 h
    obtain ⟨tree', rfl, rfl⟩ := Option.map_eq_some_iff.1 (Except.ok.inj h)
    exact ⟨tree', parse?_eq_some.1 hp, rfl⟩
  · rintro ⟨parsed, hp, rfl⟩
    exact bind_eq_ok.2 ⟨some parsed, parse?_eq_some.2 hp, rfl⟩

/-- A reading leaves nothing of a text that is wrong. -/
lemma read?_eq_none {content : Text} :
    read? m reading content = .ok none ↔ parse? content = .ok none := by
  unfold read?
  constructor
  · intro h
    obtain ⟨parsed, hp, h⟩ := bind_eq_ok.1 h
    rw [hp, Option.map_eq_none_iff.1 (Except.ok.inj h)]
  · intro h
    exact bind_eq_ok.2 ⟨none, h, rfl⟩

/-- An outline is there exactly if it can be written. -/
lemma outlined_eq_ok {o : Except NumeralError (List Yaml.Sign)} {signs : List Yaml.Sign} :
    outlined o = .ok signs ↔ o = .ok signs := by
  cases o <;> simp [outlined]

/-- A text that passes as filled has a namespace with all the groups. -/
lemma isFilled_eq_true {content : Text} {groups : List SettingGroup} :
    isFilled content groups = .ok true ↔
      ∃ tree settings, Config.parse content = .ok tree ∧
        (tree.get? tree.root key).bind tree.entries? = some settings ∧
        ∀ group ∈ groups, (settings.get? group.key).isSome = true := by
  constructor
  · intro h
    obtain ⟨parsed, hp, h⟩ := bind_eq_ok.1 h
    cases parsed with
    | none => cases h
    | some tree =>
      dsimp only at h
      split at h
      · cases h
      · rename_i settings hs
        refine ⟨tree, settings, parse?_eq_some.1 hp, hs, ?_⟩
        simpa [pure, Except.pure] using h
  · rintro ⟨tree, settings, hp, hs, hall⟩
    refine bind_eq_ok.2 ⟨some tree, parse?_eq_some.2 hp, ?_⟩
    simpa [hs, pure, Except.pure] using hall

/-- An entry passes as kept only if it is. -/
lemma isKept_of_entryKept {before after : Config.Tree} {settings : Yaml.Entries}
    {entry : Yaml.Leaf × Yaml.Value} (h : entryKept before after entry settings = .ok true) :
    IsKept before after settings entry := by
  unfold entryKept at h
  split at h
  · cases h
  · rename_i hatom
    dsimp only at h
    split at h
    · cases h
    · rename_i key value hf
      obtain ⟨signs, h1, h⟩ := bind_eq_ok.1 h
      obtain ⟨signs', h2, h⟩ := bind_eq_ok.1 h
      obtain rfl : signs = signs' := by simpa [pure, Except.pure] using h
      exact ⟨hatom, (key, value), signs, hf, outlined_eq_ok.1 h1, outlined_eq_ok.1 h2⟩

/-- Entries pass as kept only if all of them are. -/
lemma isKept_of_entriesKept {before after : Config.Tree} {settings entries : Yaml.Entries}
    (h : entriesKept before after settings entries = .ok true) :
    ∀ entry ∈ entries, IsKept before after settings entry := by
  induction entries with
  | nil => exact fun _ he => absurd he List.not_mem_nil
  | cons entry rest ih =>
    unfold entriesKept at h
    obtain ⟨kept, hk, h⟩ := bind_eq_ok.1 h
    cases kept with
    | false => cases h
    | true => exact List.forall_mem_cons.2 ⟨isKept_of_entryKept hk, ih h⟩

/-- A text that passes as preserved holds the same settings. -/
lemma isPreserved_eq_true {before : Config.Tree} {old : Yaml.Entries} {content : Text}
    (h : isPreserved m reading before old content = .ok true) :
    ∃ after new, Config.parse content = .ok after ∧ after.entries? after.root = some new ∧
      SameOthers before (after.arranged m reading) old new ∧
      ∀ entries, (old.get? key).bind before.entries? = some entries →
        ∃ settings, (new.get? key).bind after.entries? = some settings ∧
          ∀ entry ∈ entries, IsKept before (after.arranged m reading) settings entry := by
  unfold isPreserved at h
  obtain ⟨parsed, hp, h⟩ := bind_eq_ok.1 h
  cases parsed with
  | none => cases h
  | some tree =>
    obtain ⟨after, hafter, rfl⟩ := read?_eq_some.1 hp
    simp only [Yaml.Document.entries?_arranged, Yaml.Document.root_arranged] at h
    split at h
    · cases h
    · rename_i new hnew
      obtain ⟨signs, h1, h⟩ := bind_eq_ok.1 h
      obtain ⟨signs', h2, h⟩ := bind_eq_ok.1 h
      split at h
      · cases h
      · rename_i hsame
        obtain rfl : signs = signs' := by simpa using hsame
        refine ⟨after, new, hafter, hnew,
          ⟨signs, outlined_eq_ok.1 h1, outlined_eq_ok.1 h2⟩, fun entries he => ?_⟩
        rw [he] at h
        dsimp only at h
        split at h
        · cases h
        · rename_i settings hs
          exact ⟨settings, hs, isKept_of_entriesKept h⟩

/-! ### What a completion returns -/

/-- The groups that the namespace of a configuration lacks. -/
def missing (tree : Config.Tree) (groups : List SettingGroup) : List SettingGroup :=
  groups.filter fun group => (tree.dig tree.root [key, group.key]).isNone

/-- A group that the namespace lacks is one that its settings lack. -/
lemma missing_eq {tree : Config.Tree} {entries : Yaml.Entries} {value : Yaml.Value}
    (hroot : tree.entries? tree.root = some entries) (hkey : entries.get? key = some value)
    (groups : List SettingGroup) : missing tree groups =
      groups.filter fun group => (((tree.entries? value).getD []).get? group.key).isNone := by
  unfold missing
  congr 1
  funext group
  simp only [Yaml.Document.dig, Yaml.Document.get?, hroot, hkey, Option.bind_some,
    Option.bind_fun_some]
  cases tree.entries? value <;> rfl

/-- Memory has no part in which groups are lacking. -/
@[simp] lemma missing_arranged (tree : Config.Tree) (groups : List SettingGroup) :
    missing (tree.arranged m reading) groups = missing tree groups := by
  unfold missing
  simp

/-- What is tried has room for the groups. Where there is no namespace all of it is appended, and
where there is one the missing groups are inserted. -/
lemma candidate?_eq_some {before : Config.Tree} {old : Yaml.Entries} {content updated : Text}
    {groups : List SettingGroup} (hroot : before.entries? before.root = some old)
    (h : candidate? m before old content groups = .ok (some updated)) :
    HasRoom before old ∧
      ((old.get? key = none ∧ ∃ apart, updated = append content apart) ∨
        (old.get? key).isSome = true ∧ updated = insert content (missing before groups)) := by
  unfold candidate? at h
  cases hv : old.get? key with
  | none =>
    rw [hv] at h
    obtain ⟨preserved, _, h⟩ := bind_eq_ok.1 h
    refine ⟨fun _ he => ?_, .inl ⟨rfl, ?_⟩⟩
    · rw [hv] at he
      cases he
    · cases preserved with
      | true =>
        cases h
        exact ⟨true, rfl⟩
      | false =>
        cases h
        exact ⟨false, rfl⟩
  | some value =>
    rw [hv] at h
    dsimp only at h
    split at h
    · cases h
    · rename_i present hroom
      refine ⟨fun value' he => ?_, .inr ⟨rfl, ?_⟩⟩
      · obtain rfl : value = value' := by simpa [hv] using he
        cases hm : before.entries? value with
        | none =>
          left
          rw [← Bool.not_eq_false]
          exact hroom hm
        | some entries =>
          right
          simp [Yaml.Document.isMapping, hm]
      · rw [missing_eq hroot hv]
        split at h
        · cases h
        · cases h
          rfl

/-- Whether there is anything to try does not depend on memory. -/
lemma candidate?_eq_none {tree : Config.Tree} {old : Yaml.Entries} {content : Text}
    {groups : List SettingGroup}
    (h : candidate? m (tree.arranged m 0) old content groups = .ok none)
    (m' : Yaml.Memory) : candidate? m' (tree.arranged m' 0) old content groups = .ok none := by
  unfold candidate? at h ⊢
  split at h
  · obtain ⟨preserved, _, h⟩ := bind_eq_ok.1 h
    cases preserved with
    | true => cases h
    | false => cases h
  · rw [Yaml.Document.entries?_arranged] at h ⊢
    exact h

/-- A completion finds nothing to do, or takes back what it has tried, or returns a text that has
passed all checks. -/
lemma fill_cases {content : Text} {groups : List SettingGroup} {r : Completion}
    (h : fill m content groups = .ok r) :
    (r = ⟨content, false⟩ ∧ ∀ m', fill m' content groups = .ok r) ∨ r = ⟨content, true⟩ ∨
      r.declined = false ∧ ∃ before old, Config.parse content = .ok before ∧
        before.entries? before.root = some old ∧
        candidate? m (before.arranged m 0) old content groups = .ok (some r.content) ∧
        isFilled r.content groups = .ok true ∧
        isPreserved m 2 (before.arranged m 0) old r.content = .ok true := by
  unfold fill at h
  obtain ⟨parsed, hp, h⟩ := bind_eq_ok.1 h
  cases parsed with
  | none =>
    cases h
    exact .inl ⟨rfl, fun m' => bind_eq_ok.2 ⟨none, read?_eq_none.2 (read?_eq_none.1 hp), rfl⟩⟩
  | some tree =>
    obtain ⟨before, hbefore, rfl⟩ := read?_eq_some.1 hp
    have hread (m' : Yaml.Memory) : read? m' 0 content = .ok (some (before.arranged m' 0)) :=
      read?_eq_some.2 ⟨before, hbefore, rfl⟩
    simp only [Yaml.Document.entries?_arranged, Yaml.Document.root_arranged] at h
    split at h
    · rename_i hnone
      cases h
      refine .inl ⟨rfl, fun m' => bind_eq_ok.2 ⟨_, hread m', ?_⟩⟩
      simp only [Yaml.Document.entries?_arranged, Yaml.Document.root_arranged, hnone]
      rfl
    · rename_i old hold
      obtain ⟨candidate, hc, h⟩ := bind_eq_ok.1 h
      cases candidate with
      | none =>
        cases h
        refine .inl ⟨rfl, fun m' => bind_eq_ok.2 ⟨_, hread m', ?_⟩⟩
        simp only [Yaml.Document.entries?_arranged, Yaml.Document.root_arranged, hold]
        exact bind_eq_ok.2 ⟨none, candidate?_eq_none hc m', rfl⟩
      | some updated =>
        obtain ⟨filled, hf, h⟩ := bind_eq_ok.1 h
        cases filled with
        | false =>
          cases h
          exact .inr (.inl rfl)
        | true =>
          obtain ⟨preserved, hk, h⟩ := bind_eq_ok.1 h
          cases preserved with
          | false =>
            cases h
            exact .inr (.inl rfl)
          | true =>
            cases h
            exact .inr (.inr ⟨rfl, before, old, hbefore, hold, hc, hf, hk⟩)

/-- A completion returns the text itself, or one that has passed all checks. -/
lemma fill_inv {content : Text} {groups : List SettingGroup} {r : Completion}
    (h : fill m content groups = .ok r) :
    r.content = content ∨
      r.declined = false ∧ ∃ before old, Config.parse content = .ok before ∧
        before.entries? before.root = some old ∧
        candidate? m (before.arranged m 0) old content groups = .ok (some r.content) ∧
        isFilled r.content groups = .ok true ∧
        isPreserved m 2 (before.arranged m 0) old r.content = .ok true := by
  rcases fill_cases h with ⟨rfl, _⟩ | rfl | h
  · exact .inl rfl
  · exact .inl rfl
  · exact .inr h

/-- A completion leaves a text as it is, or appends the namespace, or inserts groups into it. -/
lemma fill_content {content : Text} {groups : List SettingGroup} {r : Completion}
    (h : fill m content groups = .ok r) :
    r.content = content ∨ (∃ apart, r.content = append content apart) ∨
      ∃ missing, r.content = insert content missing := by
  rcases fill_inv h with hsame | ⟨_, before, _, _, hold, hc, _, _⟩
  · exact .inl hsame
  · rcases (candidate?_eq_some (by simpa using hold) hc).2 with ⟨-, happend⟩ | ⟨-, hinsert⟩
    · exact .inr (.inl happend)
    · exact .inr (.inr ⟨_, hinsert⟩)

/-- A text that passes both checks holds the same configuration with the groups filled in. -/
lemma completes_of_checks {before : Config.Tree} {old : Yaml.Entries} {t : Text}
    {groups : List SettingGroup} (hold : before.entries? before.root = some old)
    (hroom : HasRoom before old) (hf : isFilled t groups = .ok true)
    (hk : isPreserved m reading before old t = .ok true) :
    ∃ after, Config.parse t = .ok after ∧ Completes groups before (after.arranged m reading) := by
  obtain ⟨after, new, ha, hnew, hothers, hkept⟩ := isPreserved_eq_true hk
  obtain ⟨tree, settings, ht, hs, hall⟩ := isFilled_eq_true.1 hf
  obtain rfl : after = tree := by simpa using ha.symm.trans ht
  have hset : (new.get? key).bind after.entries? = some settings := by
    simpa [Yaml.Document.get?, hnew] using hs
  refine ⟨after, ha, old, new, settings, hold, by simpa using hnew, by simpa using hset, hothers,
    hroom, hall, fun value entries hv he => ?_⟩
  -- both checks have read the same text, and so the same settings
  obtain ⟨settings', hset', hall'⟩ := hkept entries (by rw [hv]; exact he)
  obtain rfl : settings = settings' := by simpa using hset.symm.trans hset'
  exact hall'

/-- A completion returns the text itself, or a text that holds the same configuration with the
groups filled in. Both configurations are written out as they lie in memory. -/
theorem fill_completes {content : Text} {groups : List SettingGroup} {r : Completion}
    (h : fill m content groups = .ok r) :
    r.content = content ∨
      ∃ before after, Config.parse content = .ok before ∧ Config.parse r.content = .ok after ∧
        Completes groups (before.arranged m 0) (after.arranged m 2) := by
  rcases fill_inv h with hsame | ⟨_, before, old, hb, hold, hc, hf, hk⟩
  · exact .inl hsame
  · have hold' : (before.arranged m 0).entries? (before.arranged m 0).root = some old := by
      simpa using hold
    obtain ⟨after, ha, hcompletes⟩ :=
      completes_of_checks hold' (candidate?_eq_some hold' hc).1 hf hk
    exact .inr ⟨before, after, hb, ha, hcompletes⟩

/-- A configuration in which one of the groups is missing. -/
def lacking : Text := "al_folio:\n  distill: 1\n"

/-- The missing group is filled in. -/
lemma fill_lacking :
    fill .inOrder lacking SettingGroup.all = .ok ⟨insert lacking [.tailwind], false⟩ ∧
      insert lacking [.tailwind] ≠ lacking := by decide +kernel

/-- The missing group is filled in, and the group that was there is kept. -/
theorem fill_completes_lacking :
    fill .inOrder lacking SettingGroup.all = .ok ⟨insert lacking [.tailwind], false⟩ ∧
      ∃ before after, Config.parse lacking = .ok before ∧
        Config.parse (insert lacking [.tailwind]) = .ok after ∧
        Completes SettingGroup.all (before.arranged .inOrder 0) (after.arranged .inOrder 2) := by
  obtain ⟨h, hne⟩ := fill_lacking
  exact ⟨h, (fill_completes h).resolve_left hne⟩

/-- A configuration that has all the groups is left as it is, in any memory. -/
lemma fill_of_filled {content : Text} {groups : List SettingGroup}
    (h : isFilled content groups = .ok true) : fill m content groups = .ok ⟨content, false⟩ := by
  obtain ⟨tree, settings, hp, hs, hall⟩ := isFilled_eq_true.1 h
  obtain ⟨value, hv, hset⟩ := Option.bind_eq_some_iff.1 hs
  obtain ⟨entries, hroot, hkey⟩ := Option.bind_eq_some_iff.1 hv
  have hmissing :
      (groups.filter fun group => ((some settings).getD [] |>.get? group.key).isNone) = [] := by
    refine List.filter_eq_nil_iff.2 fun group hg => ?_
    have := hall group hg
    simpa using Option.isSome_iff_ne_none.1 this
  -- no group is missing, so that there is nothing to try
  have hnone : candidate? m (tree.arranged m 0) entries content groups = .ok none := by
    unfold candidate?
    simp only [hkey, Yaml.Document.entries?_arranged, hset, hmissing]
    rfl
  unfold fill
  refine bind_eq_ok.2 ⟨some _, read?_eq_some.2 ⟨tree, hp, rfl⟩, ?_⟩
  simp only [Yaml.Document.entries?_arranged, Yaml.Document.root_arranged, hroot]
  exact bind_eq_ok.2 ⟨none, hnone, rfl⟩

/-- Unless a completion has been taken back, another one of what it returned finds nothing to do, in
any memory. -/
lemma fill_of_not_declined {content : Text} {groups : List SettingGroup} {r : Completion}
    (h : fill m content groups = .ok r) (hr : r.declined = false) (m' : Yaml.Memory) :
    fill m' r.content groups = .ok r := by
  rcases fill_cases h with ⟨rfl, hany⟩ | rfl | ⟨_, _, _, _, _, _, hf, _⟩
  · exact hany m'
  · cases hr
  · rw [fill_of_filled hf, ← hr]

/-- A completion that was taken back has left the text as it was. -/
lemma content_of_declined {content : Text} {groups : List SettingGroup} {r : Completion}
    (h : fill m content groups = .ok r) (hr : r.declined = true) :
    r.content = content := by
  rcases fill_inv h with hsame | ⟨hr', _⟩
  · exact hsame
  · cases hr.symm.trans hr'

/-- A text is a configuration whose root is a mapping. -/
def ReadsAsMapping (t : Text) : Prop :=
  ∃ tree, Config.parse t = .ok tree ∧ tree.isMapping tree.root = true

instance (t : Text) : Decidable (ReadsAsMapping t) :=
  match h : Config.parse t with
  | .ok tree => decidable_of_iff (tree.isMapping tree.root = true)
    ⟨fun hm => ⟨tree, h, hm⟩, fun ⟨_, ht, hm⟩ => by cases h.symm.trans ht; exact hm⟩
  | .error _ => isFalse fun ⟨_, ht, _⟩ => by cases h.symm.trans ht

/-- A configuration with entries at its root is a mapping. -/
lemma readsAsMapping_of_entries {t : Text} {tree : Config.Tree} {entries : Yaml.Entries}
    (h : Config.parse t = .ok tree) (he : tree.entries? tree.root = some entries) :
    ReadsAsMapping t := by
  refine ⟨tree, h, ?_⟩
  unfold Yaml.Document.isMapping
  rw [he]
  rfl

/-- A completion of a mapping is a mapping, and so is what it completed. -/
lemma readsAsMapping_fill {content : Text} {groups : List SettingGroup} {r : Completion}
    (h : fill m content groups = .ok r) : ReadsAsMapping r.content ↔ ReadsAsMapping content := by
  rcases fill_inv h with hsame | ⟨_, before, old, hb, hold, _, _, hk⟩
  · rw [hsame]
  · obtain ⟨after, new, ha, hnew, _⟩ := isPreserved_eq_true hk
    exact iff_of_true (readsAsMapping_of_entries ha hnew) (readsAsMapping_of_entries hb hold)

/-! ### How a completion fails -/

/-- A text that a completion of the given groups reads. -/
def IsTried (groups : List SettingGroup) (content t : Text) : Prop :=
  t = content ∨ (∃ apart, t = append content apart) ∨
    ∃ missing, List.Sublist missing groups ∧ t = insert content missing

/-- What is tried is a text that a completion reads. -/
lemma isTried_of_candidate {before : Config.Tree} {old : Yaml.Entries} {content updated : Text}
    {groups : List SettingGroup} (hroot : before.entries? before.root = some old)
    (h : candidate? m before old content groups = .ok (some updated)) :
    IsTried groups content updated := by
  rcases (candidate?_eq_some hroot h).2 with ⟨-, happend⟩ | ⟨-, hinsert⟩
  · exact .inr (.inl happend)
  · exact .inr (.inr ⟨_, List.filter_sublist, hinsert⟩)

/-- The failure comes from a scalar of the text, or from an integer that cannot be written. -/
def Stumbles (t : Text) (e : CompletionError) : Prop :=
  (∃ cause, e = .unsuitable cause ∧ Config.parse t = .error (.unsuitable cause)) ∨
    ∃ cause, e = .numeral cause

/-- A text is not read because of one of its scalars. -/
lemma parse?_error {t : Text} {e : CompletionError} (h : parse? t = .error e) : Stumbles t e := by
  unfold parse? at h
  split at h
  · cases h
  · cases h
  · rename_i hp
    cases h
    exact .inl ⟨_, rfl, hp⟩

/-- So it is with a reading. -/
lemma read?_error {t : Text} {e : CompletionError} (h : read? m reading t = .error e) :
    Stumbles t e := by
  rcases bind_eq_error.1 h with h | ⟨_, _, h⟩
  · exact parse?_error h
  · cases h

/-- An outline is not written because of an integer. -/
lemma outlined_error {t : Text} {o : Except NumeralError (List Yaml.Sign)} {e : CompletionError}
    (h : outlined o = .error e) : Stumbles t e := by
  unfold outlined at h
  split at h
  · cases h
  · cases h
    exact .inr ⟨_, rfl⟩

/-- Whether a text is filled is found out by reading it. -/
lemma isFilled_error {t : Text} {groups : List SettingGroup} {e : CompletionError}
    (h : isFilled t groups = .error e) : Stumbles t e := by
  rcases bind_eq_error.1 h with h | ⟨parsed, _, h⟩
  · exact parse?_error h
  · split at h
    · cases h
    · split at h
      · cases h
      · cases h

/-- Whether entries are kept is found out by writing them. -/
lemma entriesKept_error {t : Text} {before after : Config.Tree} {settings entries : Yaml.Entries}
    {e : CompletionError} (h : entriesKept before after settings entries = .error e) :
    Stumbles t e := by
  induction entries with
  | nil => cases h
  | cons entry rest ih =>
    unfold entriesKept at h
    rcases bind_eq_error.1 h with h | ⟨kept, _, h⟩
    · unfold entryKept at h
      dsimp only at h
      split at h
      · cases h
      · rcases bind_eq_error.1 h with h | ⟨_, _, h⟩
        · exact outlined_error h
        rcases bind_eq_error.1 h with h | ⟨_, _, h⟩
        · exact outlined_error h
        · cases h
    · cases kept with
      | false => cases h
      | true => exact ih h

/-- Whether a text is preserved is found out by reading it and writing both. -/
lemma isPreserved_error {t : Text} {before : Config.Tree} {old : Yaml.Entries} {e : CompletionError}
    (h : isPreserved m reading before old t = .error e) : Stumbles t e := by
  rcases bind_eq_error.1 h with h | ⟨parsed, _, h⟩
  · exact read?_error h
  · split at h
    · cases h
    split at h
    · cases h
    rcases bind_eq_error.1 h with h | ⟨_, _, h⟩
    · exact outlined_error h
    rcases bind_eq_error.1 h with h | ⟨_, _, h⟩
    · exact outlined_error h
    split at h
    · cases h
    split at h
    · cases h
    split at h
    · cases h
    · exact entriesKept_error h

/-- A completion fails because of a text that it reads. -/
lemma fill_error {content : Text} {groups : List SettingGroup} {e : CompletionError}
    (h : fill m content groups = .error e) : ∃ t, IsTried groups content t ∧ Stumbles t e := by
  rcases bind_eq_error.1 h with h | ⟨parsed, _, h⟩
  · exact ⟨content, .inl rfl, read?_error h⟩
  split at h
  · cases h
  split at h
  · cases h
  rename_i hroot
  rcases bind_eq_error.1 h with h | ⟨candidate, hc, h⟩
  · unfold candidate? at h
    split at h
    · -- the namespace is tried apart from the text first
      rcases bind_eq_error.1 h with h | ⟨preserved, _, h⟩
      · exact ⟨_, .inr (.inl ⟨true, rfl⟩), isPreserved_error h⟩
      · cases preserved with
        | false => cases h
        | true => cases h
    · split at h
      · cases h
      · cases h
  split at h
  · cases h
  rename_i updated
  have htried : IsTried groups content updated := isTried_of_candidate hroot hc
  rcases bind_eq_error.1 h with h | ⟨filled, _, h⟩
  · exact ⟨updated, htried, isFilled_error h⟩
  cases filled with
  | false => cases h
  | true =>
    rcases bind_eq_error.1 h with h | ⟨preserved, _, h⟩
    · exact ⟨updated, htried, isPreserved_error h⟩
    · cases preserved with
      | false => cases h
      | true => cases h

/-! ### Completions in two memories -/

/-- The two memories leave every text that a completion of the given groups reads in one order. -/
def SameOrder (m m' : Yaml.Memory) (groups : List SettingGroup) (content : Text) : Prop :=
  ∀ t, IsTried groups content t → ∀ tree, Config.parse t = .ok tree →
    ∀ reading, tree.arranged m reading = tree.arranged m' reading

/-- One memory leaves it as it does. -/
lemma SameOrder.refl (m : Yaml.Memory) (groups : List SettingGroup) (content : Text) :
    SameOrder m m groups content := fun _ _ _ _ _ => rfl

/-- No text that a completion of the given groups reads has a set with a member that is known by its
address. -/
def IsSteady (groups : List SettingGroup) (content : Text) : Prop :=
  ∀ t, IsTried groups content t → ∀ tree, Config.parse t = .ok tree → tree.Settled

section Congruence
variable {m' : Yaml.Memory} {content t : Text} {groups : List SettingGroup}

/-- Memories in which values have the same places leave a steady text in one order. -/
lemma IsSteady.sameOrder (h : IsSteady groups content) (hplace : m.place = m'.place) :
    SameOrder m m' groups content :=
  fun t ht tree hp _ => Yaml.Document.arranged_congr hplace (h t ht tree hp)

/-- A text that is left in one order is read alike. -/
lemma read?_congr
    (ht : ∀ tree, Config.parse t = .ok tree → ∀ i, tree.arranged m i = tree.arranged m' i)
    (reading : Nat) : read? m reading t = read? m' reading t := by
  unfold read?
  cases hp : parse? t with
  | error e => rfl
  | ok parsed =>
    cases parsed with
    | none => rfl
    | some tree =>
      have harranged := ht tree (parse?_eq_some.1 hp) reading
      change Except.ok (some (tree.arranged m reading)) =
        Except.ok (some (tree.arranged m' reading))
      rw [harranged]

/-- So it is preserved in both memories or in none. -/
lemma isPreserved_congr
    (ht : ∀ tree, Config.parse t = .ok tree → ∀ i, tree.arranged m i = tree.arranged m' i)
    (reading : Nat) (before : Config.Tree) (old : Yaml.Entries) :
    isPreserved m reading before old t = isPreserved m' reading before old t := by
  unfold isPreserved
  rw [read?_congr ht]

/-- The same is tried. -/
lemma candidate?_congr (h : SameOrder m m' groups content) (before : Config.Tree)
    (old : Yaml.Entries) :
    candidate? m before old content groups = candidate? m' before old content groups := by
  have happart := h _ (.inr (.inl ⟨true, rfl⟩))
  unfold candidate?
  cases old.get? key with
  | none =>
    dsimp only
    rw [isPreserved_congr happart]
  | some value => rfl

/-- **Memory has no part in a completion** beside the order in which it leaves what is read. -/
lemma fill_congr (h : SameOrder m m' groups content) :
    fill m content groups = fill m' content groups := by
  unfold fill
  rw [read?_congr (h _ (.inl rfl))]
  refine bind_congr fun parsed => ?_
  cases parsed with
  | none => rfl
  | some tree =>
    dsimp only
    cases hroot : tree.entries? tree.root with
    | none => rfl
    | some old =>
      dsimp only
      rw [candidate?_congr h]
      refine bind_congr_of_ok fun candidate hc => ?_
      cases candidate with
      | none => rfl
      | some updated =>
        have hsame := h _ (isTried_of_candidate hroot hc)
        refine bind_congr fun filled => ?_
        rw [isPreserved_congr hsame]

/-- A completion of what one returned has the same outcome where memory has no part in it. -/
lemma fill_again {r : Completion} (h : fill m content groups = .ok r)
    (hsame : SameOrder m m' groups content) : fill m' r.content groups = .ok r := by
  cases hr : r.declined with
  | false => exact fill_of_not_declined h hr m'
  | true => rw [content_of_declined h hr, ← fill_congr hsame, h]

end Congruence

/-- A configuration with a set, one member of which is known by its address. -/
def unsteady : Text := "x: !!set {? !!float nan, ? 2, ? 4, ? 6}\n"

/-- A memory in which the first reading puts that member before the others, and later ones behind
them. -/
def turning : Yaml.Memory where
  place _ handle := match handle with
    | .value _ => 1
    | .address n => 2 * n
  address reading _ := reading

/-- In the one memory a completion is taken back. -/
lemma fill_unsteady_turning :
    fill turning unsteady SettingGroup.all = .ok ⟨unsteady, true⟩ := by decide +kernel

/-- In the other one it is made. -/
lemma fill_unsteady_inOrder :
    fill .inOrder unsteady SettingGroup.all = .ok ⟨append unsteady true, false⟩ := by
  decide +kernel

/-- What is appended is not empty. -/
lemma append_unsteady_ne : append unsteady true ≠ unsteady := by decide

end Namespace

end SiteAudit
