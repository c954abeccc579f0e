import SiteAudit.Check.Contract
import SiteAudit.Check.RemoteLoader
import SiteAudit.Proofs.Completion
import SiteAudit.Proofs.Yaml.Outline

/-!
# Completions and the contract

A completion keeps what the checks of a configuration look at: a setting of the namespace that was
there is still there and is written in the same way (`Completes.setting`), so that it is the same
text, the same decision, or still a mapping. The completion of all groups therefore adds no
violation of the contract and keeps the decision on remote loading (`complete_keeps_contract`).
-/

namespace SiteAudit

namespace Namespace

variable {m : Yaml.Memory} {i : Nat} {before after : Config.Tree} {groups : List SettingGroup}
  {name : Text} {v : Yaml.Value}

/-- The namespace of a completed configuration is a mapping. -/
lemma Completes.isMapping (h : Completes groups before after) :
    Contract.isMapping after (after.get? after.root key) = true := by
  obtain ⟨_, new, settings, _, hnew, hset, _⟩ := h
  obtain ⟨value, hvalue, hset⟩ := Option.bind_eq_some_iff.1 hset
  rw [Yaml.Document.get?, hnew, Option.bind_some, hvalue, Contract.isMapping, Option.any_some,
    Yaml.Document.isMapping, hset]
  rfl

/-- A setting that was there is still there, and is written in the same way. -/
lemma Completes.setting (h : Completes groups before after) (hbefore : before.IsWhole)
    (hafter : after.IsWhole)
    (hv : Contract.setting? before (before.get? before.root key) name = some v) :
    ∃ v', Contract.setting? after (after.get? after.root key) name = some v' ∧
      Yaml.SameOutline before after v v' := by
  obtain ⟨old, new, settings, hold, hnew, hset, _, _, _, hkeeps⟩ := h
  obtain ⟨value, hvalue, hv⟩ := Option.bind_eq_some_iff.1 hv
  rw [Yaml.Document.get?, hold, Option.bind_some] at hvalue
  obtain ⟨entries, hentries, hv⟩ := Option.bind_eq_some_iff.1 hv
  obtain ⟨entry, hentry, hname, rfl, _⟩ := Yaml.Outline.get?_eq_some hv
  -- the entry of the setting is kept
  obtain ⟨_, found, signs, hfound, hs, hs'⟩ := hkeeps value entries hvalue hentries entry hentry
  rw [hname] at hfound
  obtain ⟨value', hvalue', hset⟩ := Option.bind_eq_some_iff.1 hset
  refine ⟨found.2, ?_, hbefore, hafter, hbefore.resolves hentries hentry,
    hafter.resolves hset (List.mem_of_find?_eq_some hfound), signs, hs, hs'⟩
  rw [Yaml.Document.get?, hnew, Option.bind_some, hvalue', Contract.setting?, Option.bind_some,
    Yaml.Document.get?, hset, Option.bind_some, Yaml.Entries.get?, hfound]
  rfl

/-- A requirement of the contract that was met is still met. -/
lemma Completes.isMet (h : Completes groups before after) (hbefore : before.IsWhole)
    (hafter : after.IsWhole) {r : Contract.Requirement} (hr : r ∈ Contract.requirements)
    (hmet : r.isMet before (before.get? before.root key) = true) :
    r.isMet after (after.get? after.root key) = true := by
  have hgroup {name : Text} (hm : Contract.isMapping before
      (Contract.setting? before (before.get? before.root key) name) = true) :
      Contract.isMapping after
        (Contract.setting? after (after.get? after.root key) name) = true := by
    obtain ⟨v, hv, hm⟩ := (Option.any_eq_true ..).1 hm
    obtain ⟨v', hv', hsame⟩ := h.setting hbefore hafter hv
    exact (Option.any_eq_true ..).2 ⟨v', hv', hsame.isMapping ▸ hm⟩
  unfold Contract.requirements at hr
  simp only [List.mem_cons, List.not_mem_nil, or_false] at hr
  obtain rfl | rfl | rfl | rfl := hr
  · exact h.isMapping
  · obtain ⟨v, hv, htext⟩ := (Option.any_eq_true ..).1 hmet
    obtain ⟨v', hv', hsame⟩ := h.setting hbefore hafter hv
    exact (Option.any_eq_true ..).2 ⟨v', hv', hsame.isText _ ▸ htext⟩
  · exact hgroup hmet
  · exact hgroup hmet

/-- A completion adds no violation of the contract. -/
lemma Completes.violations (h : Completes groups before after) (hbefore : before.IsWhole)
    (hafter : after.IsWhole) (file : Text) :
    Contract.violations file after ⊆ Contract.violations file before := by
  refine List.map_subset _ fun r hr => ?_
  obtain ⟨hmem, hnot⟩ := List.mem_filter.1 hr
  refine List.mem_filter.2 ⟨hmem, ?_⟩
  rw [Bool.not_eq_true'] at hnot ⊢
  by_contra hmet
  rw [Bool.not_eq_false] at hmet
  rw [h.isMet hbefore hafter hmem hmet] at hnot
  cases hnot

/-- A completed configuration has a namespace, and is not told that it has none. -/
lemma Completes.not_missing (h : Completes groups before after) (file : Text) :
    ("missing_al_folio_namespace" : Text) ∉ (Contract.violations file after).map Finding.id := by
  -- no other requirement has this name
  have hothers : ("missing_al_folio_namespace" : Text) ∉
      Contract.requirements.tail.map Contract.Requirement.id := by decide
  intro hmem
  obtain ⟨f, hf, hid⟩ := List.mem_map.1 hmem
  obtain ⟨r, hr, rfl⟩ := List.mem_map.1 hf
  obtain ⟨hmem, hnot⟩ := List.mem_filter.1 hr
  rw [Bool.not_eq_true'] at hnot
  rcases List.mem_cons.1 hmem with rfl | hmem
  · exact Bool.false_ne_true (hnot.symm.trans h.isMapping)
  · exact hothers (List.mem_map.2 ⟨r, hmem, hid⟩)

/-- Whether a configuration allows remote loading is looked up in the settings of the
distribution. -/
lemma isAllowedBy_eq (tree : Config.Tree) : RemoteLoader.isAllowedBy tree =
    ((Contract.setting? tree (tree.get? tree.root key) SettingGroup.distill.key).bind fun v =>
      tree.get? v "allow_remote_loader").any Yaml.Document.isTrue := by
  unfold RemoteLoader.isAllowedBy Contract.setting?
  simp only [Yaml.Document.dig, Option.bind_assoc, Option.bind_fun_some]

/-- The decision on remote loading is kept if there were settings of the distribution. -/
lemma Completes.isAllowedBy (h : Completes groups before after) (hbefore : before.IsWhole)
    (hafter : after.IsWhole)
    (hdistill : (before.dig before.root [key, SettingGroup.distill.key]).isSome = true) :
    RemoteLoader.isAllowedBy after = RemoteLoader.isAllowedBy before := by
  simp only [Yaml.Document.dig, Option.bind_fun_some] at hdistill
  obtain ⟨v, hv⟩ := Option.isSome_iff_exists.1 hdistill
  obtain ⟨v', hv', hsame⟩ := h.setting hbefore hafter hv
  rw [isAllowedBy_eq, isAllowedBy_eq, hv', Contract.setting?, hv]
  exact (hsame.isTrue_get? _).symm

/-- Memory has no part in the settings of the namespace. -/
lemma setting?_arranged (tree : Config.Tree) :
    Contract.setting? (tree.arranged m i) = Contract.setting? tree := by
  unfold Contract.setting?
  rw [Yaml.Document.get?_arranged]

/-- Nor in what is a mapping. -/
lemma isMapping_arranged (tree : Config.Tree) :
    Contract.isMapping (tree.arranged m i) = Contract.isMapping tree := by
  unfold Contract.isMapping
  rw [Yaml.Document.isMapping_arranged]

/-- Memory has no part in the requirements of the contract. -/
lemma isMet_arranged {r : Contract.Requirement} (hr : r ∈ Contract.requirements)
    (tree : Config.Tree) : r.isMet (tree.arranged m i) = r.isMet tree := by
  simp only [Contract.requirements, List.mem_cons, List.not_mem_nil, or_false] at hr
  obtain rfl | rfl | rfl | rfl := hr
  · exact isMapping_arranged tree
  · funext value
    dsimp only
    rw [setting?_arranged]
  all_goals
    funext value
    dsimp only
    rw [setting?_arranged, isMapping_arranged]

/-- So it has none in the violations. -/
lemma violations_arranged (file : Text) (tree : Config.Tree) :
    Contract.violations file (tree.arranged m i) = Contract.violations file tree := by
  unfold Contract.violations
  dsimp only
  rw [Yaml.Document.get?_arranged, Yaml.Document.root_arranged]
  exact congrArg _ (List.filter_congr fun r hr => by rw [isMet_arranged hr])

/-- Memory has no part in the decision on remote loading. -/
lemma isAllowedBy_arranged (tree : Config.Tree) :
    RemoteLoader.isAllowedBy (tree.arranged m i) = RemoteLoader.isAllowedBy tree := by
  unfold RemoteLoader.isAllowedBy
  rw [Yaml.Document.dig_arranged, Yaml.Document.root_arranged]

/-- **A completion only ever removes violations of the contract.** What it returns for a
configuration is one, all of whose violations were violations before; a text that it changed has a
namespace; and if the namespace had settings for the distribution, then remote loading is allowed
exactly if it was. -/
theorem complete_keeps_contract {content : Text} {r : Completion}
    (hparse : Config.parse content = .ok before) (h : complete m content = .ok r) :
    ∃ after, Config.parse r.content = .ok after ∧
      (∀ file, Contract.violations file after ⊆ Contract.violations file before) ∧
      (r.content ≠ content → ∀ file,
        ("missing_al_folio_namespace" : Text) ∉ (Contract.violations file after).map Finding.id) ∧
      ((before.dig before.root [key, SettingGroup.distill.key]).isSome = true →
        RemoteLoader.isAllowedBy after = RemoteLoader.isAllowedBy before) := by
  rcases fill_inv h with hsame | ⟨_, before', old, hparse', hold, hc, hf, hk⟩
  · rw [hsame]
    exact ⟨before, hparse, fun _ => List.Subset.refl _, fun hne => absurd rfl hne, fun _ => rfl⟩
  · obtain rfl : before = before' := Except.ok.inj (hparse.symm.trans hparse')
    have hold' : (before.arranged m 0).entries? (before.arranged m 0).root = some old := by
      simpa using hold
    obtain ⟨after, hafter, hcompletes⟩ :=
      completes_of_checks hold' (candidate?_eq_some hold' hc).1 hf hk
    have hwhole := (Config.parse_isWhole hparse).arranged m 0
    have hwhole' := (Config.parse_isWhole hafter).arranged m 2
    refine ⟨after, hafter, fun file => ?_, fun _ file => ?_, fun hdistill => ?_⟩
    · simpa [violations_arranged] using hcompletes.violations hwhole hwhole' file
    · simpa [violations_arranged] using hcompletes.not_missing file
    · simpa [isAllowedBy_arranged] using
        hcompletes.isAllowedBy hwhole hwhole' (by simpa using hdistill)

/-- A configuration that denies remote loading and lacks a group. -/
def denying : Text := "al_folio:\n  distill:\n    allow_remote_loader: false\n"

/-- The missing group is filled in, and remote loading stays denied. -/
theorem complete_keeps_contract_denying :
    complete .inOrder denying = .ok ⟨insert denying [.tailwind], false⟩ ∧
      ∃ before after, Config.parse denying = .ok before ∧
        Config.parse (insert denying [.tailwind]) = .ok after ∧
        (∀ file, Contract.violations file after ⊆ Contract.violations file before) ∧
        (∀ file,
          ("missing_al_folio_namespace" : Text) ∉
            (Contract.violations file after).map Finding.id) ∧
        RemoteLoader.isAllowedBy after = false := by
  obtain ⟨h, hne, hdenies⟩ : complete .inOrder denying = .ok ⟨insert denying [.tailwind], false⟩ ∧
      insert denying [.tailwind] ≠ denying ∧
      (Config.parse denying).map (fun tree =>
        ((tree.dig tree.root [key, SettingGroup.distill.key]).isSome,
          RemoteLoader.isAllowedBy tree)) = .ok (true, false) := by decide +kernel
  cases hparse : Config.parse denying with
  | error e =>
    rw [hparse] at hdenies
    cases hdenies
  | ok before =>
    rw [hparse] at hdenies
    obtain ⟨hdistill, hallowed⟩ := Prod.mk.inj (Except.ok.inj hdenies)
    obtain ⟨after, hafter, hviolations, hmissing, hkept⟩ := complete_keeps_contract hparse h
    exact ⟨h, before, after, rfl, hafter, hviolations, hmissing hne,
      (hkept hdistill).trans hallowed⟩

end Namespace

end SiteAudit
