import SiteAudit.Proofs.Contract
import SiteAudit.Proofs.Transform

/-!
# Transforms of configurations

A completion leaves a mapping a mapping. The replacements before it have no such safeguard: the
transform of a configuration is a mapping exactly if the replacements make one and its completion
does not fail (`transform_mapping_iff`).
-/

namespace SiteAudit.Codemod
open Namespace Replacement

variable {m : Yaml.Memory} {configFile content : Text} {o : Outcome} {e : CompletionError}

/-- The transform of a configuration is the completion of what the replacements make. -/
lemma transform_config (m : Yaml.Memory) (configFile content : Text) :
    (∃ o, transform m configFile configFile content = .ok o) ↔
      ∃ completion, complete m (Replacement.applyAll safe content).1 = .ok completion := by
  unfold transform
  dsimp only
  rw [if_neg (not_not.2 rfl)]
  constructor
  · rintro ⟨o, h⟩
    obtain ⟨completion, hc, _⟩ := bind_eq_ok.1 h
    exact ⟨completion, hc⟩
  · rintro ⟨completion, hc⟩
    exact ⟨_, bind_eq_ok.2 ⟨completion, hc, rfl⟩⟩

/-- A transform makes a mapping exactly if its replacements do. -/
lemma readsAsMapping_transform (h : transform m configFile configFile content = .ok o) :
    ReadsAsMapping o.content ↔ ReadsAsMapping (Replacement.applyAll safe content).1 := by
  rcases transform_content h with ⟨hne, _⟩ | ⟨_, completion, hc, ho⟩
  · exact absurd rfl hne
  · rw [ho]
    exact readsAsMapping_fill hc

/-- A transform fails because of a text that its completion reads. -/
lemma transform_error {file : Text} (h : transform m configFile file content = .error e) :
    ∃ t, IsTried SettingGroup.all (Replacement.applyAll safe content).1 t ∧ Stumbles t e := by
  unfold transform at h
  dsimp only at h
  split at h
  · cases h
  · rcases bind_eq_error.1 h with h | ⟨_, _, h⟩
    · exact fill_error h
    · cases h

/-- **A transform makes a mapping exactly if its replacements do** and the completion of what they
make does not fail. Where there is nothing to be replaced, a mapping stays one. A transform that
makes no mapping has only replaced, and one that fails for want of words has come to a scalar that
stops its reader. -/
theorem transform_mapping_iff (m : Yaml.Memory) (configFile content : Text) :
    ((∃ o, transform m configFile configFile content = .ok o ∧ ReadsAsMapping o.content) ↔
      ReadsAsMapping (Replacement.applyAll safe content).1 ∧
        ∃ completion, complete m (Replacement.applyAll safe content).1 = .ok completion) ∧
    (∀ o, transform m configFile configFile content = .ok o →
      (isFree safe none content = true → (ReadsAsMapping o.content ↔ ReadsAsMapping content)) ∧
      (¬ ReadsAsMapping o.content → o.content = (Replacement.applyAll safe content).1)) ∧
    ∀ cause, transform m configFile configFile content = .error (.unsuitable cause) →
      ∃ t, IsTried SettingGroup.all (Replacement.applyAll safe content).1 t ∧
        Config.HasStop t cause := by
  refine ⟨⟨?_, ?_⟩, fun o h => ⟨fun hfree => ?_, fun hnot => ?_⟩, fun cause h => ?_⟩
  · rintro ⟨o, h, hmapping⟩
    exact ⟨(readsAsMapping_transform h).1 hmapping,
      (transform_config m configFile content).1 ⟨o, h⟩⟩
  · rintro ⟨hmapping, hcompletes⟩
    obtain ⟨o, h⟩ := (transform_config m configFile content).2 hcompletes
    exact ⟨o, h, (readsAsMapping_transform h).2 hmapping⟩
  · rw [readsAsMapping_transform h, applyAll_of_isFree hfree]
  · rcases transform_content h with ⟨hne, _⟩ | ⟨_, completion, hc, ho⟩
    · exact absurd rfl hne
    · rcases fill_inv hc with hsame | ⟨_, _, _, _, _, _, _, hk⟩
      · rw [ho, hsame]
      · -- a completion has been found to be a mapping
        obtain ⟨after, new, ha, hnew, _⟩ := isPreserved_eq_true hk
        rw [ho] at hnot
        exact absurd (readsAsMapping_of_entries ha hnew) hnot
  · obtain ⟨t, htried, ⟨cause', he, hp⟩ | ⟨_, he⟩⟩ := transform_error h
    · cases he
      exact ⟨t, htried, Config.hasStop_of_parse hp⟩
    · cases he

/-- A configuration with two anchors, one of which is replaced by the name of the other. -/
def anchored : Text := "a: &font-weight-bold 1\nb: &font-bold 2\n"

/-- After the transform the anchors have one name, and the configuration is none. -/
theorem transform_mapping_anchored :
    ReadsAsMapping anchored ∧
      transform .inOrder "_config.yml" "_config.yml" anchored =
        .ok ⟨"a: &font-bold 1\nb: &font-bold 2\n", ["font_weight_bold"], false⟩ ∧
      ¬ ∃ o, transform .inOrder "_config.yml" "_config.yml" anchored = .ok o ∧
        ReadsAsMapping o.content := by
  have hnot : ¬ ReadsAsMapping (Replacement.applyAll safe anchored).1 := by decide +kernel
  have hiff := (transform_mapping_iff .inOrder "_config.yml" anchored).1
  exact ⟨by decide +kernel, by decide +kernel, fun h => hnot (hiff.1 h).1⟩

end SiteAudit.Codemod
