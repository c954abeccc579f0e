import SiteAudit.Proofs.Audit
import SiteAudit.Proofs.CheckRuns
import SiteAudit.Proofs.Yaml.Construction
import SiteAudit.Proofs.Yaml.Lexing
import SiteAudit.Proofs.Yaml.Parsing

/-!
# Configurations that stop their readers

The check of the contract tells what is wrong with a configuration, but for a scalar that does not
suit its tag and for an escape of more than 31 bits. These stop the check, and the audit goes on
without it (`Contract.check_answers_iff`).
-/

namespace SiteAudit

namespace Config

open Yaml

/-- The text has a scalar that stops its reader: an escape in it is too long, or a node of its graph
has a tag that cannot take its text or asks for a scalar that is never come to. -/
def HasStop (t : Text) (cause : Unsuitable) : Prop :=
  cause = .escape ∧ HasLongEscape t ∨
    ∃ g, Graph.ofText t = .ok (some g) ∧ ∃ n ∈ g.nodes, n.Offends cause

/-- What has no words for the reader had none before. -/
lemma errorOf_eq_unsuitable {t : Text} {e : Yaml.Error} {cause : Unsuitable}
    (h : errorOf t e = .unsuitable cause) : e = .unsuitable cause := by
  unfold errorOf at h
  split at h
  · cases h
  · cases h
    rfl
  · cases h

/-- A text that stops its reader has something in it that does. -/
lemma hasStop_of_parse {t : Text} {cause : Unsuitable} (h : parse t = .error (.unsuitable cause)) :
    HasStop t cause := by
  unfold parse at h
  split at h
  · rename_i e he
    obtain rfl := errorOf_eq_unsuitable (Except.error.inj h)
    unfold Document.ofText at he
    rcases bind_eq_error.1 he with he | ⟨g, hg, he⟩
    · rcases Graph.ofText_error he with he | he
      · exact absurd rfl (he cause)
      · rcases tokens_failure he with he | ⟨he, hlong⟩
        · exact absurd rfl (he cause)
        · exact .inl ⟨Error.unsuitable.inj he, hlong⟩
    · split at he
      · rename_i g
        rcases bind_eq_error.1 he with he | ⟨_, _, he⟩
        · rcases Document.ofGraph_error he with he | ⟨cause', he, hn⟩
          · exact absurd rfl (he cause)
          · cases he
            exact .inr ⟨g, hg, hn⟩
        · cases he
      · cases he
  · cases h
  · cases h

/-- So has a file that stops its reader. -/
lemma hasStop_of_ofBytes {content : Bytes} {cause : Unsuitable}
    (h : ofBytes content = .error (.unsuitable cause)) :
    ∃ t, Utf8.decode content = .ok t ∧ HasStop (unifyLineEnds t) cause := by
  unfold ofBytes at h
  split at h
  · cases h
  · rename_i t ht
    exact ⟨t, ht, hasStop_of_parse h⟩

end Config

namespace Contract

/-- What is expected of the check: the violations of the contract, if the content is a
configuration, and otherwise a single finding that stands in the way. -/
def Answers (file : Text) (content : Bytes) (result : Except Failure (List Finding)) : Prop :=
  match Config.ofBytes content with
  | .ok tree => result = .ok (violations file tree)
  | .error _ => ∃ reason, result = .ok [unreadable file reason]

/-- A configuration that is wrong stands in the way. -/
lemma isBlocking_unreadable {file reason : Text} : (unreadable file reason).isBlocking = true := rfl

variable {site : Site} {files : FileTree} {content : Bytes}

/-- What the check gives for a configuration file. -/
lemma runFrom_check
    (hfile : files.find (site.root.joinText site.settings.configFile) = .ok (.file content))
    (paths : List Path) (notices : List Notice) :
    (runFrom (check.run site files paths) notices).1 = match Config.ofBytes content with
      | .ok tree => .ok (violations site.settings.configFile tree)
      | .error (.invalid reason) => .ok [unreadable site.settings.configFile reason]
      | .error (.unsuitable cause) => .error (.config (.unsuitable cause)) := by
  rw [runFrom_check_content, FileTree.content?_eq_some.2 hfile, Config.loaded]
  rcases Config.ofBytes content with (reason | cause) | tree
  · rfl
  · rfl
  · rfl

/-- **The check answers unless a scalar stops it.** A configuration file gets the violations of its
contract or the one finding that stands in the way, which is then among the findings of the audit,
and there is an audit unless its catalog ends the program; but if a scalar of the file does not suit
its tag, or an escape is too long, then the check fails, and the audit has no findings of it. -/
theorem check_answers_iff
    (hfile : files.find (site.root.joinText site.settings.configFile) = .ok (.file content))
    (paths : List Path) (notices : List Notice) :
    (Answers site.settings.configFile content (runFrom (check.run site files paths) notices).1 ↔
      ∀ cause, Config.ofBytes content ≠ .error (.unsuitable cause)) ∧
    (∀ reason, Config.ofBytes content = .error (.invalid reason) →
      (runFrom (site.candidates files) notices).1 = .ok paths →
      (¬ site.catalog.Raises .exit →
        ∃ findings, (runFrom (site.audit Check.all files) notices).1 = .ok findings) ∧
      ∀ findings, (runFrom (site.audit Check.all files) notices).1 = .ok findings →
        unreadable site.settings.configFile reason ∈ findings ∧
        Finding.anyBlocking findings = true) ∧
    ∀ cause, Config.ofBytes content = .error (.unsuitable cause) →
      (runFrom (site.runCheck files paths check) notices).1 = .ok [] ∧
      ∃ t, Utf8.decode content = .ok t ∧ Config.HasStop (Config.unifyLineEnds t) cause := by
  refine ⟨?_, fun reason hreason hcandidates => ?_, fun cause hcause => ⟨?_, ?_⟩⟩
  · rw [runFrom_check hfile, Answers]
    rcases Config.ofBytes content with (reason | cause) | tree
    · exact iff_of_true ⟨reason, rfl⟩ fun _ h => by cases h
    · exact iff_of_false (fun ⟨_, h⟩ => by cases h) fun h => h cause rfl
    · exact iff_of_true rfl fun _ h => by cases h
  · -- what the check gives does not depend on the checks before it
    have hcheck (notices : List Notice) : (runFrom (check.run site files paths) notices).1 =
        .ok [unreadable site.settings.configFile reason] := by
      rw [runFrom_check hfile, hreason]
    have hall : check ∈ Check.all := List.mem_cons_of_mem _ (List.mem_cons_self ..)
    refine ⟨fun hcatalog => ?_, fun findings haudit => ?_⟩
    · obtain ⟨found, haudit, -⟩ := Site.runFrom_audit
        (contained_of_check hcatalog) hcandidates
      exact ⟨_, haudit⟩
    · have hmem := Site.subset_audit hcandidates hall hcheck haudit (List.mem_singleton_self _)
      refine ⟨hmem, ?_⟩
      rw [Finding.anyBlocking, List.any_eq_true]
      exact ⟨_, hmem, isBlocking_unreadable⟩
  · rw [Site.runFrom_runCheck, runFrom_check hfile, hcause]
    rfl
  · exact Config.hasStop_of_ofBytes hcause

/-- A site whose configuration has a truth value that is none. -/
def stoppedSite : Site := .usual (.ofText "/site")

/-- That configuration. -/
def stoppedConfig : Bytes := Utf8.encode "a: !!bool x\n"

/-- The files of that site. -/
def stoppedFiles : FileTree := .ofFiles [(.ofText "/site/_config.yml", stoppedConfig)]

/-- The configuration cannot be loaded, and yet nothing stands in the way of an upgrade. -/
theorem check_stopped :
    stoppedFiles.find (stoppedSite.root.joinText stoppedSite.settings.configFile) =
        .ok (.file stoppedConfig) ∧
      Config.ofBytes stoppedConfig = .error (.unsuitable (.boolean "x")) ∧
      ¬ Answers stoppedSite.settings.configFile stoppedConfig
        (runFrom (check.run stoppedSite stoppedFiles []) []).1 ∧
      (runFrom (stoppedSite.runCheck stoppedFiles [] check) []).1 = .ok [] ∧
      (runFrom (stoppedSite.audit Check.all stoppedFiles) []).1.map Finding.anyBlocking =
        .ok false := by
  have hfile : stoppedFiles.find (stoppedSite.root.joinText stoppedSite.settings.configFile) =
      .ok (.file stoppedConfig) := by decide +kernel
  have hstop : Config.ofBytes stoppedConfig = .error (.unsuitable (.boolean "x")) := by
    decide +kernel
  obtain ⟨hanswers, _, hstopped⟩ := check_answers_iff hfile [] []
  have hnot : ¬ ∀ cause, Config.ofBytes stoppedConfig ≠ .error (.unsuitable cause) :=
    fun h => h _ hstop
  exact ⟨hfile, hstop, mt hanswers.1 hnot, (hstopped _ hstop).1, by decide +kernel⟩

end Contract

end SiteAudit
