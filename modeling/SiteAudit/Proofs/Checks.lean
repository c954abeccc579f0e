import SiteAudit.Check.All
import SiteAudit.CommandLine.Option
import SiteAudit.Proofs.LineFindings
import SiteAudit.Proofs.Order
import SiteAudit.Proofs.Schema

/-!
# What checks find

Whatever a check finds is well-formed: it has an identifier, a file and a line
(`wellFormed_of_check`). An audit of a site with the usual settings comes to its end, and with such
findings only, unless its catalog ends the program (`Site.audit_total`).
-/

namespace SiteAudit
open Codemod

variable {site : Site} {files : FileTree} {paths : List Path}

/-! ### Names of files -/

/-- A name is the text of a relative path if it is its only name. -/
lemma Path.text_eq_iff {names : List Text} {t : Text} (hslash : '/' ∉ t) (hdot : t ≠ ['.']) :
    Path.text ⟨[], names⟩ = t ↔ names = [t] := by
  match names with
  | [] => simpa [Path.text] using hdot.symm
  | [name] => simp [Path.text, Text.join]
  | name :: next :: rest =>
    refine iff_of_false ?_ (by simp)
    rintro rfl
    exact hslash (by simp [Path.text, Text.join])

/-- The text of a relative path is empty if it has the empty name only. -/
lemma Path.text_eq_nil {names : List Text} : Path.text ⟨[], names⟩ = [] ↔ names = [[]] :=
  text_eq_iff (by decide) (by decide)

/-- Directly in the root only the configuration is sought. -/
lemma Discovery.isSought_singleton {name : Text} :
    IsSought [name] ↔ name = "_config.yml".toList := by
  have hsingle : ∀ directories endings, directories ≠ [] → ¬ LiesIn directories endings [name] := by
    rintro directories endings hne ⟨inner, name, e, -⟩
    have hlength := congrArg List.length e
    have := List.length_pos_of_ne_nil hne
    simp at hlength
    omega
  unfold IsSought
  simp [hsingle]

namespace Site

/-- With the usual settings there are candidate files, if only none, and their names are sought. -/
lemma candidatesOf_default (hdefault : site.settings = .default) (files : FileTree) :
    ∃ taken : List (List Text),
      site.candidatesOf files = .ok (taken.map fun names => site.root.join ⟨[], names⟩) ∧
        ∀ names ∈ taken, Discovery.IsSought names := by
  obtain ⟨taken, htaken, hmem, -⟩ := candidatesOf_ordered hdefault files
  refine ⟨taken, htaken, fun names hnames => ?_⟩
  exact Discovery.matched_default.1 ((hmem names).1 hnames).matched

/-- With the usual settings the search for candidate files does not fail. -/
lemma exists_candidates (hdefault : site.settings = .default) (files : FileTree) :
    ∃ paths, site.candidatesOf files = .ok paths := by
  obtain ⟨taken, h, -⟩ := candidatesOf_default hdefault files
  exact ⟨_, h⟩

/-- No candidate file is known by the empty name. -/
lemma nameUnder_ne_nil (hdefault : site.settings = .default)
    (hc : site.candidatesOf files = .ok paths) :
    ∀ path ∈ paths, nameUnder site.root path ≠ [] := by
  obtain ⟨taken, h, hsought⟩ := candidatesOf_default hdefault files
  cases h.symm.trans hc
  intro path hpath
  obtain ⟨names, hnames, rfl⟩ := List.mem_map.1 hpath
  rw [nameUnder_join, Ne, Path.text_eq_nil]
  rintro rfl
  cases Discovery.isSought_singleton.1 (hsought _ hnames)

end Site

/-! ### Checks -/

/-- All of the findings have an identifier, a file and a line. -/
def Finding.AllWellFormed (findings : List Finding) : Prop := ∀ f ∈ findings, f.WellFormed

/-- The result of a command is accepted if its findings are well-formed. -/
lemma Result.check_of_command {r : Result} {command : CommandLine.Command}
    (hversion : r.toolVersion = version) (hcommand : r.command = command.name)
    (h : Finding.AllWellFormed r.findings) : Result.schema.check r.toJson = none := by
  refine Schema.check_eq_none.2 (accepts_result.2 ⟨?_, ?_, h⟩)
  · rw [hversion]
    decide
  · rw [hcommand]
    cases command <;> decide

/-- Where nothing is found, nothing is ill-formed. -/
lemma Finding.allWellFormed_nil : AllWellFormed [] := fun _ h => absurd h List.not_mem_nil

/-- Findings are well-formed one by one. -/
lemma Finding.allWellFormed_map {α : Type} {f : α → Finding} {l : List α}
    (h : ∀ a ∈ l, (f a).WellFormed) : AllWellFormed (l.map f) :=
  List.forall_mem_map.2 h

/-- What is well-formed file by file is so altogether. -/
lemma Returns.flatten {α : Type} {l : List α} {f : α → Survey (List Finding)}
    (h : ∀ a ∈ l, Returns Finding.AllWellFormed (f a)) :
    Returns Finding.AllWellFormed (do return (← l.mapM f).flatten) :=
  (Returns.mapM h).bind fun _ hall => .pure (List.forall_mem_flatten.2 hall)

/-- Lines are numbered from one on. -/
lemma Lines.one_le_of_mem_numbered {lines : List Text} {line : Nat × Text}
    (h : line ∈ numbered lines) : (1 : Int) ≤ line.1 := by
  obtain ⟨i, e, -⟩ := mem_numbered.1 h
  omega

open Finding

/-- The finding about manifests is well-formed. -/
lemma Manifests.wellFormed_check : Returns AllWellFormed (check.run site files paths) := by
  refine (Returns.any _).bind fun found _ => .pure ?_
  split
  · exact List.forall_mem_singleton.2 ⟨by decide, by decide, by decide⟩
  · exact allWellFormed_nil

/-- A requirement that is missed is told at the first line of the configuration. -/
lemma Contract.wellFormed_violations {file : Text} (hfile : file ≠ []) (tree : Config.Tree) :
    AllWellFormed (violations file tree) := by
  have hids : ∀ r ∈ requirements, IsId r.id := by decide
  refine allWellFormed_map fun r hr => ⟨hids r (List.mem_of_mem_filter hr), hfile, ?_⟩
  exact Int.le_refl 1

/-- So is a configuration that cannot be read. -/
lemma Contract.wellFormed_check (hfile : site.settings.configFile ≠ []) :
    Returns AllWellFormed (check.run site files paths) := by
  refine (Returns.any _).bind fun loaded _ => ?_
  match loaded with
  | .error reason =>
    have hid : IsId "invalid_config_yaml" := by decide
    exact .pure (List.forall_mem_singleton.2 ⟨hid, hfile, Int.le_refl 1⟩)
  | .ok none => exact .pure allWellFormed_nil
  | .ok (some tree) => exact .pure (wellFormed_violations hfile tree)

/-- Remains are told in one of the two includes, at a line of it. -/
lemma Legacy.wellFormed_assetCheck : Returns AllWellFormed (assetCheck.run site files paths) := by
  have hid : IsId "legacy_bootstrap_runtime_asset" := by decide
  have hincludes : ∀ file ∈ includes, file ≠ [] := by decide
  refine Returns.flatten fun file hfile notices findings h => ?_
  rw [runFrom_assetFindings] at h
  cases h
  refine allWellFormed_map fun line hline => ?_
  exact ⟨hid, hincludes file hfile,
    Lines.one_le_of_mem_numbered (List.mem_of_mem_filter hline)⟩

/-- Markers are told at lines of their file. -/
lemma Legacy.wellFormed_inlineFindings {file : Text} (hfile : file ≠ []) (lines : List Text) :
    AllWellFormed (inlineFindings file lines) := by
  have hids : ∀ m ∈ inlineMarkers, IsId m.id := by decide
  intro f hf
  obtain ⟨line, hline, hf⟩ := List.mem_flatMap.1 hf
  obtain ⟨m, hm, rfl⟩ := List.mem_map.1 hf
  exact ⟨hids m (List.mem_of_mem_filter hm), hfile, Lines.one_le_of_mem_numbered hline⟩

/-- They are told under the names of candidate files. -/
lemma Legacy.wellFormed_patternCheck
    (hpaths : ∀ path ∈ paths, nameUnder site.root path ≠ []) :
    Returns AllWellFormed (patternCheck.run site files paths) := by
  refine Returns.flatten fun path hpath notices findings h => ?_
  cases hrelative : path.relativeTo? site.root with
  | none =>
    unfold fileFindings relativeText at h
    rw [hrelative] at h
    cases h
  | some names =>
    rw [runFrom_fileFindings hrelative] at h
    cases h
    exact wellFormed_inlineFindings (hpaths path hpath) _

/-- The label of a runtime file is not empty, since it ends with its name or begins with that of the
package. -/
lemma RemoteLoader.label_ne_nil (root place : Path) :
    label root (place.joinText runtimeFile) ≠ [] := by
  unfold label
  split
  · rename_i names hnames
    rw [Ne, Path.text_eq_nil]
    rintro rfl
    -- the last name is that of the script
    have hlast : [[]] <:+ place.names ++ (Path.ofText runtimeFile).names := by
      unfold Path.relativeTo? at hnames
      split at hnames
      · rw [← Option.some.inj hnames]
        exact List.drop_suffix _ _
      · cases hnames
    obtain ⟨before, e⟩ := hlast
    have hscript : (Path.ofText runtimeFile).names =
        ["assets".toList, "js".toList, "distillpub".toList] ++ ["transforms.v2.js".toList] := by
      decide
    rw [hscript, ← List.append_assoc] at e
    obtain ⟨-, e⟩ := List.append_inj' e rfl
    cases e
  · exact List.append_ne_nil_of_left_ne_nil (List.append_ne_nil_of_left_ne_nil (by decide) _) _

/-- References to the remote template are told under such a label. -/
lemma RemoteLoader.wellFormed_check : Returns AllWellFormed (check.run site files paths) := by
  have hid : IsId "distill_remote_loader_enabled" := by decide
  refine (Returns.any _).bind fun allowed _ => ?_
  split
  · exact .pure allWellFormed_nil
  refine Returns.bind (P := fun places => ∀ path ∈ places, label site.root path ≠ []) ?_ ?_
  · refine (Returns.any _).bind fun roots _ => .pure fun path hpath => ?_
    obtain ⟨place, -, rfl⟩ := List.mem_map.1 (List.mem_of_mem_filter (List.mem_eraseDups.1 hpath))
    exact label_ne_nil site.root place
  · intro places hplaces
    refine Returns.flatten fun path hpath notices findings h => ?_
    rw [runFrom_runtimeFindings] at h
    cases h
    refine allWellFormed_map fun line hline => ?_
    exact ⟨hid, hplaces path hpath,
      Lines.one_le_of_mem_numbered (List.mem_of_mem_filter hline)⟩

/-- An override is told at the first line of the file that shadows one of the theme. -/
lemma Overrides.wellFormed_check : Returns AllWellFormed (check.run site files paths) := by
  have hid : IsId "core_override_drift" := by decide
  have hfiles : ∀ file ∈ themeFiles, file ≠ [] := by decide
  refine (Returns.any _).bind fun loaded _ => ?_
  split
  · split
    · refine .pure (allWellFormed_map fun file hfile => ?_)
      exact ⟨hid, hfiles file (List.mem_of_mem_filter hfile), Int.le_refl 1⟩
    · exact .pure allWellFormed_nil
  · exact .pure allWellFormed_nil

/-- Whatever a check finds has an identifier, a file and a line. -/
theorem wellFormed_of_check (hfile : site.settings.configFile ≠ [])
    (hpaths : ∀ path ∈ paths, nameUnder site.root path ≠ []) :
    ∀ check ∈ Check.all, Returns AllWellFormed (check.run site files paths) := by
  simp only [Check.all, List.forall_mem_cons]
  exact ⟨Manifests.wellFormed_check, Contract.wellFormed_check hfile, Legacy.wellFormed_assetCheck,
    Legacy.wellFormed_patternCheck hpaths, RemoteLoader.wellFormed_check,
    Overrides.wellFormed_check, fun _ h => absurd h List.not_mem_nil⟩

/-! ### Audits -/

namespace Site

/-- Whatever an audit finds has an identifier, a file and a line. -/
lemma wellFormed_audit (hdefault : site.settings = .default) (files : FileTree) :
    Returns AllWellFormed (site.audit Check.all files) := by
  have hfile : site.settings.configFile ≠ [] := by
    rw [hdefault]
    decide
  refine Returns.bind (P := fun paths => ∀ path ∈ paths, nameUnder site.root path ≠ []) ?_ ?_
  · intro notices paths hc
    rw [runFrom_candidates] at hc
    exact nameUnder_ne_nil hdefault hc
  · intro paths hpaths
    refine Returns.flatten fun check hcheck => ?_
    refine Returns.tryCatch ?_ fun e => ?_
    · exact (wellFormed_of_check hfile hpaths check hcheck).bind fun findings hfindings =>
        (Returns.any _).bind fun _ _ => .pure hfindings
    · split
      · exact (Returns.any _).bind fun _ _ => .pure allWellFormed_nil
      · exact .throw e

/-- **With the usual settings an audit comes to its end** unless its catalog ends the program, and
what it finds has identifiers, files and lines. -/
theorem audit_total (hdefault : site.settings = .default) (hcatalog : ¬ site.catalog.Raises .exit)
    (files : FileTree) (notices : List Notice) :
    ∃ findings, (runFrom (site.audit Check.all files) notices).1 = .ok findings ∧
      AllWellFormed findings := by
  obtain ⟨paths, hc⟩ := exists_candidates hdefault files
  have hcandidates := (runFrom_candidates site files notices).trans hc
  obtain ⟨found, haudit, -⟩ :=
    runFrom_audit (contained_of_check hcatalog) hcandidates
  exact ⟨found.flatten, haudit, wellFormed_audit hdefault files notices _ haudit⟩

end Site

end SiteAudit
