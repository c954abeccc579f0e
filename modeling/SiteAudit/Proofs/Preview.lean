import SiteAudit.Proofs.Audit
import SiteAudit.Proofs.Codemod
import SiteAudit.Proofs.Discovery
import SiteAudit.Proofs.Transform
import SiteAudit.Upgrade

/-!
# Previews

What an upgrade does to a site can be told from the files as they are (`Site.preview`). A dry run
finds this out and touches nothing; a real one comes to the same, although it writes while it goes
on, because the candidate files lie at different places, and although it reads the configuration
once more, unless memory leaves that in another order (`applyCodemods_preview`).
-/

namespace SiteAudit.Site
open Codemod

variable {site : Site} {files files' : FileTree} {paths : List Path} {m : Yaml.Memory}

/-! ### Candidates -/

/-- The candidate files, as the files are. -/
def candidatesOf (site : Site) (files : FileTree) : Except Failure (List Path) :=
  (runFrom (site.candidates files) []).1

/-- Notices that have been given before do not matter. -/
lemma runFrom_candidates (site : Site) (files : FileTree) (notices : List Notice) :
    (runFrom (site.candidates files) notices).1 = site.candidatesOf files :=
  Discovery.steady_locate _ _ _ _ notices []

/-- The same files are candidates in a tree that differs in the contents of files only. -/
lemma candidatesOf_of_erase (he : files'.erase = files.erase) :
    site.candidatesOf files' = site.candidatesOf files := by
  unfold candidatesOf candidates
  rw [← Discovery.locate_erase files', he, Discovery.locate_erase]

/-- Memory has no part in which files are candidates. -/
lemma candidatesOf_memory (site : Site) (m : Yaml.Memory) (files : FileTree) :
    { site with memory := m }.candidatesOf files = site.candidatesOf files := rfl

/-- The candidate files are at different places. -/
lemma candidates_apart (hc : site.candidatesOf files = .ok paths) :
    paths.Pairwise (Apart files) := by
  obtain ⟨taken, hnodup, hshown, rfl⟩ := Discovery.locate_eq_ok (runFrom_of_fst hc)
  rw [List.pairwise_map]
  refine hnodup.imp_of_mem fun hx hy hne place hplace => ?_
  exact FileTree.place_join_ne (Discovery.not_dots_of_isHidden (hshown _ hx))
    (Discovery.not_dots_of_isHidden (hshown _ hy)) hne hplace

/-- They lie below the root. -/
lemma candidates_below (hc : site.candidatesOf files = .ok paths) :
    ∀ path ∈ paths, (path.relativeTo? site.root).isSome := by
  obtain ⟨taken, -, -, rfl⟩ := Discovery.locate_eq_ok (runFrom_of_fst hc)
  intro path hpath
  obtain ⟨names, -, rfl⟩ := List.mem_map.1 hpath
  rw [relativeTo?_join]
  rfl

/-! ### Upgrades -/

/-- What the candidate files come to, as the files are. -/
def preview (site : Site) (files : FileTree) : Except Failure Applied := do
  let paths ← site.candidatesOf files
  let outcomes ← paths.mapM (outcomeOf site.memory site.root site.settings.configFile files)
  return .ofOutcomes outcomes

/-- A preview succeeds if candidates are found and each has an outcome. -/
lemma preview_eq_ok {applied : Applied} :
    site.preview files = .ok applied ↔
      ∃ paths outcomes, site.candidatesOf files = .ok paths ∧
        paths.mapM (outcomeOf site.memory site.root site.settings.configFile files) = .ok outcomes ∧
        applied = .ofOutcomes outcomes := by
  unfold preview
  rw [bind_eq_ok]
  refine exists_congr fun paths => ?_
  rw [bind_eq_ok]
  constructor
  · rintro ⟨hc, outcomes, ho, h⟩
    exact ⟨outcomes, hc, ho, (Except.ok.inj h).symm⟩
  · rintro ⟨outcomes, hc, ho, rfl⟩
    exact ⟨hc, outcomes, ho, rfl⟩

/-- Where the configuration is the one candidate file and holds nothing to replace, an upgrade
comes to its completion. -/
lemma preview_of_config (site : Site) (path : Path) {content : Text} {r : Namespace.Completion}
    (hcandidates : site.candidatesOf files = .ok [path])
    (hbelow : (path.relativeTo? site.root).isSome)
    (hname : nameUnder site.root path = site.settings.configFile)
    (htext : textAt? files path = some content)
    (hclean : Replacement.applyAll Replacement.safe content = (content, []))
    (h : Namespace.complete m content = .ok r) :
    { site with memory := m }.preview files = .ok (.ofOutcomes [if r.content = content then .same
      else .changed ⟨site.settings.configFile, [completionId]⟩]) := by
  have htransform := transform_config_of_clean hname hclean h
  refine preview_eq_ok.2 ⟨_, _, (candidatesOf_memory site m files).trans hcandidates, ?_, rfl⟩
  rw [List.mapM_cons, outcomeOf_of_transform hbelow htext htransform, hname]
  by_cases hsame : r.content = content
  · dsimp only
    rw [if_pos hsame, if_pos hsame]
    rfl
  · dsimp only
    rw [if_neg hsame, if_neg hsame, if_neg hsame]
    rfl

/-- Only the safe replacements are made. -/
lemma runFrom_applyCodemods_notSafe (site : Site) (dryRun : Bool) (p : Progress) :
    runFrom (site.applyCodemods false dryRun) p = (.error .unsupportedMode, p) := rfl

/-- A run first looks for the candidate files and then changes them one after the other. -/
lemma runFrom_applyCodemods (site : Site) (dryRun : Bool) (p : Progress) :
    runFrom (site.applyCodemods true dryRun) p =
      match site.candidatesOf p.files with
      | .error e => (.error e, ⟨p.files, (runFrom (site.candidates p.files) p.notices).2⟩)
      | .ok paths =>
        match runFrom (paths.mapM (applyTo site.memory site.root site.settings.configFile dryRun))
            ⟨p.files, (runFrom (site.candidates p.files) p.notices).2⟩ with
        | (.error e, p') => (.error e, p')
        | (.ok outcomes, p') => (.ok (.ofOutcomes outcomes), p') := by
  have hsurvey : site.applyCodemods true dryRun = survey site.candidates >>= fun paths =>
      Codemod.applyAll site.memory site.root site.settings.configFile dryRun paths := rfl
  rw [hsurvey, runFrom_bind, runFrom_survey, runFrom_candidates]
  cases site.candidatesOf p.files with
  | error e => rfl
  | ok paths =>
    dsimp only
    unfold Codemod.applyAll
    rw [runFrom_bind]
    rcases runFrom (paths.mapM (applyTo site.memory site.root site.settings.configFile dryRun))
      ⟨p.files, (runFrom (site.candidates p.files) p.notices).2⟩ with ⟨e | outcomes, p'⟩
    · rfl
    · rfl

/-- A preview takes the outcomes of the candidate files together. -/
lemma preview_eq (site : Site) (files : FileTree) :
    site.preview files =
      match site.candidatesOf files with
      | .error e => .error e
      | .ok paths =>
        match paths.mapM (outcomeOf site.memory site.root site.settings.configFile files) with
        | .error e => .error e
        | .ok outcomes => .ok (.ofOutcomes outcomes) := by
  unfold preview
  cases site.candidatesOf files with
  | error e => rfl
  | ok paths =>
    dsimp only [bind, Except.bind]
    cases paths.mapM (outcomeOf site.memory site.root site.settings.configFile files) <;> rfl

/-- A dry run finds out what the files tell, and leaves them as they are. -/
lemma runFrom_dryRun (site : Site) (p : Progress) :
    ∃ notices, runFrom (site.applyCodemods true true) p =
      (site.preview p.files, ⟨p.files, notices⟩) := by
  rw [runFrom_applyCodemods, preview_eq]
  cases site.candidatesOf p.files with
  | error e => exact ⟨_, rfl⟩
  | ok paths =>
    obtain ⟨notices, hrun⟩ := runFrom_mapM_dry site.memory site.root site.settings.configFile paths
      ⟨p.files, (runFrom (site.candidates p.files) p.notices).2⟩
    dsimp only
    rw [hrun]
    dsimp only
    cases paths.mapM (outcomeOf site.memory site.root site.settings.configFile p.files) with
    | error e => exact ⟨notices, rfl⟩
    | ok outcomes => exact ⟨notices, rfl⟩

/-- So does a run that writes, which leaves the candidate files rewritten if it comes to its end. -/
lemma runFrom_realRun (site : Site) (p : Progress) :
    ∃ p', runFrom (site.applyCodemods true false) p = (site.preview p.files, p') ∧
      ∀ paths applied, site.candidatesOf p.files = .ok paths →
        site.preview p.files = .ok applied →
        p'.files = rewrittenAll site.memory site.root site.settings.configFile p.files paths := by
  rw [runFrom_applyCodemods, preview_eq]
  cases hc : site.candidatesOf p.files with
  | error e => exact ⟨_, rfl, fun _ _ h => by cases h⟩
  | ok paths =>
    obtain ⟨p', hrun, hfiles⟩ := runFrom_mapM_applyTo site.memory site.root site.settings.configFile
      (p := ⟨p.files, (runFrom (site.candidates p.files) p.notices).2⟩) (candidates_apart hc)
    dsimp only at hfiles ⊢
    rw [hrun]
    dsimp only
    cases ho : paths.mapM (outcomeOf site.memory site.root site.settings.configFile p.files) with
    | error e => exact ⟨p', rfl, fun _ _ _ h => by cases h⟩
    | ok outcomes =>
      refine ⟨p', rfl, fun paths' _ h _ => ?_⟩
      cases h
      exact hfiles outcomes ho

/-! ### Upgrades in two memories -/

/-- The other memory leaves in the same order what a transform reads of each candidate file. -/
def SameOrder (site : Site) (m : Yaml.Memory) (files : FileTree) : Prop :=
  ∀ paths, site.candidatesOf files = .ok paths → ∀ path ∈ paths, ∀ content,
    textAt? files path = some content →
      Codemod.SameOrder site.memory m site.settings.configFile (nameUnder site.root path) content

/-- Without a configuration among the candidate files it does so. -/
lemma sameOrder_of_no_config (h : ∀ paths, site.candidatesOf files = .ok paths →
    ∀ path ∈ paths, nameUnder site.root path ≠ site.settings.configFile) :
    site.SameOrder m files :=
  fun paths hc path hpath _ _ hfile => absurd hfile (h paths hc path hpath)

/-- One memory leaves it as it does. -/
lemma SameOrder.refl (site : Site) (files : FileTree) : site.SameOrder site.memory files :=
  fun _ _ _ _ _ _ => Codemod.SameOrder.refl _ _ _ _

/-- A run is then the same in both of them. -/
lemma runFrom_applyCodemods_congr {p : Progress} (h : site.SameOrder m p.files)
    (safe dryRun : Bool) :
    runFrom ({ site with memory := m }.applyCodemods safe dryRun) p =
      runFrom (site.applyCodemods safe dryRun) p := by
  cases safe with
  | false => rw [runFrom_applyCodemods_notSafe, runFrom_applyCodemods_notSafe]
  | true =>
    rw [runFrom_applyCodemods, runFrom_applyCodemods, candidatesOf_memory]
    cases hc : site.candidatesOf p.files with
    | error e => rfl
    | ok paths =>
      have hrun := runFrom_mapM_congr
        (p := ⟨p.files, (runFrom (site.candidates p.files) p.notices).2⟩) (candidates_apart hc)
        (fun path hpath content htext => transform_congr (h paths hc path hpath content htext))
        dryRun
      dsimp only
      rw [hrun]
      rfl

/-- **A dry run is an exact preview, and a run that writes does nothing else.** Both fail alike or
tell the same, in one memory or in two that leave what is read in one order. A dry run leaves the
files as they are; after the other one each candidate file of whose text a transform makes another
text holds that text in UTF-8, and everything else is as it was. The candidate files that are told
to be changed are those that are rewritten, in their order, and those that are told to be skipped
are those that have no text. -/
theorem applyCodemods_preview (site : Site) (safe : Bool) (p : Progress) :
    (∀ m, site.SameOrder m p.files → (runFrom (site.applyCodemods safe true) p).1 =
      (runFrom ({ site with memory := m }.applyCodemods safe false) p).1) ∧
    (runFrom (site.applyCodemods safe true) p).2.files = p.files ∧
    ∀ applied p', runFrom (site.applyCodemods safe false) p = (.ok applied, p') →
      ∃ paths, (runFrom (site.candidates p.files) p.notices).1 = .ok paths ∧
        Rewritten site.memory site.root site.settings.configFile paths p.files p'.files ∧
        (applied.changes = paths.filterMap fun path =>
          (rewriteOf? site.memory site.root site.settings.configFile p.files path).map fun o =>
            ⟨nameUnder site.root path, o.fired⟩) ∧
        applied.skipped =
          (paths.filter fun path => (textAt? p.files path).isNone).map (nameUnder site.root) := by
  cases safe with
  | false =>
    simp only [runFrom_applyCodemods_notSafe]
    exact ⟨fun _ _ => trivial, trivial, fun _ _ h => by cases h⟩
  | true =>
    obtain ⟨notices, hdry⟩ := runFrom_dryRun site p
    obtain ⟨p', hreal, hfiles⟩ := runFrom_realRun site p
    refine ⟨fun m hsame => ?_, by rw [hdry], fun applied p'' h => ?_⟩
    · rw [runFrom_applyCodemods_congr hsame, hdry, hreal]
    obtain ⟨hok, rfl⟩ := Prod.ext_iff.1 (hreal.symm.trans h)
    obtain ⟨paths, outcomes, hc, ho, rfl⟩ := preview_eq_ok.1 hok
    refine ⟨paths, (runFrom_candidates site p.files p.notices).trans hc, ?_,
      changes_eq_filterMap ho, skipped_eq_filter ho⟩
    rw [hfiles paths _ hc hok]
    exact rewritten_rewrittenAll _ _ _ (candidates_apart hc)

/-- Files of a site: an old class name in the one, and bytes that are no text in the other. -/
def mixedFiles : FileTree :=
  .ofFiles [(.ofText "/site/_includes/a.html", Utf8.encode "font-weight-bold"),
    (.ofText "/site/_includes/b.html", [0xff])]

/-- The one file is rewritten and the other one skipped, and the dry run tells so, also in another
memory. -/
theorem applyCodemods_preview_mixed :
    (∀ m, (runFrom ({ usual (.ofText "/site") with memory := m }.applyCodemods true true)
        ⟨mixedFiles, []⟩).1 =
      .ok ⟨[⟨"_includes/a.html", ["font_weight_bold"]⟩], ["_includes/b.html"]⟩) ∧
      (runFrom ((usual (.ofText "/site")).applyCodemods true true) ⟨mixedFiles, []⟩).2.files =
        mixedFiles ∧
      ∃ p', runFrom ((usual (.ofText "/site")).applyCodemods true false) ⟨mixedFiles, []⟩ =
          (.ok ⟨[⟨"_includes/a.html", ["font_weight_bold"]⟩], ["_includes/b.html"]⟩, p') ∧
        p'.files.read (.ofText "/site/_includes/a.html") = .ok (Utf8.encode "font-bold") ∧
        p'.files.entry? ["site", "_includes", "b.html"] = some (.file [0xff]) := by
  have hreal : (runFrom ((usual (.ofText "/site")).applyCodemods true false) ⟨mixedFiles, []⟩).1 =
      .ok ⟨[⟨"_includes/a.html", ["font_weight_bold"]⟩], ["_includes/b.html"]⟩ := by decide +kernel
  have hpaths : (runFrom ((usual (.ofText "/site")).candidates mixedFiles) []).1 =
      .ok [.ofText "/site/_includes/a.html", .ofText "/site/_includes/b.html"] := by decide +kernel
  have ha : rewriteOf? .inOrder (.ofText "/site") "_config.yml" mixedFiles
      (.ofText "/site/_includes/a.html") = some ⟨"font-bold", ["font_weight_bold"], false⟩ := by
    decide +kernel
  have hb : ∀ path ∈ ([.ofText "/site/_includes/a.html", .ofText "/site/_includes/b.html"] :
      List Path), rewriteOf? .inOrder (.ofText "/site") "_config.yml" mixedFiles path ≠ none →
        mixedFiles.place path ≠ .ok ["site", "_includes", "b.html"] := by decide +kernel
  have hconfig : ∀ path ∈ ([.ofText "/site/_includes/a.html", .ofText "/site/_includes/b.html"] :
      List Path), nameUnder (.ofText "/site") path ≠ "_config.yml" := by decide +kernel
  have hsame (m : Yaml.Memory) :
      { usual (.ofText "/site") with memory := m }.SameOrder .inOrder mixedFiles :=
    sameOrder_of_no_config fun paths hc => by
      cases hpaths.symm.trans hc
      exact hconfig
  obtain ⟨-, hdry, hafter⟩ :=
    applyCodemods_preview (usual (.ofText "/site")) true ⟨mixedFiles, []⟩
  obtain ⟨paths, hc, hrewritten, -, -⟩ := hafter _ _ (runFrom_of_fst hreal)
  cases hpaths.symm.trans hc
  refine ⟨fun m => ?_, hdry, _, runFrom_of_fst hreal, ?_, ?_⟩
  · obtain ⟨halike, -, -⟩ := applyCodemods_preview
      { usual (.ofText "/site") with memory := m } true ⟨mixedFiles, []⟩
    exact (halike .inOrder (hsame m)).trans hreal
  · exact hrewritten.anew _ (List.mem_cons_self ..) _ ha
  · exact (hrewritten.same _ hb).trans (by decide +kernel)

/-- Files of a site: a configuration with a set, one member of which is known by its address. -/
def unsteadyFiles : FileTree :=
  .ofFiles [(.ofText "/site/_config.yml", Utf8.encode Namespace.unsteady)]

/-- These files come to what a completion of the configuration comes to. -/
lemma preview_unsteadyFiles {r : Namespace.Completion}
    (h : Namespace.complete m Namespace.unsteady = .ok r) :
    { usual (.ofText "/site") with memory := m }.preview unsteadyFiles =
      .ok (.ofOutcomes [if r.content = Namespace.unsteady then .same
        else .changed ⟨"_config.yml", [completionId]⟩]) :=
  preview_of_config (usual (.ofText "/site")) (.ofText "/site/_config.yml")
    (by decide +kernel) (by decide +kernel) (by decide +kernel) (by decide +kernel)
    (by decide +kernel) h

/-- Where the two memories leave that set in different orders, nothing is rewritten in the dry run,
and the configuration is in the other one. -/
theorem applyCodemods_preview_unsteady :
    (runFrom ({ usual (.ofText "/site") with memory := Namespace.turning }.applyCodemods true true)
        ⟨unsteadyFiles, []⟩).1 = .ok ⟨[], []⟩ ∧
      (runFrom ((usual (.ofText "/site")).applyCodemods true false) ⟨unsteadyFiles, []⟩).1 =
        .ok ⟨[⟨"_config.yml", [completionId]⟩], []⟩ ∧
      ¬ { usual (.ofText "/site") with memory := Namespace.turning }.SameOrder .inOrder
        unsteadyFiles := by
  have hdry : (runFrom ({ usual (.ofText "/site") with
      memory := Namespace.turning }.applyCodemods true true) ⟨unsteadyFiles, []⟩).1 =
        .ok ⟨[], []⟩ := by
    obtain ⟨notices, hrun⟩ := runFrom_dryRun
      { usual (.ofText "/site") with memory := Namespace.turning } ⟨unsteadyFiles, []⟩
    rw [hrun, preview_unsteadyFiles Namespace.fill_unsteady_turning, if_pos rfl]
    rfl
  have hreal : (runFrom ((usual (.ofText "/site")).applyCodemods true false)
      ⟨unsteadyFiles, []⟩).1 = .ok ⟨[⟨"_config.yml", [completionId]⟩], []⟩ := by
    obtain ⟨p', hrun, -⟩ := runFrom_realRun (usual (.ofText "/site")) ⟨unsteadyFiles, []⟩
    have hpreview := preview_unsteadyFiles Namespace.fill_unsteady_inOrder
    rw [if_neg Namespace.append_unsteady_ne] at hpreview
    rw [hrun]
    exact hpreview
  refine ⟨hdry, hreal, fun hsame => ?_⟩
  obtain ⟨halike, -, -⟩ := applyCodemods_preview
    { usual (.ofText "/site") with memory := Namespace.turning } true ⟨unsteadyFiles, []⟩
  cases hdry.symm.trans ((halike .inOrder hsame).trans hreal)

end SiteAudit.Site
