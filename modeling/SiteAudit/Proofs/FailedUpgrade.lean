import SiteAudit.Proofs.Checks
import SiteAudit.Proofs.Order
import SiteAudit.Proofs.Transform

/-!
# Upgrades that fail

With the usual settings an upgrade fails for one reason only beside its mode: a configuration of
which no transform can be made (`Site.preview_eq_error`). The configuration is the first of the
candidate files (`Site.head?_candidatesOf`), so that nothing has been written by then
(`Site.applyCodemods_failure`).
-/

namespace SiteAudit

namespace Codemod

variable {m : Yaml.Memory} {root path : Path} {configFile : Text} {files : FileTree}

/-- A file of which nothing can be made is left as it is. -/
lemma rewritten_of_error {e : Failure} (h : outcomeOf m root configFile files path = .error e) :
    rewritten m root configFile files path = files := by
  rcases rewritten_cases m root configFile files path with ⟨-, hsame⟩ | ⟨o, _, _, ho, -⟩
  · exact hsame
  · obtain ⟨hbelow, content, htext, htransform, -⟩ := rewriteOf?_eq_some.1 ho
    unfold outcomeOf at h
    rw [if_neg (by simpa [Option.isSome_iff_ne_none] using hbelow), htext] at h
    dsimp only at h
    rw [htransform] at h
    cases h

/-- Changes of files fail before anything is written if the first one does. -/
lemma runFrom_mapM_applyTo_error {e : Failure} (dryRun : Bool) (paths : List Path) {p : Progress}
    (h : outcomeOf m root configFile p.files path = .error e) :
    ∃ p', runFrom ((path :: paths).mapM (applyTo m root configFile dryRun)) p = (.error e, p') ∧
      p'.files = p.files := by
  obtain ⟨notices, hone⟩ := runFrom_applyTo m root configFile dryRun path p
  rw [h, rewritten_of_error h, ite_self] at hone
  refine ⟨⟨p.files, notices⟩, ?_, rfl⟩
  rw [runFrom_mapM_cons, hone]

end Codemod

namespace Site
open Codemod

variable {site : Site} {files : FileTree}

/-! ### The configuration -/

/-- Where the configuration is. -/
def configPath (site : Site) : Path := site.root.joinText site.settings.configFile

/-- The configuration is a candidate file with a text of which no transform can be made. -/
def Unprocessable (site : Site) (files : FileTree) (cause : CompletionError) : Prop :=
  ∃ paths content, site.candidatesOf files = .ok paths ∧ site.configPath ∈ paths ∧
    textAt? files site.configPath = some content ∧
    transform site.memory site.settings.configFile site.settings.configFile content = .error cause

/-- A configuration is unprocessable for one reason only. -/
lemma Unprocessable.unique {cause cause' : CompletionError} (h : site.Unprocessable files cause)
    (h' : site.Unprocessable files cause') : cause = cause' := by
  obtain ⟨_, content, -, -, htext, h⟩ := h
  obtain ⟨_, content', -, -, htext', h'⟩ := h'
  cases htext.symm.trans htext'
  cases h.symm.trans h'
  rfl

/-- The name of the configuration is that of no other file. -/
lemma nameUnder_eq_configFile (hdefault : site.settings = .default) (names : List Text) :
    nameUnder site.root (site.root.join ⟨[], names⟩) = site.settings.configFile ↔
      site.root.join ⟨[], names⟩ = site.configPath := by
  have hname : ∀ names, Path.text ⟨[], names⟩ = site.settings.configFile ↔
      names = [site.settings.configFile] := by
    rw [hdefault]
    exact fun names => Path.text_eq_iff (by decide) (by decide)
  have hpath : site.configPath = site.root.join ⟨[], [site.settings.configFile]⟩ := by
    unfold configPath
    rw [hdefault]
    rfl
  rw [nameUnder_join, hname, hpath, join_inj]

/-- Of the candidate files only the configuration can make an upgrade fail. -/
lemma outcomeOf_eq_error (hdefault : site.settings = .default) {paths : List Path} {path : Path}
    {e : Failure} (hc : site.candidatesOf files = .ok paths) (hmem : path ∈ paths) :
    outcomeOf site.memory site.root site.settings.configFile files path = .error e ↔
      path = site.configPath ∧ ∃ cause, e = .completion cause ∧ ∃ content,
        textAt? files path = some content ∧
        transform site.memory site.settings.configFile site.settings.configFile content =
          .error cause := by
  obtain ⟨taken, -, -, rfl⟩ := Discovery.locate_eq_ok (runFrom_of_fst hc)
  obtain ⟨names, -, rfl⟩ := List.mem_map.1 hmem
  have hconfig := nameUnder_eq_configFile hdefault names
  unfold outcomeOf
  rw [relativeTo?_join, if_neg (by simp)]
  cases htext : textAt? files (site.root.join ⟨[], names⟩) with
  | none => simp
  | some content =>
    dsimp only
    -- a transform completes, and so may fail, under the name of the configuration only
    by_cases hname : nameUnder site.root (site.root.join ⟨[], names⟩) = site.settings.configFile
    · rw [hname, and_iff_right (hconfig.1 hname)]
      cases htransform : transform site.memory site.settings.configFile site.settings.configFile
        content with
      | error cause =>
        constructor
        · intro h
          cases h
          exact ⟨cause, rfl, content, rfl, htransform⟩
        · rintro ⟨cause', rfl, _, ⟨⟩, h⟩
          cases htransform.symm.trans h
          rfl
      | ok o =>
        refine iff_of_false (fun h => by cases h) ?_
        rintro ⟨cause, -, _, ⟨⟩, h⟩
        cases htransform.symm.trans h
    · rw [transform_eq site.memory hname]
      exact iff_of_false (fun h => by cases h) fun h => hname (hconfig.2 h.1)

/-- An upgrade fails exactly if no transform can be made of the configuration. -/
lemma preview_eq_error (hdefault : site.settings = .default) {e : Failure} :
    site.preview files = .error e ↔
      ∃ cause, e = .completion cause ∧ site.Unprocessable files cause := by
  obtain ⟨paths, hc⟩ := exists_candidates hdefault files
  have hfails : ∀ e, (∃ path ∈ paths,
      outcomeOf site.memory site.root site.settings.configFile files path = .error e) ↔
        ∃ cause, e = .completion cause ∧ site.Unprocessable files cause := by
    intro e
    constructor
    · rintro ⟨path, hmem, hpath⟩
      obtain ⟨rfl, cause, rfl, content, htext, h⟩ :=
        (outcomeOf_eq_error hdefault hc hmem).1 hpath
      exact ⟨cause, rfl, paths, content, hc, hmem, htext, h⟩
    · rintro ⟨cause, rfl, paths', content, hc', hmem, htext, h⟩
      cases hc.symm.trans hc'
      exact ⟨_, hmem, (outcomeOf_eq_error hdefault hc hmem).2 ⟨rfl, cause, rfl, content, htext, h⟩⟩
  rw [preview_eq, hc, ← hfails]
  dsimp only
  cases hall : paths.mapM (outcomeOf site.memory site.root site.settings.configFile files) with
  | error e' =>
    obtain ⟨path, hmem, hpath⟩ := mapM_eq_error hall
    constructor
    · intro h
      cases h
      exact ⟨path, hmem, hpath⟩
    · -- the failing file is the configuration in either case
      rintro ⟨path', hmem', hpath'⟩
      obtain ⟨rfl, -⟩ := (outcomeOf_eq_error hdefault hc hmem).1 hpath
      obtain ⟨rfl, -⟩ := (outcomeOf_eq_error hdefault hc hmem').1 hpath'
      cases hpath.symm.trans hpath'
      rfl
  | ok outcomes =>
    refine iff_of_false (fun h => by cases h) ?_
    rintro ⟨path, hmem, hpath⟩
    obtain ⟨outcome, hok⟩ := exists_mapM_eq_ok.1 ⟨_, hall⟩ path hmem
    cases hpath.symm.trans hok

/-- An upgrade comes to its preview, and leaves the shape of the tree. -/
lemma runFrom_upgrade (site : Site) (dryRun : Bool) (p : Progress) :
    ∃ p', runFrom (site.applyCodemods true dryRun) p = (site.preview p.files, p') ∧
      ∀ applied, site.preview p.files = .ok applied → p'.files.SameShape p.files ∧
        p'.files.entries.map Prod.fst = p.files.entries.map Prod.fst := by
  cases dryRun with
  | true =>
    obtain ⟨notices, h⟩ := runFrom_dryRun site p
    exact ⟨_, h, fun _ _ => ⟨fun _ => rfl, rfl⟩⟩
  | false =>
    obtain ⟨p', h, hfiles⟩ := runFrom_realRun site p
    refine ⟨p', h, fun applied hok => ?_⟩
    obtain ⟨paths, -, hc, -, -⟩ := preview_eq_ok.1 hok
    rw [hfiles paths applied hc hok]
    exact ⟨sameShape_rewrittenAll _ _ _ _ _,
      (rewritten_rewrittenAll _ _ _ (candidates_apart hc)).keys⟩

/-! ### The first candidate -/

/-- By default only the configuration has the first rank. -/
lemma rank_default_eq_zero {names : List Text} :
    Discovery.rank Discovery.defaultGlobs names = 0 ↔ names = [Settings.defaultConfigFile] := by
  have hconfig : Discovery.matchesFile
      [⟨Glob.within [] [.name (Glob.literal "_config.yml")], false⟩] names = true ↔
        names = [Settings.defaultConfigFile] := by
    refine Iff.trans ?_ Discovery.matchesNames_config
    simp [Discovery.matchesFile]
  rw [← hconfig]
  unfold Discovery.rank Discovery.defaultGlobs
  rw [List.findIdx_cons]
  cases Discovery.matchesFile
      [⟨Glob.within [] [.name (Glob.literal "_config.yml")], false⟩] names with
  | true => exact iff_of_true rfl rfl
  | false => exact iff_of_false (Nat.succ_ne_zero _) Bool.false_ne_true

/-- If the configuration is a candidate, it is the first one. -/
lemma head?_candidatesOf (hdefault : site.settings = .default) {paths : List Path}
    (hc : site.candidatesOf files = .ok paths) (hmem : site.configPath ∈ paths) :
    ∃ rest, paths = site.configPath :: rest := by
  obtain ⟨taken, htaken, -, -, hordered⟩ := candidatesOf_ordered hdefault files
  cases htaken.symm.trans hc
  have hpath : site.configPath = site.root.join ⟨[], [Settings.defaultConfigFile]⟩ := by
    unfold configPath
    rw [hdefault]
    rfl
  rw [hpath] at hmem ⊢
  obtain ⟨names, hnames, e⟩ := List.mem_map.1 hmem
  obtain rfl := join_inj.1 e
  cases taken with
  | nil => exact absurd hnames List.not_mem_nil
  | cons first rest =>
    refine ⟨rest.map fun names => site.root.join ⟨[], names⟩, ?_⟩
    rcases List.mem_cons.1 hnames with rfl | hrest
    · rfl
    · -- whatever comes before it has no higher rank
      have hle := ((List.pairwise_cons.1 hordered).1 _ hrest).rank_le
      rw [rank_default_eq_zero.2 rfl, Nat.le_zero, rank_default_eq_zero] at hle
      rw [hle]
      rfl

/-! ### Failures -/

/-- An upgrade that fails writes nothing. -/
lemma files_of_failure (hdefault : site.settings = .default) {dryRun : Bool} {p p' : Progress}
    {e : Failure} (h : runFrom (site.applyCodemods true dryRun) p = (.error e, p')) :
    p'.files = p.files := by
  obtain ⟨after, hrun, -⟩ := runFrom_upgrade site dryRun p
  have hpreview : site.preview p.files = .error e := congrArg Prod.fst (hrun.symm.trans h)
  obtain ⟨cause, rfl, paths, content, hc, hmem, htext, htransform⟩ :=
    (preview_eq_error hdefault).1 hpreview
  have hconfig :=
    (outcomeOf_eq_error hdefault hc hmem).2 ⟨rfl, cause, rfl, content, htext, htransform⟩
  obtain ⟨rest, rfl⟩ := head?_candidatesOf hdefault hc hmem
  -- the first of the candidates fails already
  obtain ⟨p'', hfirst, hfiles⟩ := runFrom_mapM_applyTo_error dryRun rest
    (p := ⟨p.files, (runFrom (site.candidates p.files) p.notices).2⟩) hconfig
  rw [runFrom_applyCodemods, hc] at h
  dsimp only at h
  rw [hfirst] at h
  cases h
  exact hfiles

/-- **An upgrade that fails leaves the files as they were.** With the usual settings it fails
exactly if its mode is not offered, or if the configuration is a candidate file with a text of which
no transform can be made. -/
theorem applyCodemods_failure (hdefault : site.settings = .default) (safe dryRun : Bool)
    (p : Progress) :
    (∀ e, (runFrom (site.applyCodemods safe dryRun) p).1 = .error e ↔
      safe = false ∧ e = .unsupportedMode ∨
        safe = true ∧ ∃ cause, e = .completion cause ∧ site.Unprocessable p.files cause) ∧
    ∀ e p', runFrom (site.applyCodemods safe dryRun) p = (.error e, p') → p'.files = p.files := by
  cases safe with
  | false =>
    rw [runFrom_applyCodemods_notSafe]
    refine ⟨fun e => ?_, fun e p' h => ?_⟩
    · simp [eq_comm]
    · cases h
      rfl
  | true =>
    refine ⟨fun e => ?_, fun e p' h => files_of_failure hdefault h⟩
    obtain ⟨p', hrun, -⟩ := runFrom_upgrade site dryRun p
    rw [hrun]
    dsimp only
    rw [preview_eq_error hdefault]
    simp

/-- Files of a site: the configuration has a truth value that is none, and a template has an old
class name. -/
def unsuitableFiles : FileTree :=
  .ofFiles [(.ofText "/site/_includes/a.html", Utf8.encode "font-weight-bold"),
    (.ofText "/site/_config.yml", Utf8.encode "a: !!bool x\n")]

/-- The upgrade fails because of the configuration, and the template stays as it is. -/
theorem applyCodemods_failure_unsuitable :
    (usual (.ofText "/site")).settings = .default ∧
      (runFrom ((usual (.ofText "/site")).applyCodemods true false) ⟨unsuitableFiles, []⟩).1 =
        .error (.completion (.unsuitable (.boolean "x"))) ∧
      (runFrom ((usual (.ofText "/site")).applyCodemods true false) ⟨unsuitableFiles, []⟩).2.files =
        unsuitableFiles := by
  have hdefault : (usual (.ofText "/site")).settings = .default := rfl
  have hfails : (runFrom ((usual (.ofText "/site")).applyCodemods true false)
      ⟨unsuitableFiles, []⟩).1 = .error (.completion (.unsuitable (.boolean "x"))) := by
    decide +kernel
  obtain ⟨-, hfiles⟩ := applyCodemods_failure hdefault true false ⟨unsuitableFiles, []⟩
  exact ⟨hdefault, hfails, hfiles _ _ (runFrom_of_fst hfails)⟩

end Site

end SiteAudit
