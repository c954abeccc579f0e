import SiteAudit.CommandLine.Session
import SiteAudit.Proofs.FailedUpgrade
import SiteAudit.Proofs.Reports

/-!
# How sessions end

A session on a site that is there ends with a code unless one of three things stops it (`Stops`): a
configuration of which no transform can be made, packages that end the program, and a directory in
the place of the report. The code tells whether the findings of an audit stand in the way
(`run_ending`).
-/

namespace SiteAudit

namespace Site
open Codemod Finding

variable {site : Site} {files : FileTree} {p : Progress}

/-! ### Results -/

/-- An audit with its report comes to a result unless a directory is in the place of the report. -/
lemma runFrom_reported (h : site.Stands p.files) (hcatalog : ¬ site.catalog.Raises .exit)
    (f : List Finding → Result) :
    ∃ findings, (runFrom (site.audit Check.all p.files) p.notices).1 = .ok findings ∧
      AllWellFormed findings ∧
      (runFrom (do
          let findings ← survey (site.audit Check.all)
          let _ ← site.writeReport findings
          return f findings) p).1 =
        if p.files.isDirectory site.reportPath then .error (.file ⟨.isDirectory, site.reportPath⟩)
        else .ok (f findings) := by
  obtain ⟨findings, haudit, hwell⟩ := audit_total h.settings hcatalog p.files p.notices
  refine ⟨findings, haudit, hwell, ?_⟩
  rw [runFrom_bind, runFrom_survey, haudit]
  dsimp only
  have hwrite : ∀ notices, (runFrom (site.writeReport findings) ⟨p.files, notices⟩).1 = _ :=
    fun notices => runFrom_writeReport findings h
  rw [runFrom_bind, runFrom_of_fst (hwrite _)]
  dsimp only
  by_cases hblocked : p.files.isDirectory site.reportPath = true
  · rw [if_pos hblocked, if_pos hblocked]
  · rw [if_neg hblocked, if_neg hblocked]
    rfl

/-- It comes to none if the catalog ends the program. -/
lemma runFrom_reported_of_raises (h : site.Stands p.files) (hcatalog : site.catalog.Raises .exit)
    (f : List Finding → Result) :
    (runFrom (do
        let findings ← survey (site.audit Check.all)
        let _ ← site.writeReport findings
        return f findings) p).1 = .error (.raised .exit) := by
  obtain ⟨paths, hc⟩ := exists_candidates h.settings p.files
  have haudit := runFrom_audit_of_raises hcatalog
    ((runFrom_candidates site p.files p.notices).trans hc)
  rw [runFrom_bind, runFrom_survey, haudit]

end Site

namespace CommandLine
open Codemod Finding Site

/-! ### Sites of sessions -/

namespace Environment

/-- The root that is chosen, or else the working directory. -/
def root (e : Environment) (choices : Choices) : Path :=
  (choices.root.map Path.ofText).getD e.surroundings.workingDirectory

/-- The site that a session is about. -/
def site (e : Environment) (choices : Choices) : Site :=
  e.surroundings.site (e.root choices) (e.probes choices)

/-- The root of the session is a directory. -/
def HasRoot (e : Environment) (choices : Choices) (files : FileTree) : Prop :=
  files.isDirectory (e.surroundings.workingDirectory.join (e.root choices)) = true

/-- The site of a session stands where its root does. -/
lemma stands_site {e : Environment} {choices : Choices} {files : FileTree}
    (h : e.HasRoot choices files) : (e.site choices).Stands files where
  settings := rfl
  root := FileTree.isDirectory_resolve h

end Environment

/-! ### Commands -/

variable {site : Site} {i : Invocation} {p : Progress} {command : Command}

/-- What stops a command on a site. -/
inductive Stops (site : Site) (files : FileTree) (command : Command) : Failure → Prop
  /-- Of the configuration no transform can be made. -/
  | config {cause : CompletionError} (happly : command = .apply)
      (h : site.Unprocessable files cause) : Stops site files command (.completion cause)
  /-- The packages end the program. -/
  | packages (hprocessed : command = .apply → ∀ cause, ¬ site.Unprocessable files cause)
      (h : site.catalog.Raises .exit) : Stops site files command (.raised .exit)
  /-- A directory is in the place of the report. -/
  | report (hprocessed : command = .apply → ∀ cause, ¬ site.Unprocessable files cause)
      (hcatalog : ¬ site.catalog.Raises .exit) (h : files.isDirectory site.reportPath = true) :
      Stops site files command (.file ⟨.isDirectory, site.reportPath⟩)

/-- Only one thing stops a command. -/
lemma Stops.unique {files : FileTree} {failure failure' : Failure}
    (h : Stops site files command failure) (h' : Stops site files command failure') :
    failure = failure' := by
  cases h with
  | config happly hcause =>
    cases h' with
    | config _ hcause' => rw [hcause.unique hcause']
    | packages hprocessed _ => exact absurd hcause (hprocessed happly _)
    | report hprocessed _ _ => exact absurd hcause (hprocessed happly _)
  | packages hprocessed hexits =>
    cases h' with
    | config happly hcause => exact absurd hcause (hprocessed happly _)
    | packages => rfl
    | report _ hcatalog _ => exact absurd hexits hcatalog
  | report hprocessed hcatalog _ =>
    cases h' with
    | config happly hcause => exact absurd hcause (hprocessed happly _)
    | packages _ hexits => exact absurd hexits hcatalog
    | report => rfl

/-- If nothing stops a command, its packages do not end the program. -/
lemma not_raises_of_not_stops {files : FileTree}
    (h : ∀ failure, ¬ Stops site files command failure) : ¬ site.catalog.Raises .exit := by
  intro hexits
  by_cases hconfig : command = .apply ∧ ∃ cause, site.Unprocessable files cause
  · obtain ⟨happly, cause, hcause⟩ := hconfig
    exact h _ (.config happly hcause)
  · exact h _ (.packages (fun happly cause hcause => hconfig ⟨happly, cause, hcause⟩) hexits)

/-- A result of a command as it should be. -/
structure Fits (site : Site) (p : Progress) (command : Command) (r : Result) : Prop where
  named : r.command = command.name
  versioned : r.toolVersion = version
  wellFormed : AllWellFormed r.findings
  audited : command = .audit →
    (runFrom (site.audit Check.all p.files) p.notices).1 = .ok r.findings

/-- The step fails because of what stops the command, or comes to a result if nothing does. -/
def Ends (site : Site) (p : Progress) (command : Command) (x : Change Result) : Prop :=
  (∃ failure, Stops site p.files command failure ∧ (runFrom x p).1 = .error failure) ∨
    (∀ failure, ¬ Stops site p.files command failure) ∧
      ∃ r, Fits site p command r ∧ (runFrom x p).1 = .ok r

/-- Once the configuration is processed, the audit and its report decide. -/
lemma ends_of_processed (h : site.Stands p.files) {x : Change Result} {f : List Finding → Result}
    (p' : Progress) (hprocessed : command = .apply → ∀ cause, ¬ site.Unprocessable p.files cause)
    (hshape : p'.files.SameShape p.files)
    (hfits : ∀ findings, AllWellFormed findings →
      (runFrom (site.audit Check.all p'.files) p'.notices).1 = .ok findings →
      Fits site p command (f findings))
    (hrun : (runFrom x p).1 = (runFrom (do
        let findings ← survey (site.audit Check.all)
        let _ ← site.writeReport findings
        return f findings) p').1) :
    Ends site p command x := by
  -- the audit finds the site where it was
  have hstands := h.of_sameShape hshape
  by_cases hcatalog : site.catalog.Raises .exit
  · rw [runFrom_reported_of_raises hstands hcatalog] at hrun
    exact .inl ⟨_, .packages hprocessed hcatalog, hrun⟩
  obtain ⟨findings, haudit, hwell, hreported⟩ := runFrom_reported hstands hcatalog f
  rw [hreported, hshape.isDirectory] at hrun
  by_cases hblocked : p.files.isDirectory site.reportPath = true
  · rw [if_pos hblocked] at hrun
    exact .inl ⟨_, .report hprocessed hcatalog hblocked, hrun⟩
  · rw [if_neg hblocked] at hrun
    refine .inr ⟨?_, _, hfits findings hwell haudit, hrun⟩
    rintro failure (⟨happly, hcause⟩ | ⟨_, hexits⟩ | ⟨_, _, hdirectory⟩)
    · exact hprocessed happly _ hcause
    · exact hcatalog hexits
    · exact hblocked hdirectory

/-- An audit, or a report, ends as it should. -/
lemma ends_runAudit (h : site.Stands p.files) (hcommand : command ≠ .apply) :
    Ends site p command (site.runAudit Check.all command.name) :=
  ends_of_processed h p (fun happly => absurd happly hcommand) (fun _ => rfl)
    (fun _ hwell haudit => ⟨rfl, rfl, hwell, fun _ => haudit⟩) rfl

/-- So does a safe upgrade. -/
lemma ends_runApply (h : site.Stands p.files) (dryRun : Bool) :
    Ends site p .apply (site.runApply Check.all true dryRun) := by
  obtain ⟨p', hupgrade, hshape⟩ := runFrom_upgrade site dryRun p
  have hrun : runFrom (site.runApply Check.all true dryRun) p = _ :=
    runFrom_bind (site.applyCodemods true dryRun) _ p
  rw [hupgrade] at hrun
  cases hpreview : site.preview p.files with
  | error e =>
    rw [hpreview] at hrun
    obtain ⟨cause, rfl, hcause⟩ := (preview_eq_error h.settings).1 hpreview
    exact .inl ⟨_, .config rfl hcause, congrArg Prod.fst hrun⟩
  | ok applied =>
    rw [hpreview] at hrun
    have hprocessed : ∀ cause, ¬ site.Unprocessable p.files cause := by
      intro cause hcause
      cases hpreview.symm.trans ((preview_eq_error h.settings).2 ⟨cause, rfl, hcause⟩)
    obtain ⟨hshape, -⟩ := hshape applied hpreview
    exact ends_of_processed h p' (fun _ => hprocessed) hshape
      (fun _ hwell _ => ⟨rfl, rfl, hwell, fun h => by cases h⟩) (congrArg Prod.fst hrun)

/-- So does every command that asks for no other mode. -/
lemma ends_execute (h : site.Stands p.files)
    (hsafe : i.command = .apply → i.choices.safe = true) :
    Ends site p i.command (execute i site) := by
  unfold execute
  cases hcommand : i.command with
  | audit => exact ends_runAudit h (by decide)
  | report => exact ends_runAudit h (by decide)
  | apply =>
    rw [hsafe hcommand]
    exact ends_runApply h i.choices.dryRun

/-! ### Responses -/

/-- A result as it should be is accepted where it is printed as JSON. -/
lemma Fits.ending {r : Result} (h : Fits site p i.command r) :
    (respond i site r).ending = .code (r.exitCode !i.choices.noFail) := by
  have haccepts : Result.schema.check r.toJson = none :=
    Result.check_of_command h.versioned h.named h.wellFormed
  unfold respond
  dsimp only
  split
  · rw [haccepts]
  · rfl

/-- Only the findings of an audit change the exit code. -/
lemma Fits.exitCode {r : Result} (h : Fits site p command r) (noFail : Bool) :
    r.exitCode (!noFail) =
      if command = .audit ∧ noFail = false ∧ anyBlocking r.findings = true then .violation
      else .success := by
  unfold Result.exitCode Result.hasBlocking
  rw [h.named]
  cases command with
  | audit => simp [Command.name]
  | apply => simp [Command.name]
  | report => simp [Command.name]

/-! ### Sessions -/

/-- Arguments that are understood are followed. -/
lemma run_of_parse {e : Environment} {arguments : List Text}
    (hparse : Invocation.parse arguments = .ok (some i)) : run e arguments = start e i := by
  unfold run
  cases arguments with
  | nil => cases hparse
  | cons =>
    rw [hparse]
    rfl

/-- Without a root that is a directory a session ends where it starts. -/
lemma runFrom_start_of_not_hasRoot {e : Environment} (hroot : ¬ e.HasRoot i.choices p.files) :
    ∃ r, runFrom (start e i) p = (.ok r, p) ∧ r.ending = .code .error := by
  rw [Environment.HasRoot, Bool.not_eq_true] at hroot
  unfold start
  rw [runFrom_bind, runFrom_get]
  dsimp only
  rw [if_pos (by rw [Bool.not_eq_true']; exact hroot)]
  exact ⟨_, rfl, rfl⟩

/-- On a root that is a directory the command is run, and only a mode that is not offered is
reported. -/
lemma exists_runFrom_start {e : Environment} (hroot : e.HasRoot i.choices p.files) :
    ∃ handler : Failure → Change Response,
      runFrom (start e i) p = runFrom (tryCatch
        (respond i (e.site i.choices) <$> execute i (e.site i.choices)) handler) p ∧
      (∀ failure, failure ≠ .unsupportedMode → handler failure = throw failure) ∧
      ∃ r, handler .unsupportedMode = pure r ∧ r.ending = .code .violation := by
  unfold start
  rw [runFrom_bind, runFrom_get]
  dsimp only
  rw [if_neg (by rw [Bool.not_eq_true', Bool.not_eq_false]; exact hroot)]
  refine ⟨_, rfl, fun failure hne => ?_, _, rfl, rfl⟩
  cases failure with
  | unsupportedMode => exact absurd rfl hne
  | _ => rfl

/-- What stops a command is never a mode that is not offered. -/
lemma Stops.ne_unsupportedMode {files : FileTree} {failure : Failure}
    (h : Stops site files command failure) : failure ≠ .unsupportedMode := by
  rintro rfl
  cases h

/-- A command that is offered is run, and the session responds to its result. -/
lemma runFrom_start_eq {e : Environment} (hroot : e.HasRoot i.choices p.files)
    (hends : Ends (e.site i.choices) p i.command (execute i (e.site i.choices))) :
    runFrom (start e i) p =
      runFrom (respond i (e.site i.choices) <$> execute i (e.site i.choices)) p := by
  obtain ⟨handler, hrun, hhandler, -⟩ := exists_runFrom_start hroot
  rw [hrun, runFrom_tryCatch, runFrom_map]
  rcases hends with ⟨failure, hstops, hfailure⟩ | ⟨-, r, -, hr⟩
  · rw [hfailure]
    dsimp only [Except.map]
    rw [hhandler failure hstops.ne_unsupportedMode]
    rfl
  · rw [hr]
    rfl

/-- A command that nothing stops answers with its result. -/
lemma runFrom_start {e : Environment} (hroot : e.HasRoot i.choices p.files)
    (hends : Ends (e.site i.choices) p i.command (execute i (e.site i.choices))) :
    (∃ failure, Stops (e.site i.choices) p.files i.command failure ∧
        (runFrom (start e i) p).1 = .error failure) ∨
      (∀ failure, ¬ Stops (e.site i.choices) p.files i.command failure) ∧
        ∃ r, Fits (e.site i.choices) p i.command r ∧
          (runFrom (start e i) p).1 = .ok (respond i (e.site i.choices) r) := by
  rw [runFrom_start_eq hroot hends, runFrom_map]
  rcases hends with ⟨failure, hstops, hfailure⟩ | ⟨hfree, r, hfits, hr⟩
  · rw [hfailure]
    exact .inl ⟨failure, hstops, rfl⟩
  · rw [hr]
    exact .inr ⟨hfree, r, hfits, rfl⟩

/-- **A session on a site ends with a code unless it is stopped.** Without a root that is a
directory the code is that of an error. With one, the session fails exactly for what stops its
command: a configuration of which no transform can be made, packages that end the program, and a
directory in the place of the report. If nothing does, the code is that of a violation where the
command is an audit that may fail and has a finding that stands in the way, and that of success
anywhere else. -/
theorem run_ending (e : Environment) {arguments : List Text} {i : Invocation}
    (hparse : Invocation.parse arguments = .ok (some i))
    (hsafe : i.command = .apply → i.choices.safe = true) (p : Progress) :
    (¬ e.HasRoot i.choices p.files →
      ∃ r, (runFrom (run e arguments) p).1 = .ok r ∧ r.ending = .code .error) ∧
    (e.HasRoot i.choices p.files →
      (∀ failure, (runFrom (run e arguments) p).1 = .error failure ↔
        Stops (e.site i.choices) p.files i.command failure) ∧
      ∀ r, (runFrom (run e arguments) p).1 = .ok r →
        ∃ findings,
          (runFrom ((e.site i.choices).audit Check.all p.files) p.notices).1 = .ok findings ∧
          r.ending = .code (
            if i.command = .audit ∧ i.choices.noFail = false ∧ anyBlocking findings = true
            then .violation else .success)) := by
  rw [run_of_parse hparse]
  refine ⟨fun hroot => ?_, fun hroot => ?_⟩
  · obtain ⟨r, hrun, hending⟩ := runFrom_start_of_not_hasRoot hroot
    exact ⟨r, congrArg Prod.fst hrun, hending⟩
  have hstands := Environment.stands_site hroot
  rcases runFrom_start hroot (ends_execute hstands hsafe) with
    ⟨failure, hstops, hfailure⟩ | ⟨hfree, result, hfits, hresult⟩
  · rw [hfailure]
    refine ⟨fun failure' => ⟨?_, ?_⟩, fun r h => by cases h⟩
    · intro h
      cases h
      exact hstops
    · exact fun h => congrArg Except.error (hstops.unique h)
  · rw [hresult]
    refine ⟨fun failure => iff_of_false (fun h => by cases h) (hfree failure), fun r h => ?_⟩
    cases h
    obtain ⟨findings, haudit, -⟩ :=
      audit_total hstands.settings (not_raises_of_not_stops hfree) p.files p.notices
    refine ⟨findings, haudit, ?_⟩
    rw [hfits.ending, hfits.exitCode]
    by_cases hcommand : i.command = .audit
    · cases haudit.symm.trans (hfits.audited hcommand)
      rfl
    · rw [if_neg fun h => hcommand h.1, if_neg fun h => hcommand h.1]

/-- A session in the directory of a site. -/
def hereAtSite : Environment := ⟨⟨.ofText "/site", [], .inOrder⟩, []⟩

/-- Files of a site: a directory is in the place of the report. -/
def blockedFiles : FileTree := .ofFiles [(.ofText "/site/al-folio-upgrade-report.md/a", [])]

/-- An audit of the site fails, since its report cannot be written. -/
theorem run_ending_blocked :
    Invocation.parse ["upgrade", "audit"] = .ok (some ⟨.audit, .none⟩) ∧
      (Command.audit = .apply → Choices.none.safe = true) ∧
      hereAtSite.HasRoot .none blockedFiles ∧
      (runFrom (run hereAtSite ["upgrade", "audit"]) ⟨blockedFiles, []⟩).1 =
        .error (.file ⟨.isDirectory, .ofText "/site/al-folio-upgrade-report.md"⟩) := by
  have hparse : Invocation.parse ["upgrade", "audit"] = .ok (some ⟨.audit, .none⟩) := by
    decide
  have hsafe : Command.audit = .apply → Choices.none.safe = true := fun h => by cases h
  have hroot : hereAtSite.HasRoot .none blockedFiles := by
    unfold Environment.HasRoot
    decide
  have hblocked : blockedFiles.isDirectory (hereAtSite.site .none).reportPath = true := by
    decide
  have hpath : (hereAtSite.site .none).reportPath = .ofText "/site/al-folio-upgrade-report.md" := by
    decide
  have hcatalog : ¬ (hereAtSite.site .none).catalog.Raises .exit := by
    rintro (_ | ⟨⟨⟩, -⟩)
  refine ⟨hparse, hsafe, hroot, ?_⟩
  obtain ⟨hstopped, -⟩ := (run_ending hereAtSite hparse hsafe ⟨blockedFiles, []⟩).2 hroot
  rw [← hpath]
  exact (hstopped _).2 (.report (fun h => by cases h) hcatalog hblocked)

end CommandLine

end SiteAudit
