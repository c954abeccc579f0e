import SiteAudit.Proofs.Session

/-!
# Sessions without a command

A session whose arguments are not accepted leaves everything as it is (`run_rejected`): its files,
the report among them, and its notices. A session whose arguments are accepted is the run of its
command.
-/

namespace SiteAudit.CommandLine
open Codemod Finding Site

variable {e : Environment} {arguments : List Text} {i : Invocation} {p : Progress}

/-- A command is named, its root is a directory, and it is asked for in a way that is offered. -/
structure Environment.Accepts (e : Environment) (arguments : List Text) (files : FileTree)
    (i : Invocation) : Prop where
  parsed : Invocation.parse arguments = .ok (some i)
  root : e.HasRoot i.choices files
  offered : i.command = .apply → i.choices.safe = true

/-- How a session ends in which no command is run. -/
inductive Environment.Rejects (e : Environment) (arguments : List Text) (files : FileTree) :
    Ending → Prop
  /-- Help is asked for. -/
  | help {level : Level} (h : Invocation.parse arguments = .error (.help level)) :
      Rejects e arguments files .information
  /-- The version is asked for. -/
  | version (h : Invocation.parse arguments = .error .version) :
      Rejects e arguments files .information
  /-- The arguments are not understood. -/
  | misuse {cause : UsageError} (h : Invocation.parse arguments = .error (.usage cause)) :
      Rejects e arguments files (.code .violation)
  /-- No command is named. -/
  | incomplete (h : Invocation.parse arguments = .ok none) :
      Rejects e arguments files (.code .violation)
  /-- The root is not a directory. -/
  | noRoot {i : Invocation} (h : Invocation.parse arguments = .ok (some i))
      (hroot : ¬ e.HasRoot i.choices files) : Rejects e arguments files (.code .error)
  /-- An upgrade is asked for that is not the safe one. -/
  | notOffered {i : Invocation} (h : Invocation.parse arguments = .ok (some i))
      (hroot : e.HasRoot i.choices files) (hcommand : i.command = .apply)
      (hsafe : i.choices.safe = false) : Rejects e arguments files (.code .violation)

/-- A session that is accepted is not rejected. -/
lemma Environment.Accepts.not_rejects {files : FileTree} {ending : Ending}
    (h : e.Accepts arguments files i) : ¬ e.Rejects arguments files ending := by
  obtain ⟨hparse, hroot, hoffered⟩ := h
  intro hrejects
  cases hrejects with
  | help h' => cases hparse.symm.trans h'
  | version h' => cases hparse.symm.trans h'
  | misuse h' => cases hparse.symm.trans h'
  | incomplete h' => cases hparse.symm.trans h'
  | noRoot h' hno =>
    cases hparse.symm.trans h'
    exact hno hroot
  | notOffered h' _ hcommand hsafe =>
    cases hparse.symm.trans h'
    cases hsafe.symm.trans (hoffered hcommand)

/-! ### The run of a session -/

/-- Arguments that are not understood are answered. -/
lemma runFrom_run_of_stop {stop : Stop} (hparse : Invocation.parse arguments = .error stop) :
    runFrom (run e arguments) p = (.ok stop.response, p) := by
  unfold run
  cases arguments with
  | nil => cases hparse
  | cons =>
    rw [hparse]
    rfl

/-- Without a command the usage is printed. -/
lemma runFrom_run_of_none (hparse : Invocation.parse arguments = .ok none) :
    runFrom (run e arguments) p = (.ok (.plain .violation [usageLine] []), p) := by
  unfold run
  cases arguments with
  | nil => rfl
  | cons =>
    rw [hparse]
    rfl

/-- An upgrade that is not the safe one ends where it starts. -/
lemma runFrom_start_of_notSafe (hroot : e.HasRoot i.choices p.files)
    (hcommand : i.command = .apply) (hsafe : i.choices.safe = false) :
    ∃ r, runFrom (start e i) p = (.ok r, p) ∧ r.ending = .code .violation := by
  have hexecute : ∀ site : Site, runFrom (execute i site) p = (.error .unsupportedMode, p) := by
    intro site
    unfold execute
    rw [hcommand, hsafe]
    dsimp only
    unfold runApply
    rw [runFrom_bind, runFrom_applyCodemods_notSafe]
  obtain ⟨handler, hrun, -, r, hhandler, hending⟩ := exists_runFrom_start hroot
  refine ⟨r, ?_, hending⟩
  rw [hrun, runFrom_tryCatch, runFrom_map, hexecute]
  dsimp only [Except.map]
  rw [hhandler]
  rfl

/-- A session that is accepted is the run of its command. -/
lemma Environment.Accepts.runFrom_run (h : e.Accepts arguments p.files i) :
    runFrom (run e arguments) p =
      runFrom (respond i (e.site i.choices) <$> execute i (e.site i.choices)) p := by
  rw [run_of_parse h.parsed]
  exact runFrom_start_eq h.root (ends_execute (Environment.stands_site h.root) h.offered)

/-- A session that is rejected ends where it starts. -/
lemma Environment.Rejects.runFrom_run {ending : Ending}
    (h : e.Rejects arguments p.files ending) :
    ∃ r, runFrom (run e arguments) p = (.ok r, p) ∧ r.ending = ending := by
  cases h with
  | help hparse => exact ⟨_, runFrom_run_of_stop hparse, rfl⟩
  | version hparse => exact ⟨_, runFrom_run_of_stop hparse, rfl⟩
  | misuse hparse => exact ⟨_, runFrom_run_of_stop hparse, rfl⟩
  | incomplete hparse => exact ⟨_, runFrom_run_of_none hparse, rfl⟩
  | noRoot hparse hroot =>
    rw [run_of_parse hparse]
    exact runFrom_start_of_not_hasRoot hroot
  | notOffered hparse hroot hcommand hsafe =>
    rw [run_of_parse hparse]
    exact runFrom_start_of_notSafe hroot hcommand hsafe

/-- Any session is accepted or rejected. -/
lemma Environment.accepts_or_rejects (e : Environment) (arguments : List Text) (files : FileTree) :
    (∃ i, e.Accepts arguments files i) ∨ ∃ ending, e.Rejects arguments files ending := by
  cases hparse : Invocation.parse arguments with
  | error stop =>
    cases stop with
    | help => exact .inr ⟨_, .help hparse⟩
    | version => exact .inr ⟨_, .version hparse⟩
    | usage => exact .inr ⟨_, .misuse hparse⟩
  | ok command =>
    cases command with
    | none => exact .inr ⟨_, .incomplete hparse⟩
    | some i =>
      by_cases hroot : e.HasRoot i.choices files
      · by_cases hoffered : i.command = .apply → i.choices.safe = true
        · exact .inl ⟨i, hparse, hroot, hoffered⟩
        · obtain ⟨hcommand, hsafe⟩ := Classical.not_imp.1 hoffered
          exact .inr ⟨_, .notOffered hparse hroot hcommand (Bool.eq_false_of_not_eq_true hsafe)⟩
      · exact .inr ⟨_, .noRoot hparse hroot⟩

/-- **A rejected session has no effect.** Whatever the arguments, the surroundings and the files,
either a command is accepted, and the session is the run of that command; or the session is
rejected, and it responds without a change of the files or a notice. Its code is then that of an
error for a root that is not a directory, and that of a violation for all else except help and the
version. -/
theorem run_rejected (e : Environment) (arguments : List Text) (p : Progress) :
    (∃ i, e.Accepts arguments p.files i ∧
      (∀ ending, ¬ e.Rejects arguments p.files ending) ∧
      runFrom (run e arguments) p =
        runFrom (respond i (e.site i.choices) <$> execute i (e.site i.choices)) p) ∨
    ∃ ending, e.Rejects arguments p.files ending ∧
      ∃ r, runFrom (run e arguments) p = (.ok r, p) ∧ r.ending = ending := by
  rcases e.accepts_or_rejects arguments p.files with ⟨i, h⟩ | ⟨ending, h⟩
  · exact .inl ⟨i, h, fun _ => h.not_rejects, h.runFrom_run⟩
  · exact .inr ⟨ending, h, h.runFrom_run⟩

/-- An upgrade that is not said to be safe changes nothing, though there is an old class name. -/
example :
    (runFrom (run hereAtSite ["upgrade", "apply", "--json", "--dry-run"]) ⟨mixedFiles, []⟩).2 =
      ⟨mixedFiles, []⟩ := by
  rfl

end SiteAudit.CommandLine
