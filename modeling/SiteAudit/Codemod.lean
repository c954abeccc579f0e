import SiteAudit.Lines
import SiteAudit.Namespace
import SiteAudit.Replacement

/-!
# Codemods

A codemod changes the text of one file: the safe replacements in every file, and after them the
completion of the namespace in the configuration. `Codemod.applyAll` changes the candidate files;
a dry run finds out what would be changed and changes nothing. A file is written only if its text
becomes another one.
-/

namespace SiteAudit.Codemod

/-- The name of the completion among the names of replacements. -/
def completionId : Text := "al_folio_namespace"

/-- What becomes of a text. -/
structure Outcome where
  content : Text
  /-- The names of what changed the text. -/
  fired : List Text
  /-- A completion was tried and taken back. -/
  declined : Bool
  deriving DecidableEq, Repr

/-- Changes the text of the given file. -/
def transform (m : Yaml.Memory) (configFile file content : Text) :
    Except CompletionError Outcome := do
  let (replaced, fired) := Replacement.applyAll Replacement.safe content
  if file ≠ configFile then return ⟨replaced, fired, false⟩
  let completion ← Namespace.complete m replaced
  let fired := if completion.content = replaced then fired else fired ++ [completionId]
  return ⟨completion.content, fired, completion.declined⟩

/-- A file that is changed, or would be. -/
structure FileChange where
  file : Text
  rules : List Text
  deriving DecidableEq, Repr

/-- What became of the candidate files. -/
structure Applied where
  changes : List FileChange
  skipped : List Text
  deriving DecidableEq, Repr

/-- The outcome for one file. -/
inductive FileOutcome where
  | same
  | skipped (file : Text)
  | changed (change : FileChange)
  deriving DecidableEq, Repr

/-- Leaves a file as it is, for the reason that the notice gives. -/
def skip (file : Text) (reason : Notice) : Change FileOutcome := do
  Change.notice reason
  return .skipped file

/-- Changes one text, with a notice if a completion is taken back. -/
def transformed (m : Yaml.Memory) (configFile file content : Text) : Change Outcome :=
  match transform m configFile file content with
  | .error cause => throw (.completion cause)
  | .ok outcome => do
    if outcome.declined then Change.notice .completionDeclined
    return outcome

/-- Changes one file, unless this is a dry run. -/
def applyTo (m : Yaml.Memory) (root : Path) (configFile : Text) (dryRun : Bool) (path : Path) :
    Change FileOutcome := do
  let file ← survey fun _ => relativeText path root
  match (← get).files.read path with
  | .error fault => skip file (.skippedFile file ⟨fault, path⟩)
  | .ok bytes =>
    match Utf8.decode bytes with
    | .error _ => skip file (.skippedEncoding file)
    | .ok content =>
      let outcome ← transformed m configFile file content
      if outcome.content = content then return .same
      if !dryRun then
        Change.write path (Utf8.encode outcome.content)
        Change.notice (.changed file outcome.fired)
      return .changed ⟨file, outcome.fired⟩

/-- Takes the outcomes for all files together. -/
def Applied.ofOutcomes (outcomes : List FileOutcome) : Applied where
  changes := outcomes.filterMap fun
    | .changed change => some change
    | _ => none
  skipped := outcomes.filterMap fun
    | .skipped file => some file
    | _ => none

/-- Changes the given files one after the other, unless this is a dry run. -/
def applyAll (m : Yaml.Memory) (root : Path) (configFile : Text) (dryRun : Bool)
    (paths : List Path) : Change Applied := do
  return .ofOutcomes (← paths.mapM (applyTo m root configFile dryRun))

end SiteAudit.Codemod
