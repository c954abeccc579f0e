import SiteAudit.Check.All
import SiteAudit.Codemod
import SiteAudit.Report
import SiteAudit.Result

/-!
# Audits and upgrades

An audit runs the checks one after the other; a check that fails is left out with a notice. An
upgrade changes the candidate files and audits the site as it is then. Both write the report.
-/

namespace SiteAudit

namespace Site

/-- The candidate files of a site. -/
def candidates (site : Site) (files : FileTree) : Survey (List Path) :=
  Discovery.locate files site.root site.settings.patterns site.settings.ignored

/-- Runs a check. One that fails has no findings, unless it asks for the end of the program. -/
def runCheck (site : Site) (files : FileTree) (paths : List Path) (check : Check) :
    Survey (List Finding) :=
  tryCatch
    (do
      let findings ← check.run site files paths
      notice (.checkDone check.id findings.length)
      return findings)
    fun failure =>
      if failure.isHeldBack then do
        notice (.checkFailed check.id)
        return []
      else throw failure

/-- Runs checks one after the other on the candidate files. -/
def audit (site : Site) (checks : List Check) (files : FileTree) : Survey (List Finding) := do
  let paths ← site.candidates files
  return (← checks.mapM (site.runCheck files paths)).flatten

/-- Changes the candidate files. Only the safe way of doing so is offered. -/
def applyCodemods (site : Site) (safe dryRun : Bool) : Change Codemod.Applied := do
  if !safe then throw .unsupportedMode
  let paths ← survey site.candidates
  Codemod.applyAll site.memory site.root site.settings.configFile dryRun paths

/-- Writes the report of findings. -/
def writeReport (site : Site) (findings : List Finding) : Change Path :=
  Report.write site.root site.settings.reportFile findings

/-- Audits a site and writes the report, under the name of a command. -/
def runAudit (site : Site) (checks : List Check) (command : Text) : Change Result := do
  let findings ← survey (site.audit checks)
  let _ ← site.writeReport findings
  return ⟨command, findings, [], false, version⟩

/-- Changes the candidate files, audits the site and writes the report. -/
def runApply (site : Site) (checks : List Check) (safe dryRun : Bool) : Change Result := do
  let applied ← site.applyCodemods safe dryRun
  let findings ← survey (site.audit checks)
  let _ ← site.writeReport findings
  return ⟨"apply", findings, applied.changes.map (·.file), dryRun, version⟩

end Site

/-- Where a program runs: its directory, the packages there, and the memory of its process. -/
structure Surroundings where
  workingDirectory : Path
  host : Host
  memory : Yaml.Memory

namespace Surroundings

/-- The site at a root, with the usual settings. The packages are asked if `probe` is set. -/
def site (s : Surroundings) (root : Path) (probe : Bool) : Site where
  root := root.resolve s.workingDirectory
  workingDirectory := s.workingDirectory
  settings := .default
  catalog := if probe then .published s.host else .absent
  locator := if probe then .installed s.host s.workingDirectory else .listed []
  memory := s.memory

/-- Audits the site at a root, with or without a report. -/
def auditProject (s : Surroundings) (root : Path) (probe report : Bool) : Change Result := do
  let site := s.site root probe
  if report then site.runAudit Check.all "audit"
  else
    let findings ← survey (site.audit Check.all)
    return ⟨"audit", findings, [], false, version⟩

/-- Upgrades the site at a root. -/
def applySafely (s : Surroundings) (root : Path) (probe dryRun : Bool) : Change Result :=
  (s.site root probe).runApply Check.all true dryRun

end Surroundings

end SiteAudit
