import SiteAudit.Finding
import SiteAudit.Run

/-!
# Reports

The findings as a document in Markdown and as one line. A report has no dates in it, so that
equal findings have equal reports.
-/

namespace SiteAudit.Report

/-- The two lines for a finding. -/
def findingLines (f : Finding) : List Text :=
  ["- [" ++ f.id ++ "] " ++ f.message ++ " (`" ++ f.location ++ "`)",
    "  - Snippet: `" ++ f.snippet ++ "`"]

/-- The lines for findings, or one line if there are none. -/
def sectionLines (findings : List Finding) : List Text :=
  match findings with
  | [] => ["- None"]
  | _ => findings.flatMap findingLines

/-- The lines up to the sections, which count the findings. -/
def headLines (blocking warnings : List Finding) : List Text :=
  ["# al-folio upgrade report".toList,
    [],
    "Generated by `al-folio-upgrade upgrade report`.".toList,
    [],
    "## Summary".toList,
    [],
    "- Blocking findings: " ++ Text.ofNat blocking.length,
    "- Non-blocking findings: " ++ Text.ofNat warnings.length,
    []]

/-- The lines of a report. -/
def lines (findings : List Finding) : List Text :=
  let blocking := Finding.ofSeverity .blocking findings
  let warnings := Finding.ofSeverity .warning findings
  headLines blocking warnings ++ ["## Blocking".toList, []] ++ sectionLines blocking
    ++ [[], "## Non-blocking".toList, []] ++ sectionLines warnings

/-- The report as a document. -/
def markdown (findings : List Finding) : Text := (lines findings).flatMap (· ++ ['\n'])

/-- The findings in one line. -/
def summary (findings : List Finding) : Text :=
  "Upgrade audit complete. Blocking: "
    ++ Text.ofNat (Finding.ofSeverity .blocking findings).length
    ++ ", Non-blocking: " ++ Text.ofNat (Finding.ofSeverity .warning findings).length ++ ['.']

/-- Writes the report to the given file below a root, and returns its path. -/
def write (root : Path) (file : Text) (findings : List Finding) : Change Path := do
  let path := root.joinText file
  Change.makeDirectories path.parent
  Change.write path (Utf8.encode (markdown findings))
  Change.notice (.wroteReport path)
  return path

end SiteAudit.Report
