import SiteAudit.Finding

/-!
# Results

What a command hands on: the findings of an audit and, if files were to be changed, which. Only
an audit fails because of its findings.
-/

namespace SiteAudit

/-- The version of the program. -/
def version : Text := "1.0.0"

/-- The result of a command. -/
structure Result where
  command : Text
  findings : List Finding
  changedFiles : List Text
  dryRun : Bool
  toolVersion : Text
  deriving DecidableEq, Repr

/-- How a command ends. -/
inductive ExitCode where
  | success
  | violation
  | error
  deriving DecidableEq, Repr

/-- The number of an exit code. -/
def ExitCode.toNat : ExitCode → Nat
  | .success => 0
  | .violation => 1
  | .error => 2

namespace Result

/-- The blocking findings. -/
def blocking (r : Result) : List Finding := Finding.ofSeverity .blocking r.findings

/-- The warnings. -/
def warnings (r : Result) : List Finding := Finding.ofSeverity .warning r.findings

/-- Does a finding stand in the way? -/
def hasBlocking (r : Result) : Bool := Finding.anyBlocking r.findings

/-- The result as a JSON object. -/
def toJson (r : Result) : Json :=
  .object
    [("schema_version", .text "upgrade_result_v1"),
      ("tool_version", .text r.toolVersion),
      ("command", .text r.command),
      ("summary", .object
        [("blocking", .int r.blocking.length), ("non_blocking", .int r.warnings.length),
          ("has_blocking", .bool r.hasBlocking)]),
      ("codemods", .object
        [("dry_run", .bool r.dryRun), ("changed_files", .array (r.changedFiles.map .text))]),
      ("findings", .array (r.findings.map Finding.toJson))]

/-- The exit code of a command that came to its end. -/
def exitCode (r : Result) (failOnBlocking : Bool) : ExitCode :=
  if r.command == "audit".toList && failOnBlocking && r.hasBlocking then .violation else .success

end Result

end SiteAudit
