import SiteAudit.Json.Value

/-!
# Findings

A finding names an issue at a line of a file. Blocking findings stand in the way of an upgrade;
warnings do not.
-/

namespace SiteAudit

/-- How much a finding matters. -/
inductive Severity where
  | blocking
  | warning
  deriving DecidableEq, Repr

/-- The word for a severity. -/
def Severity.name : Severity → Text
  | .blocking => "blocking"
  | .warning => "warning"

/-- An issue at a line of a file. -/
structure Finding where
  id : Text
  severity : Severity
  message : Text
  file : Text
  line : Int
  snippet : Text
  deriving DecidableEq, Repr

namespace Finding

/-- The finding stands in the way of an upgrade. -/
def isBlocking (f : Finding) : Bool := f.severity == .blocking

/-- The file and the line. -/
def location (f : Finding) : Text := f.file ++ [':'] ++ Text.ofInt f.line

/-- The finding as a JSON object. -/
def toJson (f : Finding) : Json :=
  .object
    [("id", .text f.id), ("severity", .text f.severity.name), ("message", .text f.message),
      ("file", .text f.file), ("line", .int f.line), ("snippet", .text f.snippet)]

/-- The findings of a severity, in their order. -/
def ofSeverity (severity : Severity) (findings : List Finding) : List Finding :=
  findings.filter (·.severity == severity)

/-- Is there a finding that stands in the way? -/
def anyBlocking (findings : List Finding) : Bool := findings.any isBlocking

end Finding

end SiteAudit
