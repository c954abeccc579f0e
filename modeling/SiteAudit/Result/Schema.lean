import SiteAudit.Json.Schema
import SiteAudit.Result

/-!
# The schema of results

What every result looks like as a JSON object, and the document that says so.
-/

namespace SiteAudit.Result

/-- The schema of a finding. -/
def findingSchema : Schema :=
  .object
    [("id", .text false (some "^[a-z][a-z0-9_]*$")),
      ("severity", .oneOf [Severity.blocking.name, Severity.warning.name]),
      ("message", .text false none),
      ("file", .text true none),
      ("line", .integer (some 1)),
      ("snippet", .text false none)]

/-- The schema of a result. -/
def schema : Schema :=
  .object
    [("schema_version", .const "upgrade_result_v1"),
      ("tool_version", .text true none),
      ("command", .oneOf ["audit", "apply", "report"]),
      ("summary", .object
        [("blocking", .integer (some 0)), ("non_blocking", .integer (some 0)),
          ("has_blocking", .boolean)]),
      ("codemods", .object
        [("dry_run", .boolean), ("changed_files", .array (.text false none))]),
      ("findings", .array findingSchema)]

/-- The name of the document. -/
def schemaName : Text := "upgrade_result.schema.json"

/-- The schema as a document. -/
def schemaDocument : Json :=
  .object <|
    [Schema.entry "$schema" (.text "https://json-schema.org/draft/2020-12/schema"),
      Schema.entry "$id" (.text schemaName),
      Schema.entry "title" (.text "al-folio upgrade result")]
      ++ schema.toEntries

end SiteAudit.Result
