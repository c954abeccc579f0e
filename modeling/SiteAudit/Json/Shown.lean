import SiteAudit.Json.Value
import SiteAudit.Text.Quoted

/-!
# JSON values in messages

How a JSON value is shown inside a message: on one line, with quoted texts, and with the entries
of objects in their own order.
-/

namespace SiteAudit.Json

mutual

/-- The value as it is shown. -/
def shown : Json → Text
  | .null => "None"
  | .bool b => if b then "True" else "False"
  | .int n => Text.ofInt n
  | .float x => x.text
  | .text t => Text.quoted t
  | .array items => '[' :: Text.join ", " (shownItems items) ++ [']']
  | .object entries => '\x7b' :: Text.join ", " (shownEntries entries) ++ ['\x7d']

/-- The items as they are shown. -/
def shownItems : List Json → List Text
  | [] => []
  | item :: items => shown item :: shownItems items

/-- The entries as they are shown, each with a colon. -/
def shownEntries : List (Text × Json) → List Text
  | [] => []
  | (key, value) :: entries => (Text.quoted key ++ ": " ++ shown value) :: shownEntries entries

end

end SiteAudit.Json
