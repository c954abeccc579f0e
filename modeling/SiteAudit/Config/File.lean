import SiteAudit.Config
import SiteAudit.Run

/-!
# The file of a configuration

Loading the configuration of a site: a file that is not there is no configuration, and one that
is wrong is known by the reason. Line ends of all kinds count as line feeds.
-/

namespace SiteAudit.Config

/-- The text with every line end, of one carriage return or of two characters, as a line feed. -/
def unifyLineEnds : Text → Text
  | [] => []
  | '\r' :: '\n' :: rest => '\n' :: unifyLineEnds rest
  | '\r' :: rest => '\n' :: unifyLineEnds rest
  | c :: rest => c :: unifyLineEnds rest

/-- Reads the content of the file. -/
def ofBytes (content : Bytes) : Except ConfigError Tree :=
  match Utf8.decode content with
  | .error e => .error (.invalid e.message)
  | .ok t => parse (unifyLineEnds t)

/-- Loads the configuration of the given name, if the file is there. -/
def load (files : FileTree) (root : Path) (name : Text) : Survey (Except Text (Option Tree)) := do
  let path := root.joinText name
  match files.find path with
  | .ok (.file content) =>
    match ofBytes content with
    | .ok tree =>
      notice (.parsedConfig path)
      return .ok (some tree)
    | .error (.invalid reason) => return .error reason
    | .error (.unsuitable cause) => throw (.config (.unsuitable cause))
  | _ => return .ok none

end SiteAudit.Config
