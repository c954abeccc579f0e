import SiteAudit.Run

/-!
# Lines of files

Only a line feed ends a line; a carriage return before it does not count. Bytes that are not
UTF-8 read as U+FFFD, so that every file has lines.
-/

namespace SiteAudit

namespace Lines

/-- The line without a carriage return at its end. -/
def dropReturn (line : Text) : Text :=
  if line.getLast? = some '\r' then line.dropLast else line

/-- The lines of a text. Nothing follows the last line feed. -/
def ofText (t : Text) : List Text :=
  let lines := Text.splitOn '\n' t
  let lines := if lines.getLast? = some [] then lines.dropLast else lines
  lines.map dropReturn

/-- The lines of the content of a file. -/
def ofBytes (content : Bytes) : List Text := ofText (Utf8.decodeLenient content)

/-- The lines of a file; a file that cannot be read has none. -/
def ofFile (files : FileTree) (path : Path) : Survey (List Text) :=
  match files.read path with
  | .ok content => return ofBytes content
  | .error _ => do
    notice (.unread path)
    return []

/-- The lines with their numbers, from one on. -/
def numbered (lines : List Text) : List (Nat × Text) :=
  lines.mapIdx fun i line => (i + 1, line)

end Lines

end SiteAudit
