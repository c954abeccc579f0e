import SiteAudit.Text.Basic

/-!
# Paths

A path is a list of names after a root, which a relative path lacks. Empty names and lone dots
are dropped when a path is read; double dots stay, since only the file system knows what they
lead to.
-/

namespace SiteAudit

/-- A path. The root is empty, a slash, or two slashes. -/
structure Path where
  root : Text
  names : List Text
  deriving DecidableEq, Repr

namespace Path

/-- The root that a text starts with: exactly two slashes are a root of their own. -/
def rootOf (t : Text) : Text :=
  match t.takeWhile (· == '/') with
  | [] => []
  | ['/', '/'] => ['/', '/']
  | _ => ['/']

/-- The names in a text. -/
def namesOf (t : Text) : List Text :=
  (Text.splitOn '/' t).filter fun name => !name.isEmpty && name != ['.']

/-- Reads a path. -/
def ofText (t : Text) : Path := ⟨rootOf t, namesOf t⟩

/-- The text of a path; the path of nothing is a dot. -/
def text (p : Path) : Text :=
  if p.root.isEmpty && p.names.isEmpty then ['.'] else p.root ++ Text.join ['/'] p.names

/-- The path of a list of names below the root of the file system. -/
def ofNames (names : List Text) : Path := ⟨['/'], names⟩

/-- The path starts at the root of the file system. -/
def isAbsolute (p : Path) : Bool := !p.root.isEmpty

/-- The second path as seen from the first; an absolute one stays as it is. -/
def join (p q : Path) : Path :=
  if q.isAbsolute then q else ⟨p.root, p.names ++ q.names⟩

/-- A path as seen from another one. -/
def joinText (p : Path) (t : Text) : Path := p.join (ofText t)

/-- The path without its last name. -/
def parent (p : Path) : Path := ⟨p.root, p.names.dropLast⟩

/-- The last name. -/
def name (p : Path) : Text := p.names.getLastD []

/-- The names of the path below another one. -/
def relativeTo? (p base : Path) : Option (List Text) :=
  if p.root = base.root && base.names.isPrefixOf p.names then some (p.names.drop base.names.length)
  else none

/-- The names with every double dot taken together with the name before it. -/
def collapse (names : List Text) : List Text :=
  names.foldl (fun done name => if name = ['.', '.'] then done.dropLast else done ++ [name]) []

/-- The absolute path without double dots, as seen from a working directory. -/
def resolve (p cwd : Path) : Path := ofNames (collapse (cwd.join p).names)

end Path

end SiteAudit
