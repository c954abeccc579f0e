import SiteAudit.Path
import SiteAudit.Text.Quoted
import SiteAudit.Text.Utf8

/-!
# File trees

A file tree says for each list of names below the root of the file system whether a file or a
directory is there. Looking a path up walks from name to name, so that double dots lead back only
from directories that exist.
-/

namespace SiteAudit

/-- What is at a place. -/
inductive Entry where
  | file (content : Bytes)
  | directory
  deriving DecidableEq, Repr

/-- Why a file cannot be reached or changed. -/
inductive FileFault where
  | notFound
  | exists_
  | notDirectory
  | isDirectory
  | nameTooLong
  deriving DecidableEq, Repr

/-- A failed operation on a path. -/
structure FileError where
  fault : FileFault
  path : Path
  deriving DecidableEq, Repr

/-- The number and the words of a fault. -/
def FileFault.message : FileFault → Text
  | .notFound => "[Errno 2] No such file or directory"
  | .exists_ => "[Errno 17] File exists"
  | .notDirectory => "[Errno 20] Not a directory"
  | .isDirectory => "[Errno 21] Is a directory"
  | .nameTooLong => "[Errno 36] File name too long"

/-- The failure in words. -/
def FileError.message (e : FileError) : Text :=
  e.fault.message ++ ": " ++ Text.quoted e.path.text

/-- The files and directories at their places. The root is a directory without an entry. -/
structure FileTree where
  entries : List (List Text × Entry)
  deriving DecidableEq, Repr

namespace FileTree

/-- The tree without files. -/
def empty : FileTree := ⟨[]⟩

/-- What is at a place. -/
def entry? (t : FileTree) (place : List Text) : Option Entry :=
  match place with
  | [] => some .directory
  | _ => t.entries.lookup place

/-- The place that names lead to from another one, and whether something is there. All but the
last of them must be directories. -/
def walk (t : FileTree) : List Text → List Text → Except FileFault (List Text)
  | place, [] => .ok place
  | place, name :: names =>
    match t.entry? place with
    | none => .error .notFound
    | some (.file _) => .error .notDirectory
    | some .directory =>
      walk t (if name = ['.', '.'] then place.dropLast else place ++ [name]) names

/-- The place of an absolute path. -/
def place (t : FileTree) (p : Path) : Except FileFault (List Text) := t.walk [] p.names

/-- What a path leads to. -/
def find (t : FileTree) (p : Path) : Except FileFault Entry := do
  match t.entry? (← t.place p) with
  | some e => return e
  | none => throw .notFound

/-- The path leads to a file. -/
def isFile (t : FileTree) (p : Path) : Bool :=
  match t.find p with
  | .ok (.file _) => true
  | _ => false

/-- How many bytes a name may have. -/
def nameLimit : Nat := 255

/-- How many bytes are too many for a path. -/
def pathLimit : Nat := 4096

/-- Is a name too long that would be looked for in a directory? -/
def meetsOverlong (t : FileTree) : List Text → List Text → Bool
  | _, [] => false
  | place, name :: names =>
    match t.entry? place with
    | some .directory =>
      decide (nameLimit < (Utf8.encode name).length) ||
        meetsOverlong t (if name = ['.', '.'] then place.dropLast else place ++ [name]) names
    | _ => false

/-- Asks whether a path, as seen from a directory, leads to a file. Of a path or a name that is too
long this cannot be asked, unless a zero character makes it no path at all. -/
def asksForFile (t : FileTree) (base p : Path) : Except FileFault Bool :=
  if p.text.contains '\x00' then .ok false
  else if pathLimit ≤ (Utf8.encode p.text).length || t.meetsOverlong [] (base.join p).names then
    .error .nameTooLong
  else .ok (t.isFile (base.join p))

/-- The path leads to a directory. -/
def isDirectory (t : FileTree) (p : Path) : Bool :=
  match t.find p with
  | .ok .directory => true
  | _ => false

/-- The content of the file that a path leads to. -/
def read (t : FileTree) (p : Path) : Except FileFault Bytes := do
  match ← t.find p with
  | .file content => return content
  | .directory => throw .isDirectory

/-- Puts an entry at a place, in the place of the one that is there. -/
def put (t : FileTree) (place : List Text) (e : Entry) : FileTree :=
  if (t.entries.lookup place).isSome then
    ⟨t.entries.map fun entry => if entry.1 = place then (place, e) else entry⟩
  else ⟨t.entries ++ [(place, e)]⟩

/-- Writes a file into a directory that exists. -/
def write (t : FileTree) (p : Path) (content : Bytes) : Except FileError FileTree :=
  match t.place p with
  | .error fault => .error ⟨fault, p⟩
  | .ok place =>
    match t.entry? place, t.entry? place.dropLast with
    | some .directory, _ => .error ⟨.isDirectory, p⟩
    | some (.file _), _ => .ok (t.put place (.file content))
    | none, some .directory => .ok (t.put place (.file content))
    | none, some (.file _) => .error ⟨.notDirectory, p⟩
    | none, none => .error ⟨.notFound, p⟩

/-- Makes one directory; one that is there stays. -/
def makeDirectory (t : FileTree) (p : Path) : Except FileError FileTree :=
  match t.place p with
  | .error fault => .error ⟨fault, p⟩
  | .ok place =>
    match t.entry? place, t.entry? place.dropLast with
    | some .directory, _ => .ok t
    | some (.file _), _ => .error ⟨.exists_, p⟩
    | none, some .directory => .ok (t.put place .directory)
    | none, some (.file _) => .error ⟨.notDirectory, p⟩
    | none, none => .error ⟨.notFound, p⟩

/-- Makes a directory whose path has so many names, and those on the way to it that are missing.
The tree as far as it was made comes with the failure, if there is one. -/
def makeDirectoriesUp (t : FileTree) (p : Path) : Nat → FileTree × Option FileError
  | 0 => (t, none)
  | size + 1 =>
    let path : Path := ⟨p.root, p.names.take (size + 1)⟩
    match t.makeDirectory path with
    | .ok made => (made, none)
    | .error e =>
      if e.fault ≠ .notFound then (t, some e)
      else match t.makeDirectoriesUp p size with
        | (made, some e) => (made, some e)
        | (made, none) =>
          match made.makeDirectory path with
          | .ok made => (made, none)
          | .error e => (made, some e)

/-- Makes a directory and those on the way to it that are missing. -/
def makeDirectories (t : FileTree) (p : Path) : FileTree × Option FileError :=
  t.makeDirectoriesUp p p.names.length

/-- Takes away what is at a path, with everything below it. -/
def remove (t : FileTree) (p : Path) : FileTree :=
  match t.place p with
  | .error _ => t
  | .ok place => ⟨t.entries.filter fun entry => !place.isPrefixOf entry.1⟩

/-- What is below a place, by the names that lead there from it. -/
def below (t : FileTree) (place : List Text) : List (List Text × Entry) :=
  t.entries.filterMap fun (names, e) =>
    if place.isPrefixOf names && place.length < names.length then
      some (names.drop place.length, e)
    else none

/-- The tree of the given files with the directories on the way to them, as far as their paths
allow it. -/
def ofFiles (files : List (Path × Bytes)) : FileTree :=
  files.foldl (fun t (p, content) =>
    let (made, _) := t.makeDirectories p.parent
    match made.write p content with
    | .ok written => written
    | .error _ => made) empty

/-- The files that another tree does not hold with the same content. -/
def changesFrom (t old : FileTree) : List (Path × Bytes) :=
  t.entries.filterMap fun (names, e) =>
    match e with
    | .file content =>
      if old.entry? names = some e then none else some (Path.ofNames names, content)
    | .directory => none

end FileTree

end SiteAudit
