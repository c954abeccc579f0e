import SiteAudit.Glob
import SiteAudit.Namespace
import SiteAudit.Notice

/-!
# Runs

The two kinds of steps that a run consists of. A survey looks at a file tree: it gives notices and
may fail, but it changes nothing. A change may also write files, and what it wrote before a
failure stays written.
-/

namespace SiteAudit

/-- How a package raises. -/
inductive Raised where
  /-- With a failure like any other. -/
  | failure
  /-- With a demand to end the program, which nothing holds back. -/
  | exit
  deriving DecidableEq, Repr

/-- What stops a run. -/
inductive Failure where
  | config (cause : ConfigError)
  | completion (cause : CompletionError)
  | glob (cause : Glob.Error)
  /-- The text is no expression. -/
  | expression (text : Text)
  | file (cause : FileError)
  /-- A path does not lie below the root. -/
  | outside (path root : Path)
  /-- Only the safe replacements are offered. -/
  | unsupportedMode
  /-- A package raises. -/
  | raised (how : Raised)
  /-- A check fails on purpose. -/
  | broken
  deriving DecidableEq, Repr

/-- The failure in words, for those that have any. -/
def Failure.message? : Failure → Option Text
  | .config (.invalid reason) => some reason
  | .config (.unsuitable _) => none
  | .completion (.unsuitable _) => none
  | .completion (.numeral cause) => some cause.message
  | .glob cause => some cause.message
  | .expression _ => none
  | .file _ => none
  | .outside path root => some <|
    Text.quoted path.text ++ " is not in the subpath of " ++ Text.quoted root.text
      ++ " OR one path is relative and the other is absolute."
  | .unsupportedMode => some "Only --safe mode is supported in v1.x."
  | .raised _ => none
  | .broken => none

/-- Is the failure held back by those that look out for failures? -/
def Failure.isHeldBack : Failure → Bool
  | .raised .exit => false
  | _ => true

/-- A step that gives notices and may fail. -/
abbrev Survey := ExceptT Failure (StateM (List Notice))

/-- Gives a notice. -/
def notice (n : Notice) : Survey Unit := modify (· ++ [n])

/-- The files and the notices given so far. -/
structure Progress where
  files : FileTree
  notices : List Notice

/-- A step that may also change files. -/
abbrev Change := ExceptT Failure (StateM Progress)

/-- A survey of the files as they are. -/
def survey {α : Type} (s : FileTree → Survey α) : Change α := ExceptT.mk fun progress =>
  let (result, notices) := (s progress.files).run.run progress.notices
  (result, { progress with notices := notices })

namespace Change

/-- Gives a notice. -/
def notice (n : Notice) : Change Unit :=
  modify fun progress => { progress with notices := progress.notices ++ [n] }

/-- Puts changed files in the place of the present ones. -/
def setFiles (files : FileTree) : Change Unit :=
  modify fun progress => { progress with files := files }

/-- Writes a file. -/
def write (path : Path) (content : Bytes) : Change Unit := do
  match (← get).files.write path content with
  | .ok files => setFiles files
  | .error e => throw (.file e)

/-- Makes a directory and those on the way to it that are missing. -/
def makeDirectories (path : Path) : Change Unit := do
  let (files, failure) := (← get).files.makeDirectories path
  setFiles files
  match failure with
  | none => return
  | some e => throw (.file e)

end Change

/-- The path as seen from a root. -/
def relativeText (path root : Path) : Survey Text :=
  match path.relativeTo? root with
  | some names => return Path.text ⟨[], names⟩
  | none => throw (.outside path root)

end SiteAudit
