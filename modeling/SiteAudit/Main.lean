import SiteAudit.CommandLine.Session

/-!
# The command line

The program reads the paths of the files of a site from the standard input, one on a line, and
then the files. It runs the session on them, prints what the session prints, and writes the files
that have changed.
-/

namespace SiteAudit.Main

/-- The lines of a stream up to its end. -/
partial def readLines (input : IO.FS.Stream) : IO (List String) := do
  let line ← input.getLine
  if line.isEmpty then return []
  return line.trimAscii.toString :: (← readLines input)

/-- The file that a line names, if there is a line. -/
def readFile (workingDirectory : Path) (line : String) : IO (Path × Bytes) := do
  let content ← IO.FS.readBinFile line
  return ((Path.ofText line.toList).resolve workingDirectory, content.toList)

/-- Writes a file, after making the directories on the way to it. -/
def writeFile (file : Path × Bytes) : IO Unit := do
  IO.FS.createDirAll file.1.parent.text.toString
  IO.FS.writeBinFile file.1.text.toString ⟨file.2.toArray⟩

/-- The value of an environment variable. -/
def variable_ (name otherwise : String) : IO Text := do
  return ((← IO.getEnv name).getD otherwise).toList

/-- The environment of the session. No packages are known, and members of sets lie as they came. -/
def environment : IO CommandLine.Environment := do
  let workingDirectory := Path.ofText (← variable_ "PWD" "/")
  return ⟨⟨workingDirectory, [], .inOrder⟩, ← variable_ "AL_FOLIO_UPGRADE_NO_PLUGINS" ""⟩

/-- The exit code of a session. -/
def exitCode : CommandLine.Ending → UInt32
  | .code exit => UInt32.ofNat exit.toNat
  | .information => 0

/-- Prints what the session prints. -/
def print (r : CommandLine.Response) (notices : List Notice) : IO Unit := do
  let stamp := toString (← IO.monoMsNow)
  IO.eprint (r.stderr stamp.toList "(no trace)" notices).toString
  IO.print r.stdout.toString

end SiteAudit.Main

open SiteAudit in
/-- Runs one session on the files that the standard input names. -/
def main (arguments : List String) : IO UInt32 := do
  let environment ← Main.environment
  let lines := (← Main.readLines (← IO.getStdin)).filter fun line => !line.isEmpty
  let files ← lines.mapM (Main.readFile environment.surroundings.workingDirectory)
  let start : Progress := ⟨.ofFiles files, []⟩
  let session := CommandLine.run environment (arguments.map String.toList)
  let (result, progress) := session.run.run start
  for file in progress.files.changesFrom start.files do Main.writeFile file
  match result with
  | .ok response =>
    Main.print response progress.notices
    return Main.exitCode response.ending
  | .error failure =>
    IO.eprintln (failure.message?.getD "error".toList).toString
    return 1
