import SiteAudit.CommandLine.Help
import SiteAudit.CommandLine.Invocation
import SiteAudit.Result.Schema
import SiteAudit.Text.LowerCase
import SiteAudit.Upgrade

/-!
# Sessions

One run of the program from its arguments to what it prints and how it ends. Nothing is looked at
or written before the arguments are understood and the root is found to be a directory.
-/

namespace SiteAudit.CommandLine

/-- How a session ends. -/
inductive Ending where
  /-- With an exit code. -/
  | code (exit : ExitCode)
  /-- After help or the version. -/
  | information
  deriving DecidableEq, Repr

/-- What a session prints beside its notices, and how it ends. -/
structure Response where
  ending : Ending
  output : List Text
  errors : List Text
  verbose : Bool
  deriving DecidableEq, Repr

namespace Response

/-- The lines with their ends. -/
def ofLines (lines : List Text) : Text := lines.flatMap (· ++ ['\n'])

/-- A response of lines on the two channels, of which only the exit code matters. -/
def plain (exit : ExitCode) (output errors : List Text) : Response :=
  ⟨.code exit, output, errors, false⟩

/-- The standard output. -/
def stdout (r : Response) : Text := ofLines r.output

/-- A notice as lines, with a stamp of the time and a stand-in for the trace of a failure. -/
def noticeLines (time trace : Text) (n : Notice) : List Text :=
  Text.join " - " [time, n.origin, n.level.name, n.message] :: if n.hasTrace then [trace] else []

/-- The error output: notices first, all of them if the session is verbose. -/
def stderr (r : Response) (time trace : Text) (notices : List Notice) : Text :=
  let shown := notices.filter fun n => r.verbose || n.isSerious
  ofLines (shown.flatMap (noticeLines time trace) ++ r.errors)

end Response

/-- The values of the environment variable that keep packages from being asked. -/
def pluginsOff : List Text := ["1", "true", "yes", "on"]

/-- Where a session takes place: the surroundings, and the value of the environment variable that
can keep packages from being asked. -/
structure Environment where
  surroundings : Surroundings
  noPlugins : Text

/-- May packages be asked? -/
def Environment.probes (e : Environment) (choices : Choices) : Bool :=
  !(choices.noPlugins || pluginsOff.contains (Text.toLower e.noPlugins))

/-- The lines about the changed files of an upgrade. -/
def changeLines (r : Result) : List Text :=
  let count := Text.ofNat r.changedFiles.length
  if r.dryRun then
    ("Would apply safe codemods to " ++ count ++ " file(s).")
      :: r.changedFiles.map fun file => "  - " ++ file
  else ["Applied safe codemods to " ++ count ++ " file(s)."]

/-- The lines for a result that is not printed as JSON. -/
def summaryLines (command : Command) (site : Site) (r : Result) : List Text :=
  (if command = .apply then changeLines r else [])
    ++ [Report.summary r.findings, "Report: " ++ site.settings.reportFile]

/-- The response to a result. -/
def respond (i : Invocation) (site : Site) (r : Result) : Response :=
  let ending := Ending.code (r.exitCode !i.choices.noFail)
  if i.choices.json then
    match Result.schema.check r.toJson with
    | some violation =>
      ⟨.code .error, [], ["error: result does not match schema: " ++ violation.message],
        i.choices.verbose⟩
    | none => ⟨ending, [Json.render (.indented 2) 0 r.toJson], [], i.choices.verbose⟩
  else ⟨ending, summaryLines i.command site r, [], i.choices.verbose⟩

/-- The result of a command. -/
def execute (i : Invocation) (site : Site) : Change Result :=
  match i.command with
  | .apply => site.runApply Check.all i.choices.safe i.choices.dryRun
  | command => site.runAudit Check.all command.name

/-- Runs a command. A mode that is not offered is reported; other failures stop the session. -/
def start (e : Environment) (i : Invocation) : Change Response := do
  let cwd := e.surroundings.workingDirectory
  let root := (i.choices.root.map Path.ofText).getD cwd
  if !(← get).files.isDirectory (cwd.join root) then
    return { Response.plain .error [] ["error: project root does not exist: " ++ root.text] with
      verbose := i.choices.verbose }
  let site := e.surroundings.site root (e.probes i.choices)
  tryCatch (respond i site <$> execute i site) fun failure =>
    match failure with
    | .unsupportedMode =>
      return ⟨.code .violation, [], failure.message?.toList, i.choices.verbose⟩
    | other => throw other

/-- Responds to arguments by which no command is run. -/
def Stop.response : Stop → Response
  | .help level => ⟨.information, level.help, [], false⟩
  | .version => ⟨.information, [versionLine], [], false⟩
  | .usage cause => .plain .violation [usageLine] ["error: " ++ cause.message]

/-- Runs the program. -/
def run (e : Environment) (arguments : List Text) : Change Response :=
  if arguments.isEmpty then return .plain .violation [usageLine] []
  else match Invocation.parse arguments with
    | .error stop => return stop.response
    | .ok none => return .plain .violation [usageLine] []
    | .ok (some invocation) => start e invocation

end SiteAudit.CommandLine
