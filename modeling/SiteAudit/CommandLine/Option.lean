import SiteAudit.Text.Basic

/-!
# Commands and options

The command line has three levels: the program, its only task, and the commands of that task.
Each level has options of its own. An option has up to two names, a short one of a single letter
and a long one.
-/

namespace SiteAudit.CommandLine

/-- What can be done with a site. -/
inductive Command where
  | audit
  | apply
  | report
  deriving DecidableEq, Repr

namespace Command

/-- The commands in the order in which they are listed. -/
def all : List Command := [.audit, .apply, .report]

/-- The word for a command. -/
def name : Command → Text
  | .audit => "audit"
  | .apply => "apply"
  | .report => "report"

/-- The command of the given name. -/
def ofName? (t : Text) : Option Command := all.find? fun c => c.name == t

end Command

/-- An option. -/
inductive Flag where
  | help
  | version
  /-- The root of the site, which follows as a value. -/
  | root
  | json
  | noPlugins
  | verbose
  | noFail
  | safe
  | dryRun
  deriving DecidableEq, Repr

namespace Flag

/-- The names of an option. -/
def names : Flag → List Text
  | .help => ["-h", "--help"]
  | .version => ["--version"]
  | .root => ["--root"]
  | .json => ["--json"]
  | .noPlugins => ["--no-plugins"]
  | .verbose => ["-v", "--verbose"]
  | .noFail => ["--no-fail"]
  | .safe => ["--safe"]
  | .dryRun => ["--dry-run"]

/-- Does a value follow? -/
def takesValue (f : Flag) : Bool := f == .root

/-- How an option is called in messages. -/
def label (f : Flag) : Text := Text.join ['/'] f.names

end Flag

/-- A level of the command line. -/
inductive Level where
  | program
  | task
  | command (c : Command)
  deriving DecidableEq, Repr

namespace Level

/-- The options that all commands have. -/
def shared : List Flag := [.help, .root, .json, .noPlugins, .verbose]

/-- The options of a level, in the order in which they are listed. -/
def flags : Level → List Flag
  | .program => [.help, .version]
  | .task => [.help]
  | .command .audit => shared ++ [.noFail]
  | .command .apply => shared ++ [.safe, .dryRun]
  | .command .report => shared

/-- The name of the only task. -/
def taskName : Text := "upgrade"

/-- The words that lead to the next level. -/
def choices : Level → List Text
  | .program => [taskName]
  | .task => Command.all.map Command.name
  | .command _ => []

/-- How the place of these words is called in messages. -/
def place : Level → Text
  | .program => "command"
  | .task => "upgrade_command"
  | .command _ => []

/-- The names of the options of a level, each with its option. -/
def names (level : Level) : List (Text × Flag) :=
  level.flags.flatMap fun f => f.names.map fun name => (name, f)

/-- The option of the given name. -/
def flag? (level : Level) (name : Text) : Option Flag := level.names.lookup name

end Level

end SiteAudit.CommandLine
