import SiteAudit.CommandLine.Argument

/-!
# Invocations

An invocation is a command with its choices. `Invocation.parse` reads the arguments level by
level; what no level knows is reported at the end, unless help or the version was asked for
before.
-/

namespace SiteAudit.CommandLine

/-- What the options choose. -/
structure Choices where
  root : Option Text
  json : Bool
  noPlugins : Bool
  verbose : Bool
  noFail : Bool
  safe : Bool
  dryRun : Bool
  deriving DecidableEq, Repr

/-- Nothing is chosen. -/
def Choices.none : Choices := ⟨Option.none, false, false, false, false, false, false⟩

/-- Why no command is run. -/
inductive Stop where
  | help (level : Level)
  | version
  | usage (cause : UsageError)
  deriving DecidableEq, Repr

/-- A command with its choices. -/
structure Invocation where
  command : Command
  choices : Choices
  deriving DecidableEq, Repr

namespace Invocation

/-- Chooses an option without a value. -/
def choose (level : Level) (c : Choices) (f : Flag) : Except Stop Choices :=
  match f with
  | .help => .error (.help level)
  | .version => .error .version
  | .root => .ok c
  | .json => .ok { c with json := true }
  | .noPlugins => .ok { c with noPlugins := true }
  | .verbose => .ok { c with verbose := true }
  | .noFail => .ok { c with noFail := true }
  | .safe => .ok { c with safe := true }
  | .dryRun => .ok { c with dryRun := true }

/-- What has been read at one level: the choices, what is not known, and the word that leads to
the next level with the arguments after it. -/
structure Reading where
  choices : Choices
  unknown : List Text
  next : Option (Text × List Text)

/-- Nothing has been read. -/
def Reading.start : Reading := ⟨Choices.none, [], none⟩

/-- Reading with one more argument that is not known. -/
def Reading.leave (r : Reading) (t : List Text) : Reading := { r with unknown := r.unknown ++ t }

/-- Reading with a root. -/
def Reading.setRoot (r : Reading) (t : Text) : Reading :=
  { r with choices := { r.choices with root := some t } }

/-- Reading up to the word that leads to the next level. -/
def Reading.enter (r : Reading) (word : Text) (rest : List Argument) : Reading :=
  { r with next := some (word, rest.map (·.text)) }

/-- What a step fails with when the arguments are not understood. -/
def usage {α : Type} (e : Except UsageError α) : Except Stop α := e.mapError .usage

/-- Reads the arguments of a level. -/
def readFrom (level : Level) : List Argument → Reading → Except Stop Reading
  | [], r => .ok r
  | .word t :: rest, r =>
    if level.choices.isEmpty then readFrom level rest (r.leave [t]) else .ok (r.enter t rest)
  | .dashes :: rest, r =>
    if level.choices.isEmpty || rest.isEmpty then readFrom level rest (r.leave [['-', '-']])
    else .ok (r.enter ['-', '-'] rest)
  | .unknown t :: rest, r => readFrom level rest (r.leave [t])
  | .known _ f short attached :: rest, r =>
    if f.takesValue then
      match attached, rest with
      | .afterEquals value, rest => readFrom level rest (r.setRoot value)
      | .directly value, rest => readFrom level rest (r.setRoot value)
      | .nothing, .word value :: rest => readFrom level rest (r.setRoot value)
      | .nothing, _ => .error (.usage (.valueMissing f))
    else do
      let (flags, left) ← usage (flagsOf level f short attached)
      let choices ← flags.foldlM (choose level) r.choices
      readFrom level rest ({ r with choices := choices }.leave left)

/-- Reads the arguments of a level. -/
def read (level : Level) (arguments : List Text) : Except Stop Reading := do
  readFrom level (← usage (Argument.ofTexts level arguments)) .start

/-- The invocation, unless arguments are left that are not known. -/
def finish (invocation : Option Invocation) (unknown : List Text) :
    Except Stop (Option Invocation) :=
  if unknown.isEmpty then .ok invocation else .error (.usage (.unrecognized unknown))

/-- Reads the arguments after the task. -/
def parseTask (unknown : List Text) (arguments : List Text) : Except Stop (Option Invocation) := do
  let task ← read .task arguments
  let unknown := unknown ++ task.unknown
  match task.next with
  | none => finish none unknown
  | some (word, arguments) =>
    match Command.ofName? word with
    | none => throw (.usage (.invalidChoice .task word))
    | some command => do
      let reading ← read (.command command) arguments
      finish (some ⟨command, reading.choices⟩) (unknown ++ reading.unknown)

/-- Reads all arguments. There may be no command among them. -/
def parse (arguments : List Text) : Except Stop (Option Invocation) := do
  let program ← read .program arguments
  match program.next with
  | none => finish none program.unknown
  | some (word, arguments) =>
    if word = Level.taskName then parseTask program.unknown arguments
    else throw (.usage (.invalidChoice .program word))

end Invocation

end SiteAudit.CommandLine
