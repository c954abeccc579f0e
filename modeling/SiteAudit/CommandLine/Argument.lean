import SiteAudit.CommandLine.Option
import SiteAudit.Regex
import SiteAudit.Text.Quoted

/-!
# Arguments

How the arguments of one level are understood. A long option may be cut short as long as no other
one starts like that; a value may follow an equals sign; short options may share one hyphen. Two
hyphens alone make words of all arguments after them.
-/

namespace SiteAudit.CommandLine

/-- Why arguments are not understood. -/
inductive UsageError where
  | ambiguous (argument : Text) (names : List Text)
  | valueMissing (f : Flag)
  | valueIgnored (f : Flag) (value : Text)
  | invalidChoice (level : Level) (word : Text)
  | unrecognized (arguments : List Text)
  deriving DecidableEq, Repr

/-- The error in words. -/
def UsageError.message : UsageError → Text
  | .ambiguous argument names =>
    "ambiguous option: " ++ argument ++ " could match " ++ Text.join ", " names
  | .valueMissing f => "argument " ++ f.label ++ ": expected one argument"
  | .valueIgnored f value =>
    "argument " ++ f.label ++ ": ignored explicit argument " ++ Text.quoted value
  | .invalidChoice level word =>
    "argument " ++ level.place ++ ": invalid choice: " ++ Text.quoted word ++ " (choose from "
      ++ Text.join ", " (level.choices.map Text.quoted) ++ ")"
  | .unrecognized arguments => "unrecognized arguments: " ++ Text.join " " arguments

/-- What is attached to the name of an option. -/
inductive Attached where
  | nothing
  /-- What follows a short name directly. -/
  | directly (t : Text)
  | afterEquals (t : Text)
  deriving DecidableEq, Repr

/-- An argument as it is understood. -/
inductive Argument where
  | word (t : Text)
  | dashes
  | known (t : Text) (f : Flag) (short : Bool) (attached : Attached)
  | unknown (t : Text)
  deriving DecidableEq, Repr

namespace Argument

/-- The argument as it was given. -/
def text : Argument → Text
  | .word t => t
  | .dashes => ['-', '-']
  | .known t .. => t
  | .unknown t => t

/-- Is this the name of a short option? -/
def isShort (name : Text) : Bool := !name.startsWith ['-', '-']

/-- The parts before and after the first equals sign, if there is one. -/
def splitEquals (t : Text) : Text × Attached :=
  let name := t.takeWhile (· != '=')
  match t.drop name.length with
  | [] => (name, .nothing)
  | _ :: value => (name, .afterEquals value)

/-- An option that an argument may stand for: its name, itself, and what is attached. -/
abbrev Candidate := Text × Flag × Attached

/-- The long options that the argument may be cut short from. -/
def longCandidates (level : Level) (t : Text) : List Candidate :=
  let (start, attached) := splitEquals t
  level.names.filterMap fun (name, f) =>
    if Text.startsWith name start then some (name, f, attached) else none

/-- The short options that the argument may start with. -/
def shortCandidates (level : Level) (t : Text) : List Candidate :=
  level.names.filterMap fun (name, f) =>
    if name = t.take 2 then some (name, f, .directly (t.drop 2))
    else if Text.startsWith name t then some (name, f, .nothing)
    else none

/-- The options that an argument without a full name may stand for. -/
def candidates (level : Level) (t : Text) : List Candidate :=
  if isShort t then shortCandidates level t else longCandidates level t

/-- The form of negative numbers, which are words. -/
def negativeNumber : Text := "^-\\d+$|^-\\d*\\.\\d+$"

/-- Is an argument that starts with a hyphen and stands for no option a word all the same? -/
def isWordLike (t : Text) : Bool :=
  (Regex.ofText? negativeNumber).any (·.search t) || t.contains ' '

/-- The option whose full name the argument has. -/
def byName? (level : Level) (t : Text) : Option Argument :=
  match level.flag? t with
  | some f => some (.known t f (isShort t) .nothing)
  | none =>
    match splitEquals t with
    | (_, .nothing) => none
    | (name, attached) => (level.flag? name).map fun f => .known t f (isShort name) attached

/-- Understands an argument other than two hyphens alone. -/
def ofText (level : Level) (t : Text) : Except UsageError Argument :=
  if t.head? != some '-' || t == ['-'] then .ok (.word t)
  else match byName? level t with
    | some argument => .ok argument
    | none =>
      match candidates level t with
      | [] => .ok (if isWordLike t then .word t else .unknown t)
      | [(name, f, attached)] => .ok (.known t f (isShort name) attached)
      | several => .error (.ambiguous t (several.map (·.1)))

/-- Understands the arguments of a level. -/
def ofTexts (level : Level) : List Text → Except UsageError (List Argument)
  | [] => .ok []
  | t :: rest =>
    if t = ['-', '-'] then .ok (.dashes :: rest.map .word)
    else do
      let argument ← ofText level t
      return argument :: (← ofTexts level rest)

end Argument

/-- The options in a group of short ones, after the first of them. What follows the last known
option is left over. -/
def cluster (level : Level) (f : Flag) : Text → Except UsageError (List Flag × List Text)
  | [] => .ok ([f], [])
  | c :: rest =>
    if c = '-' then .error (.valueIgnored f (c :: rest))
    else match level.flag? ['-', c] with
      | none => .ok ([f], ['-' :: c :: rest])
      | some g =>
        match rest with
        | '=' :: value => .error (.valueIgnored g value)
        | rest => do
          let (flags, left) ← cluster level g rest
          return (f :: flags, left)

/-- The options that an argument without a value stands for, and what is left over. -/
def flagsOf (level : Level) (f : Flag) (short : Bool) (attached : Attached) :
    Except UsageError (List Flag × List Text) :=
  match attached with
  | .nothing => .ok ([f], [])
  | .afterEquals value => .error (.valueIgnored f value)
  | .directly t => if short then cluster level f t else .error (.valueIgnored f t)

end SiteAudit.CommandLine
