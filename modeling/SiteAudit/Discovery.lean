import SiteAudit.Braces
import SiteAudit.Regex
import SiteAudit.Run

/-!
# Candidate files

The files that may be audited and changed: those below the root that match one of the patterns,
except hidden ones and those whose path an expression rules out. They are ordered by the pattern
that finds them first, and then by their paths.

Which texts an expression is found in, and whether a text is an expression at all, is taken as it is
given (`Expression`), so that what holds of the candidate files holds for every list of expressions.
-/

namespace SiteAudit

/-- An expression that rules out paths: its text, and whether it is found in a text. There is no
answer to that if the text is no expression. -/
structure Expression where
  text : Text
  isFoundIn? : Option (Text → Bool)

namespace Expression

/-- The expression of the common kind that a text is read as. -/
def ofText (t : Text) : Expression := ⟨t, (Regex.ofText? t).map Regex.search⟩

/-- Is the expression found in the text? -/
def isFoundIn (e : Expression) (t : Text) : Bool := e.isFoundIn?.any (· t)

end Expression

/-- What decides about a run beside the files: where to look, what to leave out, and the names of
the configuration and of the report. -/
structure Settings where
  patterns : List Text
  ignored : List Expression
  configFile : Text
  reportFile : Text

namespace Settings

/-- Where the sources of a site are. -/
def defaultPatterns : List Text :=
  ["_config.yml",
    "_includes/**/*.\x7bliquid,html\x7d",
    "_layouts/**/*.\x7bliquid,html\x7d",
    "_pages/**/*.\x7bmd,markdown,liquid,html\x7d",
    "_posts/**/*.\x7bmd,markdown,liquid,html\x7d",
    "assets/js/**/*.js",
    "assets/css/**/*.css",
    "assets/tailwind/**/*.css"]

/-- Files of others, and files that are made by tools. -/
def ignoredTexts : List Text :=
  ["/distillpub/",
    "/search/ninja-footer\\.min\\.js$",
    "/bootstrap\\.bundle\\.min\\.js$",
    "/bootstrap-toc\\.min\\.js$",
    "\\.min\\.js$",
    "\\.map$"]

/-- The expressions for them. -/
def defaultIgnored : List Expression := ignoredTexts.map .ofText

/-- The name of the configuration. -/
def defaultConfigFile : Text := "_config.yml"

/-- The settings of a site as it usually is. -/
def default : Settings :=
  ⟨defaultPatterns, defaultIgnored, defaultConfigFile, "al-folio-upgrade-report.md"⟩

end Settings

namespace Discovery

/-- Is one of the expressions found in the path? -/
def isIgnored (ignored : List Expression) (path : Path) : Bool :=
  ignored.any (·.isFoundIn path.text)

/-- Does a name on the path start with a dot? -/
def isHidden (names : List Text) : Bool := names.any fun name => name.head? == some '.'

/-- Everything at a root and below it, by the names that lead there. -/
def candidates (files : FileTree) (root : Path) : List (List Text × Entry) :=
  match files.place root with
  | .error _ => []
  | .ok place =>
    if files.entry? place = some .directory then ([], .directory) :: files.below place else []

/-- Does the pattern match what is there? -/
def matchesEntry (p : Glob.Pattern) (entry : List Text × Entry) : Bool :=
  Glob.matchesNames p.parts entry.1 && (!p.directories || entry.2 == .directory)

/-- The patterns that a pattern with braces stands for. -/
def expansions (pattern : Text) : Except Glob.Error (List Glob.Pattern) :=
  (Braces.expand pattern).mapM Glob.parse

/-- The path below the root as a text, which orders the matches. -/
def sortKey (names : List Text) : Text := Text.join ['/'] names

/-- What one pattern with braces matches, hidden names apart, in the order of the paths. -/
def matching (files : FileTree) (root : Path) (pattern : Text) :
    Except Glob.Error (List (List Text × Entry)) := do
  let patterns ← expansions pattern
  let found := (candidates files root).filter fun entry =>
    !isHidden entry.1 && patterns.any (matchesEntry · entry)
  return sortBy (fun a b => Text.before (sortKey a.1) (sortKey b.1)) found

/-- Takes the files among matches that have not been taken before. -/
def takeMatches (root : Path) (ignored : List Expression) :
    List (List Text) → List (List Text × Entry) → Survey (List (List Text))
  | taken, [] => return taken
  | taken, (names, entry) :: rest => do
    let path := root.join ⟨[], names⟩
    if taken.contains names || entry == .directory then takeMatches root ignored taken rest
    else if isIgnored ignored path then
      notice (.ignored path)
      takeMatches root ignored taken rest
    else takeMatches root ignored (taken ++ [names]) rest

/-- Takes the files that one pattern after the other matches. -/
def takePatterns (files : FileTree) (root : Path) (ignored : List Expression) :
    List (List Text) → List Text → Survey (List (List Text))
  | taken, [] => return taken
  | taken, pattern :: patterns => do
    match matching files root pattern with
    | .error e => throw (.glob e)
    | .ok found => takePatterns files root ignored (← takeMatches root ignored taken found) patterns

/-- The files that patterns match, each once. -/
def collect (files : FileTree) (root : Path) (patterns : List Text) (ignored : List Expression) :
    Survey (List Path) := do
  let taken ← takePatterns files root ignored [] patterns
  notice (.located taken.length root)
  return taken.map fun names => root.join ⟨[], names⟩

/-- The candidate files below a root. They are not looked for where a text is no expression. -/
def locate (files : FileTree) (root : Path) (patterns : List Text) (ignored : List Expression) :
    Survey (List Path) :=
  match ignored.find? (·.isFoundIn?.isNone) with
  | some e => throw (.expression e.text)
  | none => collect files root patterns ignored

end Discovery

end SiteAudit
