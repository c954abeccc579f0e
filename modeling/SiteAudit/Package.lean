import SiteAudit.Json.Value
import SiteAudit.Run

/-!
# Companion packages

Two packages may stand beside a site: the core of the theme, which publishes the manifests of
migrations, and the distribution runtime, which brings scripts. `Catalog.manifests` and
`Locator.roots` ask for them, either in a fixed list or in the packages that are loaded and
installed where the program runs.
-/

namespace SiteAudit

namespace Package

/-- The package that publishes manifests. -/
def core : Text := "al_folio_core"

/-- The package that brings scripts. -/
def distill : Text := "al_folio_distill"

/-- The file that a package starts with and the directories that it is searched in. -/
structure Location where
  origin : Option Text
  search : List Text
  deriving DecidableEq, Repr

/-- Origins that are no files. -/
def Location.noFiles : List Text := ["", "built-in", "frozen"]

/-- The directory of a package: the first one that is searched, or else the one of its file. -/
def Location.directory? (l : Location) : Option Path :=
  match l.search, l.origin with
  | place :: _, _ => some (Path.ofText place)
  | [], some origin =>
    if noFiles.contains origin then none else some (Path.ofText origin).parent
  | [], none => none

/-- A value that a package answers with, or an item of one, as far as it is looked at. -/
inductive Answer where
  | text (t : Text)
  | path (p : Path)
  /-- Anything else: whether it counts as something; the path that it can be read as; and the items
  that it gives, perhaps until it raises. Each of these questions may raise, and what has no items
  raises at once. -/
  | other (counts : Except Raised Bool) (asPath : Except Raised Path) (items : List Answer)
    (ending : Option Raised)

/-- What a loaded package does when it is asked for its manifests. -/
inductive Provider where
  /-- It has nothing that can be asked. -/
  | missing
  /-- It raises when it is looked for something to ask. -/
  | hidden (how : Raised)
  /-- It raises when it is asked. -/
  | raising (how : Raised)
  | answering (answer : Answer)

/-- What becomes of the attempt to load an installed package. -/
inductive Loading where
  | loaded (provider : Provider)
  /-- It cannot be imported. -/
  | unavailable
  /-- It raises anything else when it is imported. -/
  | raising (how : Raised)

end Package

/-- What is known of a package: whether it is loaded already and whether it is installed. -/
structure Package where
  loaded : Option (Package.Location × Package.Provider)
  installed : Option (Package.Location × Package.Loading)

/-- The packages where the program runs. -/
abbrev Host := List (Text × Package)

namespace Package

namespace Answer

/-- A value without items. -/
def single (counts : Bool) : Answer := .other (.ok counts) (.error .failure) [] (some .failure)

/-- A list, which counts as something unless it is empty. -/
def list (items : List Answer) : Answer := .other (.ok !items.isEmpty) (.error .failure) items none

mutual

/-- The value that is written as JSON. The items of an object are its keys. -/
def ofJson : Json → Answer
  | .null => single false
  | .bool b => single b
  | .int n => single (n != 0)
  | .float x => single !x.sameInt 0
  | .text t => .text t
  | .array items => list (ofItems items)
  | .object entries => list (entries.map fun entry => .text entry.1)

/-- The values in a list. -/
def ofItems : List Json → List Answer
  | [] => []
  | item :: items => ofJson item :: ofItems items

end

instance : Coe Json Answer := ⟨ofJson⟩

/-- Does the value count as something? -/
def counts : Answer → Except Raised Bool
  | .text t => .ok !t.isEmpty
  | .path _ => .ok true
  | .other counts _ _ _ => counts

/-- The path that an item of an answer stands for. -/
def itemPath : Answer → Except Raised Path
  | .text t => .ok (Path.ofText t)
  | .path p => .ok p
  | .other _ asPath _ _ => asPath

/-- The paths that items stand for, up to the first one that raises. -/
def itemPaths (ending : Option Raised) : List Answer → Except Raised (List Path)
  | [] =>
    match ending with
    | none => .ok []
    | some how => .error how
  | item :: items => do
    let path ← item.itemPath
    return path :: (← itemPaths ending items)

/-- The paths that an answer stands for. One that counts as nothing stands for none; a text or a
path by itself is no list. -/
def paths (answer : Answer) : Except Raised (List Path) := do
  if !(← answer.counts) then return []
  match answer with
  | .text t => return [Path.ofText t]
  | .path p => return [p]
  | .other _ _ items ending => itemPaths ending items

end Answer

/-- Asks a package. A failure is held back and noticed, and then there is no answer. -/
def asked {α : Type} (n : Notice) (answer : Except Raised α) : Survey (Option α) :=
  match answer with
  | .ok a => return some a
  | .error .failure => do
    notice n
    return none
  | .error .exit => throw (.raised .exit)

/-- The manifests that a provider publishes, or none without an answer. What it raises before it is
asked is not held back. -/
def Provider.manifests (provider : Provider) (name : Text) : Survey (Option (List Path)) :=
  match provider with
  | .missing => return none
  | .hidden how => throw (.raised how)
  | .raising how => asked (.providerFailed name) (.error how)
  | .answering answer => asked (.providerFailed name) answer.paths

/-- The manifests that a package publishes. -/
def manifests (p : Package) (name : Text) : Survey (Option (List Path)) :=
  match p.loaded, p.installed with
  | some (_, provider), _ => provider.manifests name
  | none, some (_, .loaded provider) => provider.manifests name
  | none, some (_, .unavailable) => return none
  | none, some (_, .raising how) => asked (.importFailed name) (.error how)
  | none, none => return none

/-- The directories of a package, without double dots and each once. -/
def directories (p : Package) (workingDirectory : Path) : List Path :=
  let locations := (p.loaded.map (·.1)).toList ++ (p.installed.map (·.1)).toList
  let found := locations.filterMap fun l => l.directory?.map (·.resolve workingDirectory)
  found.eraseDups

end Package

/-- Where to ask for the manifests of migrations. -/
inductive Catalog where
  /-- There is no catalog. -/
  | absent
  | listed (paths : List Path)
  | raising (how : Raised)
  /-- The core of the theme publishes them. -/
  | published (host : Host)

/-- The manifests of a catalog, or none without one. -/
def Catalog.manifests (c : Catalog) : Survey (Option (List Path)) :=
  match c with
  | .absent => return none
  | .listed paths => return some paths
  | .raising how => throw (.raised how)
  | .published host =>
    match host.lookup Package.core with
    | none => return none
    | some package => package.manifests Package.core

/-- Where to ask for the directories of packages. -/
inductive Locator where
  | listed (packages : List (Text × List Path))
  | installed (host : Host) (workingDirectory : Path)

/-- The directories of a package. -/
def Locator.roots (l : Locator) (name : Text) : Survey (List Path) :=
  match l with
  | .listed packages => return (packages.lookup name).getD []
  | .installed host workingDirectory => do
    let found := ((host.lookup name).map (·.directories workingDirectory)).getD []
    if found.isEmpty then notice (.notInstalled name)
    return found

end SiteAudit
