import SiteAudit.Check.Basic
import SiteAudit.Check.Marker
import SiteAudit.Config.File
import SiteAudit.Lines
import SiteAudit.Namespace

/-!
# Remote loading

Unless the configuration allows it, the distribution runtime must not load its script from a
foreign host. The runtime is looked for in the site and in the packages that bring it.
-/

namespace SiteAudit.RemoteLoader

/-- Where the runtime is in a site or a package. -/
def runtimeFile : Text := "assets/js/distillpub/transforms.v2.js"

/-- Does a configuration allow remote loading? -/
def isAllowedBy (tree : Config.Tree) : Bool :=
  (tree.dig tree.root [Namespace.key, SettingGroup.distill.key, "allow_remote_loader"]).any
    Yaml.Document.isTrue

/-- Is remote loading allowed? A missing or wrong configuration does not allow it. -/
def isAllowed (site : Site) (files : FileTree) : Survey Bool := do
  match ← Config.load files site.root site.settings.configFile with
  | .ok (some tree) => return isAllowedBy tree
  | _ => return false

/-- The runtime files that are there, that of the site first, each once. -/
def runtimePaths (site : Site) (files : FileTree) : Survey (List Path) := do
  let roots := site.root :: (← site.locator.roots Package.distill)
  let places := roots.map (·.joinText runtimeFile)
  return (places.filter fun path => files.isFile (site.seen path)).eraseDups

/-- The name of a runtime file in findings: its path from the root, or the package it is in. -/
def label (root path : Path) : Text :=
  match path.relativeTo? root with
  | some names => Path.text ⟨[], names⟩
  | none => Package.distill ++ [':'] ++ path.text

/-- The finding for a line. -/
def finding (file : Text) (line : Nat × Text) : Finding :=
  ⟨"distill_remote_loader_enabled", .blocking,
    "Distill runtime still references remote template loader while allow_remote_loader is false.",
    file, line.1, Text.trim line.2⟩

/-- The findings in one runtime file, which is looked up at the place. -/
def fileFindings (files : FileTree) (root path : Path) (place : Path := path) :
    Survey (List Finding) := do
  let lines ← Lines.ofFile files place
  return ((Lines.numbered lines).filter fun line => Marker.remoteTemplate.occursIn line.2).map
    (finding (label root path))

/-- Looks at the runtime files, unless remote loading is allowed. -/
def check : Check where
  id := "distill_runtime"
  version := "1.0.0"
  run site files _ := do
    if ← isAllowed site files then return []
    let found ← (← runtimePaths site files).mapM fun path =>
      fileFindings files site.root path (site.seen path)
    return found.flatten

end SiteAudit.RemoteLoader
