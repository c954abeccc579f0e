import SiteAudit.Check.Basic
import SiteAudit.Config.File
import SiteAudit.Namespace

/-!
# The contract of the configuration

The namespace must be a mapping, name the style engine, and have its groups of settings. Each
requirement is looked at by itself, so that one audit lists every gap. A configuration that is
wrong has a single finding, and a missing one has none.
-/

namespace SiteAudit.Contract

/-- The style engine that is required. -/
def styleEngine : Text := "tailwind"

/-- A finding about the configuration as a whole. -/
def finding (file id : Text) (severity : Severity) (message snippet : Text) : Finding :=
  ⟨id, severity, message, file, 1, snippet⟩

/-- A requirement on the namespace and the finding for its violation. -/
structure Requirement where
  id : Text
  severity : Severity
  message : Text
  snippet : Text
  /-- Is the requirement met, given the value of the namespace if there is one? -/
  isMet : Config.Tree → Option Yaml.Value → Bool

/-- The value of a key of the namespace. -/
def setting? (tree : Config.Tree) (namespace_ : Option Yaml.Value) (key : Text) :
    Option Yaml.Value :=
  namespace_.bind fun value => tree.get? value key

/-- Is the value there and a mapping? -/
def isMapping (tree : Config.Tree) (value : Option Yaml.Value) : Bool := value.any tree.isMapping

/-- The requirements, in the order of their findings. -/
def requirements : List Requirement :=
  [⟨"missing_al_folio_namespace", .blocking,
      "Missing `al_folio` config namespace required for v1.x.",
      "Add al_folio.api_version, style_engine, compat, and upgrade keys.",
      isMapping⟩,
    ⟨"style_engine_not_tailwind", .blocking,
      "`al_folio.style_engine` should be set to `tailwind` for v1.x.",
      "Set al_folio.style_engine: tailwind",
      fun tree value =>
        (setting? tree value "style_engine").any (Yaml.Document.isText styleEngine)⟩,
    ⟨"missing_tailwind_namespace", .warning,
      "Missing `al_folio.tailwind` namespace for v1 tailwind runtime contract.",
      "Add al_folio.tailwind.version/preflight/css_entry.",
      fun tree value => isMapping tree (setting? tree value SettingGroup.tailwind.key)⟩,
    ⟨"missing_distill_namespace", .warning,
      "Missing `al_folio.distill` namespace for Distill runtime contract.",
      "Add al_folio.distill.engine/source/allow_remote_loader.",
      fun tree value => isMapping tree (setting? tree value SettingGroup.distill.key)⟩]

/-- The violations of the contract by a configuration. -/
def violations (file : Text) (tree : Config.Tree) : List Finding :=
  let namespace_ := tree.get? tree.root Namespace.key
  let violated := requirements.filter fun r => !r.isMet tree namespace_
  violated.map fun r => finding file r.id r.severity r.message r.snippet

/-- The finding for a configuration that is wrong. -/
def unreadable (file reason : Text) : Finding :=
  finding file "invalid_config_yaml" .blocking (file ++ " could not be parsed: " ++ reason)
    "Fix YAML syntax before running upgrade codemods."

/-- Looks at the configuration. -/
def check : Check where
  id := "config_contract"
  version := "1.0.0"
  run site files _ := do
    let file := site.settings.configFile
    match ← Config.load files site.root file with
    | .error reason => return [unreadable file reason]
    | .ok none => return []
    | .ok (some tree) => return violations file tree

end SiteAudit.Contract
