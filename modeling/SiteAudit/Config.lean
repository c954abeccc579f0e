import SiteAudit.Yaml.Construction

/-!
# Configurations

The configuration of a site is a YAML document. An empty one counts as an empty mapping. Nearly
everything that can be wrong with its text is reported with a reason; a scalar whose explicit tag
cannot take it is not, and stops whoever reads the configuration.
-/

namespace SiteAudit

/-- Why a text is no configuration. -/
inductive ConfigError where
  /-- The text is wrong, for a reason that can be reported. -/
  | invalid (reason : Text)
  /-- A scalar does not suit its tag. -/
  | unsuitable (cause : Yaml.Unsuitable)
  deriving DecidableEq, Repr

namespace Config

/-- A configuration. -/
abbrev Tree := Yaml.Document

/-- The cause of a failure as seen by those who read configurations. -/
def errorOf (text : Text) (e : Yaml.Error) : ConfigError :=
  match e, e.reason? text with
  | _, some reason => .invalid reason
  | .unsuitable cause, none => .unsuitable cause
  | _, none => .invalid []

/-- Reads a configuration. -/
def parse (text : Text) : Except ConfigError Tree :=
  match Yaml.Document.ofText text with
  | .error e => .error (errorOf text e)
  | .ok none => .ok .emptyMapping
  | .ok (some document) =>
    .ok (if Yaml.Document.isNull document.root then .emptyMapping else document)

end Config

end SiteAudit
