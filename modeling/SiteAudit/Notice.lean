import SiteAudit.FileTree

/-!
# Notices

What a run says about itself while it goes on. Each notice has a level, the part of the program
it comes from, and words; some are followed by a trace of the failure that they report.
-/

namespace SiteAudit

/-- How much a notice matters. -/
inductive Level where
  | debug
  | warning
  | error
  deriving DecidableEq, Repr

/-- The word for a level. -/
def Level.name : Level → Text
  | .debug => "DEBUG"
  | .warning => "WARNING"
  | .error => "ERROR"

/-- Something that a run says about itself. -/
inductive Notice where
  /-- A completion of the namespace was taken back. -/
  | completionDeclined
  /-- A file that is not UTF-8 is left as it is. -/
  | skippedEncoding (file : Text)
  /-- A file that cannot be read is left as it is. -/
  | skippedFile (file : Text) (cause : FileError)
  /-- A file was changed by the given replacements. -/
  | changed (file : Text) (rules : List Text)
  /-- A file that cannot be read has no lines. -/
  | unread (path : Path)
  /-- A file is left out of the candidates. -/
  | ignored (path : Path)
  /-- The number of candidates. -/
  | located (count : Nat) (root : Path)
  | parsedConfig (path : Path)
  /-- A check failed and has no findings. -/
  | checkFailed (id : Text)
  | checkDone (id : Text) (count : Nat)
  | wroteReport (path : Path)
  /-- The catalog of manifests failed. -/
  | catalogFailed
  | importFailed (package : Text)
  | providerFailed (package : Text)
  | notInstalled (package : Text)
  deriving DecidableEq, Repr

namespace Notice

/-- How much a notice matters: what a run leaves out warns, and what fails inside it is an error. -/
def level : Notice → Level
  | .completionDeclined | .skippedEncoding _ | .skippedFile .. | .unread _ | .catalogFailed
  | .importFailed _ | .providerFailed _ => .warning
  | .checkFailed _ => .error
  | .changed .. | .ignored _ | .located .. | .parsedConfig _ | .checkDone .. | .wroteReport _
  | .notInstalled _ => .debug

/-- The part of the program that a notice comes from. -/
def origin : Notice → Text
  | .completionDeclined => "al_folio_upgrade.codemods.namespace"
  | .skippedEncoding _ | .skippedFile .. | .changed .. => "al_folio_upgrade.codemods.applier"
  | .unread _ | .ignored _ | .located .. => "al_folio_upgrade.core.discover"
  | .parsedConfig _ => "al_folio_upgrade.core.config"
  | .checkFailed _ | .checkDone .. => "al_folio_upgrade.core.engine"
  | .wroteReport _ => "al_folio_upgrade.reports.upgrade_report"
  | .catalogFailed => "al_folio_upgrade.checks.manifest"
  | .importFailed _ | .providerFailed _ | .notInstalled _ => "al_folio_upgrade.core.registry"

/-- Does a trace of the failure follow? -/
def hasTrace : Notice → Bool
  | .checkFailed _ | .catalogFailed | .importFailed _ | .providerFailed _ => true
  | _ => false

/-- The words of a notice. -/
def message : Notice → Text
  | .completionDeclined =>
    "al_folio namespace could not be completed safely; leaving config unchanged"
  | .skippedEncoding file => "skipping " ++ file ++ ": not valid UTF-8"
  | .skippedFile file cause => "skipping " ++ file ++ ": " ++ cause.message
  | .changed file rules => "rewrote " ++ file ++ " (" ++ Text.join ", " rules ++ ")"
  | .unread path => "could not read " ++ path.text
  | .ignored path => "ignoring " ++ path.text
  | .located count root =>
    "located " ++ Text.ofNat count ++ " candidate file(s) under " ++ root.text
  | .parsedConfig path => "parsed " ++ path.text
  | .checkFailed id => "Check '" ++ id ++ "' raised an exception — skipped"
  | .checkDone id count =>
    "check " ++ id ++ ": " ++ Text.ofNat count ++ " finding(s)"
  | .wroteReport path => "wrote " ++ path.text
  | .catalogFailed => "Migration catalog raised — scanning migrations/ instead"
  | .importFailed package =>
    "Importing " ++ package ++ " failed — falling back to migrations/"
  | .providerFailed package =>
    package ++ ".migration_manifest_paths() failed — falling back to migrations/"
  | .notInstalled package => "package " ++ package ++ " not installed"

/-- Is the notice more than a detail for those who look for a mistake? -/
def isSerious (n : Notice) : Bool := n.level != .debug

end Notice

end SiteAudit
