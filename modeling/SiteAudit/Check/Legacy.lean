import SiteAudit.Check.Basic
import SiteAudit.Check.Marker
import SiteAudit.Lines

/-!
# Remains of libraries

Lines that still refer to libraries that are to be given up: their files in the two includes of
the theme, and their attributes and calls in all candidate files.
-/

namespace SiteAudit.Legacy

/-- The includes of the theme that bring scripts and styles. -/
def includes : List Text := ["_includes/head.liquid", "_includes/scripts.liquid"]

/-- The finding for a line of an include that names a file. -/
def assetFinding (file : Text) (line : Nat × Text) : Finding :=
  ⟨"legacy_bootstrap_runtime_asset", .blocking,
    "Legacy Bootstrap/jQuery/MDB runtime assets are still referenced in core includes.",
    file, line.1, Text.trim line.2⟩

/-- The findings in one include, which may be missing. -/
def assetFindings (files : FileTree) (root : Path) (file : Text) : Survey (List Finding) := do
  let path := root.joinText file
  if files.isFile path then
    let lines ← Lines.ofFile files path
    return ((Lines.numbered lines).filter fun line => Marker.asset.occursIn line.2).map
      (assetFinding file)
  else return []

/-- Looks for files of libraries in the includes. -/
def assetCheck : Check where
  id := "legacy_assets"
  version := "1.0.0"
  run site files _ := do
    return (← includes.mapM (assetFindings files site.root)).flatten

/-- A marker in any candidate file, with the finding for it. -/
structure InlineMarker where
  id : Text
  marker : Marker
  message : Text

/-- The markers, in the order of the findings for one line. -/
def inlineMarkers : List InlineMarker :=
  [⟨"legacy_data_toggle", .toggle, "Legacy Bootstrap `data-toggle` marker found."⟩,
    ⟨"legacy_jquery_usage", .call, "jQuery usage found; migrate to vanilla JS APIs."⟩]

/-- The findings for one line. -/
def lineFindings (file : Text) (line : Nat × Text) : List Finding :=
  (inlineMarkers.filter fun m => m.marker.occursIn line.2).map fun m =>
    ⟨m.id, .warning, m.message, file, line.1, Text.trim line.2⟩

/-- The findings in one candidate. -/
def fileFindings (files : FileTree) (root path : Path) : Survey (List Finding) := do
  let file ← relativeText path root
  let lines ← Lines.ofFile files path
  return (Lines.numbered lines).flatMap (lineFindings file)

/-- Looks for attributes and calls in the candidates. -/
def patternCheck : Check where
  id := "legacy_patterns"
  version := "1.0.0"
  run site files candidates := do
    return (← candidates.mapM (fileFindings files site.root)).flatten

end SiteAudit.Legacy
