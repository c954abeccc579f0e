import SiteAudit.Check.Basic
import SiteAudit.Config.File

/-!
# Overrides

A site that uses the core of the theme may shadow its files by files of its own, which an upgrade
does not reach.
-/

namespace SiteAudit.Overrides

/-- The files of the theme. -/
def themeFiles : List Text :=
  ["_includes/head.liquid",
    "_includes/scripts.liquid",
    "_layouts/default.liquid",
    "_layouts/post.liquid",
    "_layouts/page.liquid",
    "_layouts/distill.liquid",
    "assets/js/common.js",
    "assets/js/theme.js",
    "assets/js/tooltips-setup.js",
    "assets/tailwind/app.css",
    "tailwind.config.js"]

/-- Is the core of the theme the value, or one of its items? -/
def names (tree : Config.Tree) (value : Yaml.Value) : Bool :=
  match tree.collection? value with
  | some (.sequence items) => items.any (Yaml.Document.isText Package.core)
  | _ => Yaml.Document.isText Package.core value

/-- Does a configuration use the core of the theme, as its theme or as a plugin? -/
def usesCoreTheme (tree : Config.Tree) : Bool :=
  (tree.get? tree.root "theme").any (Yaml.Document.isText Package.core)
    || (tree.get? tree.root "plugins").any (names tree)

/-- The finding for a file that shadows one of the theme. -/
def finding (file : Text) : Finding :=
  ⟨"core_override_drift", .warning,
    "Local override shadows `al_folio_core` theme file and may need manual review during upgrades.",
    file, 1, "Local override present."⟩

/-- Looks for files that shadow those of the theme. -/
def check : Check where
  id := "core_override"
  version := "1.0.0"
  run site files _ := do
    match ← Config.load files site.root site.settings.configFile with
    | .ok (some tree) =>
      if usesCoreTheme tree then
        let present := themeFiles.filter fun file => files.isFile (site.root.joinText file)
        return present.map finding
      else return []
    | _ => return []

end SiteAudit.Overrides
