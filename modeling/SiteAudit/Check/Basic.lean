import SiteAudit.Discovery
import SiteAudit.Finding
import SiteAudit.Package

/-!
# Checks

A check surveys a site, given the candidate files, and returns its findings.
-/

namespace SiteAudit

/-- A site as it is looked at: its root, the directory from which relative paths are seen, the
settings, where to ask for companion packages, and the memory of the process. -/
structure Site where
  root : Path
  workingDirectory : Path
  settings : Settings
  catalog : Catalog
  locator : Locator
  memory : Yaml.Memory

/-- Where a path is looked up: below the root as it is, elsewhere from the working directory. -/
def Site.seen (site : Site) (path : Path) : Path :=
  if (path.relativeTo? site.root).isSome then path else site.workingDirectory.join path

/-- A check has a name and a version, and surveys the files of a site. -/
structure Check where
  id : Text
  version : Text
  run : Site → FileTree → List Path → Survey (List Finding)

end SiteAudit
