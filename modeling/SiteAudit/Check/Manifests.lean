import SiteAudit.Check.Basic

/-!
# Manifests of migrations

An upgrade follows manifests. A catalog that publishes a list of them decides alone, even with an
empty list; without one, the directory of migrations is looked through for files named after the
versions that they lead from and to.
-/

namespace SiteAudit.Manifests

/-- The directory of migrations. -/
def directory : Text := "migrations"

/-- The text without a line feed at its end. -/
def dropFinalLineFeed (t : Text) : Text :=
  if t.getLast? = some '\n' then t.dropLast else t

/-- Can the text end the name of a manifest: a version and an extension? -/
def isTarget (t : Text) : Bool :=
  !t.contains '_' && [".yml".toList, ".yaml".toList].any fun extension =>
    t.endsWith extension && extension.length < t.length

/-- Is this the name of a manifest: one version, `_to_`, another version and an extension? A line
feed after it does not count. -/
def isName (name : Text) : Bool :=
  let source := name.takeWhile (· != '_')
  !source.isEmpty
    && (Text.dropPrefix? "_to_" (name.drop source.length)).any fun rest =>
      isTarget (dropFinalLineFeed rest)

/-- Is the entry a manifest directly in the directory? -/
def manifestName? (entry : List Text × Entry) : Option Text :=
  match entry with
  | ([name], .file _) => if isName name then some name else none
  | _ => none

/-- The manifests in the directory of migrations, in the order of their names. -/
def inDirectory (files : FileTree) (root : Path) : List Path :=
  let place := root.joinText directory
  let names := (files.below place.names).filterMap manifestName?
  (sortBy Text.before names).map place.joinText

/-- What a catalog publishes. One that fails counts as none. -/
def published (catalog : Catalog) : Survey (Option (List Path)) :=
  tryCatch catalog.manifests fun failure =>
    if failure.isHeldBack then do
      notice .catalogFailed
      return none
    else throw failure

/-- The published manifests that are there, unless this cannot be asked of one of them. -/
def present (files : FileTree) (workingDirectory : Path) :
    List Path → Except FileError (List Path)
  | [] => return []
  | path :: paths =>
    match files.asksForFile workingDirectory path with
    | .error fault => throw ⟨fault, path⟩
    | .ok isThere => do
      let found ← present files workingDirectory paths
      return if isThere then path :: found else found

/-- The manifests that are there. -/
def paths (site : Site) (files : FileTree) : Survey (List Path) := do
  match ← published site.catalog with
  | some paths =>
    match present files site.workingDirectory paths with
    | .ok found => return found
    | .error e => throw (.file e)
  | none => return inDirectory files site.root

/-- The finding for a site without manifests. -/
def missing : Finding :=
  ⟨"missing_migration_manifests", .warning,
    "No migration manifests found. Install/update `al_folio_core` to get release contracts.",
    "migrations/", 1, "Expected at least one `x.y.z_to_a.b.c.yml` manifest."⟩

/-- Looks for manifests. -/
def check : Check where
  id := "manifest"
  version := "1.0.0"
  run site files _ := do
    return if (← paths site files).isEmpty then [missing] else []

end SiteAudit.Manifests
