import SiteAudit.Check.All
import SiteAudit.Proofs.LineFindings

/-!
# Runs of single checks

What each check gives, told from what it looks at: the configuration as it can be read
(`Config.loaded`), the lines of files, and the names of files. No notices that were given before
matter.
-/

namespace SiteAudit

variable {site : Site} {files : FileTree} {paths : List Path}

/-! ### Configurations -/

/-- The content of the file that a path leads to, if there is one. -/
def FileTree.content? (files : FileTree) (path : Path) : Option Bytes := (files.read path).toOption

/-- The content of a path is that of the file it leads to. -/
lemma FileTree.content?_eq_some {path : Path} {content : Bytes} :
    files.content? path = some content ↔ files.find path = .ok (.file content) := by
  unfold content? read
  cases files.find path with
  | error fault => exact iff_of_false (fun h => by cases h) fun h => by cases h
  | ok e =>
    cases e with
    | directory => exact iff_of_false (fun h => by cases h) fun h => by cases h
    | file content' =>
      constructor
      · intro h
        cases h
        rfl
      · intro h
        cases h
        rfl

namespace Config

/-- What a content is loaded as; without a file there is no configuration. -/
def loaded : Option Bytes → Except Failure (Except Text (Option Tree))
  | none => .ok (.ok none)
  | some content => match ofBytes content with
    | .ok tree => .ok (.ok (some tree))
    | .error (.invalid reason) => .ok (.error reason)
    | .error (.unsuitable cause) => .error (.config (.unsuitable cause))

/-- What is loaded depends on the content of the file only. -/
lemma runFrom_load_content (files : FileTree) (root : Path) (name : Text)
    (notices : List Notice) :
    (runFrom (load files root name) notices).1 = loaded (files.content? (root.joinText name)) := by
  have hcontent : ∀ content, files.content? (root.joinText name) = some content ↔ _ :=
    fun _ => FileTree.content?_eq_some
  unfold load
  dsimp only
  split
  · rename_i content hfind
    rw [(hcontent content).2 hfind, loaded]
    rcases ofBytes content with (reason | cause) | tree
    · rfl
    · rfl
    · rfl
  · rename_i hnot
    rw [Option.eq_none_iff_forall_ne_some.2 fun content h => hnot content ((hcontent content).1 h)]
    rfl

/-- What follows a configuration that is loaded depends on what it is loaded as. -/
lemma runFrom_load_bind {α : Type} {root : Path} {name : Text}
    {f : Except Text (Option Tree) → Survey α} {g : Except Text (Option Tree) → α}
    (h : ∀ loaded notices, (runFrom (f loaded) notices).1 = .ok (g loaded))
    (notices : List Notice) :
    (runFrom (load files root name >>= f) notices).1 =
      (loaded (files.content? (root.joinText name))).map g := by
  rw [runFrom_bind, runFrom_of_fst (runFrom_load_content files root name notices)]
  cases loaded (files.content? (root.joinText name)) with
  | error e => rfl
  | ok result => exact h result _

end Config

/-! ### Checks -/

/-- Findings that are told element by element are told altogether. -/
lemma runFrom_mapM_flatten {α : Type} {l : List α} {f : α → Survey (List Finding)}
    {g : α → List Finding} (h : ∀ a ∈ l, ∀ notices, (runFrom (f a) notices).1 = .ok (g a))
    (notices : List Notice) :
    (runFrom (do return (← l.mapM f).flatten : Survey (List Finding)) notices).1 =
      .ok (l.flatMap g) :=
  runFrom_bind_fst (runFrom_mapM_fst h notices) fun _ => rfl

namespace Manifests

/-- The findings for a site without a catalog. -/
def foundIn (files : FileTree) (root : Path) : List Finding :=
  if (inDirectory files root).isEmpty then [missing] else []

/-- Without a catalog the directory of migrations is asked. -/
lemma runFrom_check_absent (h : site.catalog = .absent) (notices : List Notice) :
    (runFrom (check.run site files paths) notices).1 = .ok (foundIn files site.root) := by
  have hpaths : (runFrom (Manifests.paths site files) notices).1 =
      .ok (inDirectory files site.root) := by
    unfold Manifests.paths
    rw [h]
    rfl
  exact runFrom_bind_fst hpaths fun _ => rfl

end Manifests

namespace Contract

/-- The findings about a configuration that has been loaded. -/
def foundIn (file : Text) : Except Text (Option Config.Tree) → List Finding
  | .error reason => [unreadable file reason]
  | .ok none => []
  | .ok (some tree) => violations file tree

/-- What is found in the configuration depends on its content only. -/
lemma runFrom_check_content (notices : List Notice) :
    (runFrom (check.run site files paths) notices).1 =
      (Config.loaded (files.content? (site.root.joinText site.settings.configFile))).map
        (foundIn site.settings.configFile) := by
  refine Config.runFrom_load_bind (fun result notices => ?_) notices
  rcases result with reason | _ | tree
  · rfl
  · rfl
  · rfl

end Contract

namespace Legacy

/-- The findings about files in the includes. -/
def assetsIn (files : FileTree) (root : Path) : List Finding :=
  includes.flatMap fun file => assetsOn file (Lines.ofPath files (root.joinText file))

/-- What is found in the two includes is found on their lines. -/
lemma runFrom_assetCheck (notices : List Notice) :
    (runFrom (assetCheck.run site files paths) notices).1 = .ok (assetsIn files site.root) :=
  runFrom_mapM_flatten (fun file _ => runFrom_assetFindings files site.root file) notices

/-- The findings about attributes and calls in candidates. -/
def inlineIn (files : FileTree) (root : Path) (paths : List Path) : List Finding :=
  paths.flatMap fun path => inlineFindings (Codemod.nameUnder root path) (Lines.ofPath files path)

/-- What is found in candidates below the root is found on their lines. -/
lemma runFrom_patternCheck (hbelow : ∀ path ∈ paths, (path.relativeTo? site.root).isSome)
    (notices : List Notice) :
    (runFrom (patternCheck.run site files paths) notices).1 =
      .ok (inlineIn files site.root paths) := by
  refine runFrom_mapM_flatten (fun path hpath => ?_) notices
  obtain ⟨names, hnames⟩ := Option.isSome_iff_exists.1 (hbelow path hpath)
  exact runFrom_fileFindings hnames

end Legacy

namespace RemoteLoader

/-- A configuration that has been loaded allows remote loading. -/
def isAllowedIn : Except Text (Option Config.Tree) → Bool
  | .ok (some tree) => isAllowedBy tree
  | _ => false

/-- The findings in the runtime of a site. -/
def templatesIn (files : FileTree) (root : Path) : List Finding :=
  templatesOn runtimeFile (Lines.ofPath files (root.joinText runtimeFile))

/-- The runtime of a site is known by its path from the root. -/
lemma label_runtimeFile (root : Path) : label root (root.joinText runtimeFile) = runtimeFile := by
  have hfile : Path.ofText runtimeFile = ⟨[], (Path.ofText runtimeFile).names⟩ := by decide
  have htext : Path.text ⟨[], (Path.ofText runtimeFile).names⟩ = runtimeFile := by decide
  unfold label Path.joinText
  rw [hfile, Codemod.relativeTo?_join]
  exact htext

/-- What is below the root is looked up as it is. -/
lemma seen_runtimeFile (site : Site) :
    site.seen (site.root.joinText runtimeFile) = site.root.joinText runtimeFile := by
  have hfile : Path.ofText runtimeFile = ⟨[], (Path.ofText runtimeFile).names⟩ := by decide
  unfold Site.seen Path.joinText
  rw [hfile, Codemod.relativeTo?_join]
  rfl

/-- The locator gives directories of packages, whatever notices were given before. -/
lemma exists_roots (l : Locator) (name : Text) :
    ∃ roots, ∀ notices, (runFrom (l.roots name) notices).1 = .ok roots := by
  cases l with
  | listed packages => exact ⟨_, fun _ => rfl⟩
  | installed host workingDirectory =>
    refine ⟨((host.lookup name).map (·.directories workingDirectory)).getD [], fun notices => ?_⟩
    unfold Locator.roots
    dsimp only
    split
    · rfl
    · rfl

/-- The runtime files that are there, of the site and of packages in the directories. -/
def runtimesIn (site : Site) (files : FileTree) (roots : List Path) : List Path :=
  (((site.root :: roots).map (·.joinText runtimeFile)).filter fun path =>
    files.isFile (site.seen path)).eraseDups

/-- The findings in the runtime files. -/
def foundIn (site : Site) (files : FileTree) (roots : List Path) : List Finding :=
  (runtimesIn site files roots).flatMap fun path =>
    templatesOn (label site.root path) (Lines.ofPath files (site.seen path))

/-- Remote loading is looked for in the runtime files of the packages, unless it is allowed. -/
lemma runFrom_check_roots {roots : List Path}
    (h : ∀ notices, (runFrom (site.locator.roots Package.distill) notices).1 = .ok roots)
    (notices : List Notice) :
    (runFrom (check.run site files paths) notices).1 =
      (Config.loaded (files.content? (site.root.joinText site.settings.configFile))).map
        fun loaded => if isAllowedIn loaded then [] else foundIn site files roots := by
  have hallowed : isAllowed site files =
      (Config.load files site.root site.settings.configFile >>= fun loaded =>
        return isAllowedIn loaded) := by
    unfold isAllowed isAllowedIn
    congr 1
    funext loaded
    rcases loaded with reason | _ | tree
    · rfl
    · rfl
    · rfl
  change (runFrom (isAllowed site files >>= _) notices).1 = _
  rw [hallowed, bind_assoc]
  refine Config.runFrom_load_bind (fun result notices => ?_) notices
  rw [pure_bind]
  cases isAllowedIn result with
  | true => rfl
  | false =>
    have hpaths : ∀ notices, (runFrom (runtimePaths site files) notices).1 =
        .ok (runtimesIn site files roots) :=
      fun notices => runFrom_bind_fst (h notices) fun _ => rfl
    exact runFrom_bind_fst (hpaths notices) fun notices =>
      runFrom_mapM_flatten (fun path _ =>
        runFrom_runtimeFindings files site.root path (site.seen path)) notices

/-- Without packages only the runtime of the site is looked at. -/
lemma runFrom_check_content (h : site.locator = .listed []) (notices : List Notice) :
    (runFrom (check.run site files paths) notices).1 =
      (Config.loaded (files.content? (site.root.joinText site.settings.configFile))).map
        fun loaded => if isAllowedIn loaded then [] else templatesIn files site.root := by
  have hroots : ∀ notices, (runFrom (site.locator.roots Package.distill) notices).1 = .ok [] := by
    intro notices
    rw [h]
    rfl
  have hfound : foundIn site files [] = templatesIn files site.root := by
    unfold foundIn runtimesIn templatesIn
    rw [List.map_singleton]
    by_cases hfile : files.isFile (site.root.joinText runtimeFile) = true
    · rw [List.filter_cons_of_pos (by rwa [seen_runtimeFile])]
      show templatesOn _ (Lines.ofPath files (site.seen _)) ++ [] = _
      rw [List.append_nil, label_runtimeFile, seen_runtimeFile]
    · rw [List.filter_cons_of_neg (by rwa [seen_runtimeFile]), Lines.ofPath_of_not_isFile hfile]
      rfl
  rw [runFrom_check_roots hroots, hfound]

end RemoteLoader

namespace Overrides

/-- The findings for a configuration that has been loaded. -/
def foundIn (files : FileTree) (root : Path) : Except Text (Option Config.Tree) → List Finding
  | .ok (some tree) =>
    if usesCoreTheme tree then
      (themeFiles.filter fun file => files.isFile (root.joinText file)).map finding
    else []
  | _ => []

/-- Overrides are found if the configuration asks for the theme. -/
lemma runFrom_check_content (notices : List Notice) :
    (runFrom (check.run site files paths) notices).1 =
      (Config.loaded (files.content? (site.root.joinText site.settings.configFile))).map
        (foundIn files site.root) := by
  refine Config.runFrom_load_bind (fun result notices => ?_) notices
  rcases result with reason | _ | tree
  · rfl
  · rfl
  · unfold foundIn
    dsimp only
    split
    · rfl
    · rfl

end Overrides

end SiteAudit
