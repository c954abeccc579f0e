import SiteAudit.Proofs.CheckRuns
import SiteAudit.Proofs.Order

/-!
# Trees that agree

An audit looks at the candidate files, the configuration, two includes, the runtime, and the names
of files of the theme and of manifests. Sites that are alike in all of these have the same findings
(`Site.audit_of_alike`), whatever else there is and wherever their roots are; so one site has the
same findings in trees that agree on them (`Site.audit_of_agree`).
-/

namespace SiteAudit

variable {site site' : Site} {files files' : FileTree} {paths paths' : List Path}
  {taken : List (List Text)}

namespace FileTree

/-- A file of the given name is directly in the place. -/
def HasFileIn (files : FileTree) (place : List Text) (name : Text) : Prop :=
  ∃ content, ([name], .file content) ∈ files.below place

end FileTree

namespace Site

/-- The path is one of the candidate files. -/
def IsCandidate (site : Site) (files : FileTree) (path : Path) : Prop :=
  ∃ paths, site.candidatesOf files = .ok paths ∧ path ∈ paths

/-- The trees agree on what an audit of the site looks at. -/
structure Agree (site : Site) (files files' : FileTree) : Prop where
  candidates : ∀ path, site.IsCandidate files path ↔ site.IsCandidate files' path
  contents : ∀ path, site.IsCandidate files path → files.content? path = files'.content? path
  config : files.content? (site.root.joinText site.settings.configFile) =
    files'.content? (site.root.joinText site.settings.configFile)
  includes : ∀ file ∈ Legacy.includes,
    files.content? (site.root.joinText file) = files'.content? (site.root.joinText file)
  runtime : files.content? (site.root.joinText RemoteLoader.runtimeFile) =
    files'.content? (site.root.joinText RemoteLoader.runtimeFile)
  shadows : ∀ file ∈ Overrides.themeFiles,
    files.isFile (site.root.joinText file) = files'.isFile (site.root.joinText file)
  manifests : ∀ name, files.HasFileIn (site.root.joinText Manifests.directory).names name ↔
    files'.HasFileIn (site.root.joinText Manifests.directory).names name

/-- What an audit looks at is the same below the roots of the sites, where the candidate files are
those at the given names. -/
structure Alike (site site' : Site) (files files' : FileTree) (taken : List (List Text)) :
    Prop where
  configFile : site'.settings.configFile = site.settings.configFile
  contents : ∀ names ∈ taken, files.content? (site.root.join ⟨[], names⟩) =
    files'.content? (site'.root.join ⟨[], names⟩)
  config : files.content? (site.root.joinText site.settings.configFile) =
    files'.content? (site'.root.joinText site.settings.configFile)
  includes : ∀ file ∈ Legacy.includes,
    files.content? (site.root.joinText file) = files'.content? (site'.root.joinText file)
  runtime : files.content? (site.root.joinText RemoteLoader.runtimeFile) =
    files'.content? (site'.root.joinText RemoteLoader.runtimeFile)
  shadows : ∀ file ∈ Overrides.themeFiles,
    files.isFile (site.root.joinText file) = files'.isFile (site'.root.joinText file)
  manifests : ∀ name, files.HasFileIn (site.root.joinText Manifests.directory).names name ↔
    files'.HasFileIn (site'.root.joinText Manifests.directory).names name

/-- The site looks for neither a catalog nor packages. -/
structure Bare (site : Site) : Prop where
  catalog : site.catalog = .absent
  locator : site.locator = .listed []

/-- All failures of the checks of such a site are held back. -/
lemma Bare.contained (h : site.Bare) :
    ∀ check ∈ Check.all, Contained (check.run site files paths) := by
  refine contained_of_check ?_
  rw [h.catalog]
  exact Catalog.not_raises_absent .exit

end Site

/-! ### Checks -/

/-- The lines of files with the same content are the same. -/
lemma Lines.ofPath_of_content {path path' : Path}
    (h : files.content? path = files'.content? path') :
    ofPath files path = ofPath files' path' := by
  have htold : ∀ (files : FileTree) (path : Path),
      ofPath files path = ((files.content? path).map ofBytes).getD [] := by
    intro files path
    unfold ofPath FileTree.content?
    cases files.read path with
    | error fault => rfl
    | ok content => rfl
  rw [htold, htold, h]

/-- There is a manifest if a file directly in the directory has the name of one. -/
lemma Manifests.inDirectory_eq_nil {root : Path} :
    inDirectory files root = [] ↔
      ∀ name, files.HasFileIn (root.joinText directory).names name → isName name = false := by
  have hsort : ∀ names : List Text, sortBy Text.before names = [] ↔ names = [] := by
    intro names
    simp only [List.eq_nil_iff_forall_not_mem, mem_sortBy]
  unfold inDirectory
  dsimp only
  rw [List.map_eq_nil_iff, hsort, List.filterMap_eq_nil_iff]
  constructor
  · rintro h name ⟨content, hmem⟩
    have hname := h _ hmem
    unfold manifestName? at hname
    dsimp only at hname
    by_cases hn : isName name = true
    · rw [if_pos hn] at hname
      cases hname
    · exact Bool.not_eq_true _ ▸ hn
  · rintro h ⟨names, e⟩ hmem
    unfold manifestName?
    split
    · rename_i name content heq
      cases heq
      rw [h name ⟨content, hmem⟩]
      rfl
    · rfl

namespace Site

/-- The candidate files are what is taken, below the root. -/
lemma isCandidate_join {taken : List (List Text)} (h : site.candidatesOf files =
    .ok (taken.map fun names => site.root.join ⟨[], names⟩)) (names : List Text) :
    site.IsCandidate files (site.root.join ⟨[], names⟩) ↔ names ∈ taken := by
  constructor
  · rintro ⟨paths, hpaths, hpath⟩
    cases h.symm.trans hpaths
    obtain ⟨names', hn, heq⟩ := List.mem_map.1 hpath
    exact Codemod.join_inj.1 heq ▸ hn
  · exact fun hn => ⟨_, h, List.mem_map_of_mem hn⟩

/-- In trees that agree the same candidate files are found in the same order. -/
lemma Agree.candidatesOf (h : site.Agree files files') (hdefault : site.settings = .default)
    (hf : files.WellFormed) : site.candidatesOf files = site.candidatesOf files' := by
  obtain ⟨taken, htaken, hmem, hnodup, hordered⟩ := candidatesOf_ordered hdefault files
  obtain ⟨taken', htaken', -, hnodup', hordered'⟩ := candidatesOf_ordered hdefault files'
  have hnames : ∀ names ∈ taken, ∀ name ∈ names, Path.IsName name := by
    intro names hn
    obtain ⟨content, hcandidate⟩ := ((hmem names).1 hn).file
    exact Discovery.isName_of_mem_candidates hf hcandidate
  have hsame : taken = taken' := by
    refine Discovery.eq_of_ordered hnames hnodup hnodup' hordered hordered' fun names => ?_
    rw [← isCandidate_join htaken, ← isCandidate_join htaken', h.candidates]
  rw [htaken, htaken', hsame]

/-- A check gives the same at sites that are alike. -/
lemma Alike.check (h : Alike site site' files files' taken) (hbare : site.Bare)
    (hbare' : site'.Bare) : ∀ check ∈ Check.all, ∀ notices notices',
      (runFrom (check.run site files (taken.map fun names => site.root.join ⟨[], names⟩))
          notices).1 =
        (runFrom (check.run site' files' (taken.map fun names => site'.root.join ⟨[], names⟩))
          notices').1 := by
  have hbelow : ∀ site : Site, ∀ path ∈ taken.map fun names => site.root.join ⟨[], names⟩,
      (path.relativeTo? site.root).isSome := by
    intro site path hpath
    obtain ⟨names, -, rfl⟩ := List.mem_map.1 hpath
    rw [Codemod.relativeTo?_join]
    rfl
  simp only [Check.all, List.forall_mem_cons]
  refine ⟨?_, ?_, ?_, ?_, ?_, ?_, fun _ hmem => absurd hmem List.not_mem_nil⟩
  · intro notices notices'
    have hnone : Manifests.inDirectory files site.root = [] ↔
        Manifests.inDirectory files' site'.root = [] := by
      rw [Manifests.inDirectory_eq_nil, Manifests.inDirectory_eq_nil]
      exact forall_congr' fun name => imp_congr (h.manifests name) Iff.rfl
    rw [Manifests.runFrom_check_absent hbare.catalog, Manifests.runFrom_check_absent hbare'.catalog]
    unfold Manifests.foundIn
    simp only [List.isEmpty_iff, hnone]
  · intro notices notices'
    rw [Contract.runFrom_check_content, Contract.runFrom_check_content, h.configFile, h.config]
  · intro notices notices'
    rw [Legacy.runFrom_assetCheck, Legacy.runFrom_assetCheck]
    refine congrArg Except.ok (List.flatMap_congr fun file hfile => ?_)
    rw [Lines.ofPath_of_content (h.includes file hfile)]
  · intro notices notices'
    rw [Legacy.runFrom_patternCheck (hbelow site), Legacy.runFrom_patternCheck (hbelow site')]
    unfold Legacy.inlineIn
    rw [List.flatMap_map, List.flatMap_map]
    refine congrArg Except.ok (List.flatMap_congr fun names hnames => ?_)
    rw [Codemod.nameUnder_join, Codemod.nameUnder_join,
      Lines.ofPath_of_content (h.contents names hnames)]
  · intro notices notices'
    rw [RemoteLoader.runFrom_check_content hbare.locator,
      RemoteLoader.runFrom_check_content hbare'.locator, h.configFile, h.config]
    unfold RemoteLoader.templatesIn
    rw [Lines.ofPath_of_content h.runtime]
  · intro notices notices'
    have hshadows :
        Overrides.themeFiles.filter (fun file => files.isFile (site.root.joinText file)) =
        Overrides.themeFiles.filter fun file => files'.isFile (site'.root.joinText file) :=
      List.filter_congr h.shadows
    rw [Overrides.runFrom_check_content, Overrides.runFrom_check_content, h.configFile, h.config]
    unfold Overrides.foundIn
    rw [hshadows]

/-- What checks give is the same where each of them gives the same. -/
lemma eq_of_gives {checks : List Check} {found found' : List (List Finding)}
    (hsame : ∀ check ∈ checks, ∀ notices notices',
      (runFrom (check.run site files paths) notices).1 =
        (runFrom (check.run site' files' paths') notices').1)
    (hgives : List.Forall₂ (site.Gives files paths) checks found)
    (hgives' : List.Forall₂ (site'.Gives files' paths') checks found') : found = found' := by
  induction hgives generalizing found' with
  | nil =>
    cases hgives'
    rfl
  | cons hgive _ ih =>
    cases hgives' with
    | cons hgive' hrest' =>
      obtain ⟨hone, hsame⟩ := List.forall_mem_cons.1 hsame
      obtain ⟨notices, rfl⟩ := hgive
      obtain ⟨notices', rfl⟩ := hgive'
      rw [hone notices notices', ih hsame hrest']

/-- An audit has the same findings at sites that are alike. -/
lemma audit_of_alike (hbare : site.Bare) (hbare' : site'.Bare)
    (hc : site.candidatesOf files = .ok (taken.map fun names => site.root.join ⟨[], names⟩))
    (hc' : site'.candidatesOf files' = .ok (taken.map fun names => site'.root.join ⟨[], names⟩))
    (h : Alike site site' files files' taken) (notices notices' : List Notice) :
    ∃ findings, (runFrom (site.audit Check.all files) notices).1 = .ok findings ∧
      (runFrom (site'.audit Check.all files') notices').1 = .ok findings := by
  obtain ⟨found, haudit, hgives⟩ := runFrom_audit hbare.contained
    ((runFrom_candidates site files notices).trans hc)
  obtain ⟨found', haudit', hgives'⟩ := runFrom_audit hbare'.contained
    ((runFrom_candidates site' files' notices').trans hc')
  obtain rfl := eq_of_gives (h.check hbare hbare') hgives hgives'
  exact ⟨_, haudit, haudit'⟩

/-- A site is like itself in trees that agree. -/
lemma Agree.alike (h : site.Agree files files')
    (hc : site.candidatesOf files = .ok (taken.map fun names => site.root.join ⟨[], names⟩)) :
    Alike site site files files' taken where
  configFile := rfl
  contents names hnames := h.contents _ ((isCandidate_join hc names).2 hnames)
  config := h.config
  includes := h.includes
  runtime := h.runtime
  shadows := h.shadows
  manifests := h.manifests

/-- An audit has the same findings in trees that agree on what it looks at. -/
lemma audit_of_agree (hdefault : site.settings = .default) (hcatalog : site.catalog = .absent)
    (hlocator : site.locator = .listed []) (hf : files.WellFormed) (h : site.Agree files files')
    (notices notices' : List Notice) :
    ∃ findings, (runFrom (site.audit Check.all files) notices).1 = .ok findings ∧
      (runFrom (site.audit Check.all files') notices').1 = .ok findings := by
  obtain ⟨taken, hc, -⟩ := candidatesOf_ordered hdefault files
  have hc' := (h.candidatesOf hdefault hf).symm.trans hc
  have hbare : site.Bare := ⟨hcatalog, hlocator⟩
  exact audit_of_alike hbare hbare hc hc' (h.alike hc) notices notices'

end Site

end SiteAudit
