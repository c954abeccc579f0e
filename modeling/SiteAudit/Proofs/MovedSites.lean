import SiteAudit.Proofs.Relocation
import SiteAudit.Proofs.Repetition

/-!
# Sites that are moved

A site with the same files below another root is the same site (`Site.relocated`): outside of
directories of the distribution the same files are candidates, an audit has the same findings, and
an upgrade makes the same changes, after which there is the same below both roots again.
-/

namespace SiteAudit

variable {files files' : FileTree} {root root' : Path} {names : List Text}

/-! ### Files below roots -/

namespace Path

/-- The text is a path below a root: it is relative and without double dots. -/
def IsBelow (t : Text) : Prop := (ofText t).isAbsolute = false ∧ up ∉ (ofText t).names

instance (t : Text) : Decidable (IsBelow t) := inferInstanceAs (Decidable (_ ∧ _))

/-- The path is rooted, has no double dots, and leads through no directory of the distribution. -/
structure Settled (p : Path) : Prop extends IsRooted p where
  no_up : up ∉ p.names
  outside : "distillpub".toList ∉ p.names

/-- A relative path is known by its names. -/
lemma joinText_of_not_isAbsolute {t : Text} (h : (ofText t).isAbsolute = false) (root : Path) :
    root.joinText t = root.join ⟨[], (ofText t).names⟩ := by
  have hroot : (ofText t).root = [] := by
    unfold isAbsolute at h
    simpa using h
  unfold joinText
  rw [← hroot]

end Path

namespace FileTree

variable {t : Text} {name : Text}

/-- The contents of files are the same below both roots. -/
lemma SameBelow.content? (h : SameBelow root root' files files') (hup : Path.up ∉ names) :
    files.content? (root.join ⟨[], names⟩) = files'.content? (root'.join ⟨[], names⟩) := by
  refine Option.ext fun content => ?_
  rw [content?_eq_some, content?_eq_some, h.wellFormed.find_join hup, h.wellFormed'.find_join hup,
    h.same]

/-- The same contents are below both roots. -/
lemma SameBelow.content?_joinText (h : SameBelow root root' files files') (ht : Path.IsBelow t) :
    files.content? (root.joinText t) = files'.content? (root'.joinText t) := by
  rw [Path.joinText_of_not_isAbsolute ht.1, Path.joinText_of_not_isAbsolute ht.1]
  exact h.content? ht.2

/-- So are the same files. -/
lemma SameBelow.isFile_joinText (h : SameBelow root root' files files') (ht : Path.IsBelow t) :
    files.isFile (root.joinText t) = files'.isFile (root'.joinText t) := by
  rw [isFile_eq_isSome, isFile_eq_isSome, h.content?_joinText ht]

/-- A file directly in a directory below a root is what is at two names. -/
lemma WellFormed.hasFileIn_iff (hf : files.WellFormed) (hup : Path.up ∉ root.names) :
    files.HasFileIn (root.join ⟨[], names⟩).names name ↔
      ∃ content, files.entryBelow? root (names ++ [name]) = some (.file content) := by
  refine exists_congr fun content => ?_
  rw [hf.mem_below, hf.entryBelow?_eq hup, ← List.append_assoc]
  exact and_iff_right (List.cons_ne_nil _ _)

/-- And the same files are in the directories. -/
lemma SameBelow.hasFileIn (h : SameBelow root root' files files') (hup : Path.up ∉ root.names)
    (hup' : Path.up ∉ root'.names) (ht : (Path.ofText t).isAbsolute = false) :
    files.HasFileIn (root.joinText t).names name ↔
      files'.HasFileIn (root'.joinText t).names name := by
  rw [Path.joinText_of_not_isAbsolute ht, Path.joinText_of_not_isAbsolute ht,
    h.wellFormed.hasFileIn_iff hup, h.wellFormed'.hasFileIn_iff hup', h.same]

end FileTree

/-! ### Changes below roots -/

namespace Codemod

variable {m : Yaml.Memory} {configFile : Text}

/-- The text of a file is the same below both roots. -/
lemma textAt?_relocated (h : FileTree.SameBelow root root' files files') (hup : Path.up ∉ names) :
    textAt? files (root.join ⟨[], names⟩) = textAt? files' (root'.join ⟨[], names⟩) := by
  have htext : ∀ (files : FileTree) (path : Path), textAt? files path =
      (files.content? path).bind fun bytes => (Utf8.decode bytes).toOption := by
    intro files path
    unfold textAt? FileTree.content?
    cases files.read path with
    | error fault => rfl
    | ok bytes => rfl
  rw [htext, htext, h.content? hup]

/-- A change of a file comes to the same. -/
lemma outcomeOf_relocated (h : FileTree.SameBelow root root' files files') (hup : Path.up ∉ names) :
    outcomeOf m root configFile files (root.join ⟨[], names⟩) =
      outcomeOf m root' configFile files' (root'.join ⟨[], names⟩) := by
  unfold outcomeOf
  rw [relativeTo?_join, relativeTo?_join, nameUnder_join, nameUnder_join, textAt?_relocated h hup]
  rfl

/-- A file is rewritten alike below both roots. -/
lemma rewriteOf?_relocated (h : FileTree.SameBelow root root' files files')
    (hup : Path.up ∉ names) :
    rewriteOf? m root configFile files (root.join ⟨[], names⟩) =
      rewriteOf? m root' configFile files' (root'.join ⟨[], names⟩) := by
  unfold rewriteOf?
  rw [relativeTo?_join, relativeTo?_join, nameUnder_join, nameUnder_join, textAt?_relocated h hup]

/-- Rewriting leaves the tree well-formed. -/
lemma wellFormed_rewritten (hf : files.WellFormed) (m : Yaml.Memory) (root : Path)
    (configFile : Text) (path : Path) : (rewritten m root configFile files path).WellFormed :=
  hf.of_sameShape sameShape_rewritten keys_rewritten

/-- What is below a root after a file there is rewritten. -/
lemma entryBelow?_rewritten (hup : Path.up ∉ names) (q : List Text) :
    (rewritten m root configFile files (root.join ⟨[], names⟩)).entryBelow? root q =
      match rewriteOf? m root configFile files (root.join ⟨[], names⟩) with
      | none => files.entryBelow? root q
      | some o =>
        if q = names then some (.file (Utf8.encode o.content)) else files.entryBelow? root q := by
  rcases rewritten_cases m root configFile files (root.join ⟨[], names⟩) with
    ⟨hnone, h⟩ | ⟨o, there, bytes, hsome, hthere, he, h⟩
  · rw [hnone, h]
  · rw [hsome]
    dsimp only
    have hroot : (rewritten m root configFile files (root.join ⟨[], names⟩)).place root =
        files.place root := sameShape_rewritten.place root
    -- the file is at its names below the place of the root
    obtain ⟨place, hplace, hwalk⟩ : ∃ place, files.place root = .ok place ∧
        files.walk place names = .ok there :=
      bind_eq_ok.1 ((files.walk_append [] root.names names).symm.trans hthere)
    obtain rfl := FileTree.walk_eq_ok hup hwalk
    rw [FileTree.entryBelow?_of_place (hroot.trans hplace), FileTree.entryBelow?_of_place hplace, h,
      FileTree.entry_put (FileTree.ne_nil_of_file he)]
    simp only [List.append_cancel_left_eq]

/-- After the same change there is the same below both roots. -/
lemma sameBelow_rewritten (h : FileTree.SameBelow root root' files files')
    (hup : Path.up ∉ names) :
    FileTree.SameBelow root root' (rewritten m root configFile files (root.join ⟨[], names⟩))
      (rewritten m root' configFile files' (root'.join ⟨[], names⟩)) where
  wellFormed := wellFormed_rewritten h.wellFormed m root configFile _
  wellFormed' := wellFormed_rewritten h.wellFormed' m root' configFile _
  same q := by
    rw [entryBelow?_rewritten hup, entryBelow?_rewritten hup, rewriteOf?_relocated h hup, h.same]

/-- A change of one file tells the same below both roots, and leaves the same there. -/
lemma runFrom_applyTo_relocated (m : Yaml.Memory) (configFile : Text) (dryRun : Bool)
    {p p' : Progress} (h : FileTree.SameBelow root root' p.files p'.files)
    (hup : Path.up ∉ names) :
    ∃ outcome after after',
      runFrom (applyTo m root configFile dryRun (root.join ⟨[], names⟩)) p = (outcome, after) ∧
      runFrom (applyTo m root' configFile dryRun (root'.join ⟨[], names⟩)) p' = (outcome, after') ∧
      FileTree.SameBelow root root' after.files after'.files := by
  obtain ⟨notices, hrun⟩ := runFrom_applyTo m root configFile dryRun (root.join ⟨[], names⟩) p
  obtain ⟨notices', hrun'⟩ := runFrom_applyTo m root' configFile dryRun (root'.join ⟨[], names⟩) p'
  rw [← outcomeOf_relocated h hup] at hrun'
  refine ⟨_, _, _, hrun, hrun', ?_⟩
  cases dryRun with
  | true => exact h
  | false => exact sameBelow_rewritten h hup

/-- So do changes of several files one after the other, up to the first one that fails. -/
lemma runFrom_mapM_relocated (m : Yaml.Memory) (configFile : Text) (dryRun : Bool)
    {taken : List (List Text)} (hup : ∀ names ∈ taken, Path.up ∉ names) (p p' : Progress)
    (h : FileTree.SameBelow root root' p.files p'.files) :
    ∃ outcomes after after',
      runFrom ((taken.map fun names => root.join ⟨[], names⟩).mapM
        (applyTo m root configFile dryRun)) p = (outcomes, after) ∧
      runFrom ((taken.map fun names => root'.join ⟨[], names⟩).mapM
        (applyTo m root' configFile dryRun)) p' = (outcomes, after') ∧
      FileTree.SameBelow root root' after.files after'.files := by
  induction taken generalizing p p' with
  | nil => exact ⟨_, p, p', rfl, rfl, h⟩
  | cons names taken ih =>
    obtain ⟨hnames, htaken⟩ := List.forall_mem_cons.1 hup
    obtain ⟨outcome, after, after', hone, hone', hsame⟩ :=
      runFrom_applyTo_relocated m configFile dryRun h hnames
    rw [List.map_cons, List.map_cons, runFrom_mapM_cons, runFrom_mapM_cons, hone, hone']
    cases outcome with
    | error e => exact ⟨_, _, _, rfl, rfl, hsame⟩
    | ok outcome =>
      obtain ⟨outcomes, last, last', hrest, hrest', hsame⟩ := ih htaken after after' hsame
      dsimp only
      rw [hrest, hrest']
      cases outcomes with
      | error e => exact ⟨_, _, _, rfl, rfl, hsame⟩
      | ok outcomes => exact ⟨_, _, _, rfl, rfl, hsame⟩

end Codemod

/-! ### Sites below roots -/

namespace Site
open Codemod FileTree

variable {site site' : Site} {p p' : Progress}

/-- The sites have the same settings and memory, the usual expressions for what is ruled out, and a
configuration below their roots. Nothing is looked for elsewhere, and the roots are resolved and lie
outside of directories of the distribution. -/
structure Moved (site site' : Site) : Prop where
  bare : site.Bare
  bare' : site'.Bare
  settings : site'.settings = site.settings
  memory : site'.memory = site.memory
  ignored : site.settings.ignored = Settings.defaultIgnored
  configFile : Path.IsBelow site.settings.configFile
  root : site.root.Settled
  root' : site'.root.Settled

/-- The same files are candidates. -/
lemma Moved.candidatesOf (h : site.Moved site') (hs : SameBelow site.root site'.root files files') :
    ∃ taken : Except Failure (List (List Text)),
      site.candidatesOf files = taken.map (·.map fun names => site.root.join ⟨[], names⟩) ∧
      site'.candidatesOf files' = taken.map (·.map fun names => site'.root.join ⟨[], names⟩) := by
  have hignored : ∀ names, names ≠ [] → (∀ name ∈ names, '/' ∉ name) →
      Discovery.isIgnored site.settings.ignored (site.root.join ⟨[], names⟩) =
        Discovery.isIgnored site.settings.ignored (site'.root.join ⟨[], names⟩) := by
    intro names hne hnames
    rw [h.ignored]
    exact Discovery.isIgnored_relocated h.root.toIsRooted h.root'.toIsRooted h.root.outside
      h.root'.outside hne hnames
  obtain ⟨taken, hlocate⟩ := Discovery.locate_relocated hs hignored site.settings.patterns
  obtain ⟨hhere, hthere⟩ := hlocate []
  refine ⟨taken, hhere, ?_⟩
  unfold Site.candidatesOf candidates
  rw [h.settings]
  exact hthere

/-- Double dots are in none of them. -/
lemma not_up_of_candidatesOf {taken : List (List Text)}
    (hc : site.candidatesOf files = .ok (taken.map fun names => site.root.join ⟨[], names⟩)) :
    ∀ names ∈ taken, Path.up ∉ names := by
  obtain ⟨taken', -, hshown, heq⟩ := Discovery.locate_eq_ok (runFrom_of_fst hc)
  have hinj : Function.Injective fun names => site.root.join ⟨[], names⟩ := fun _ _ => join_inj.1
  rw [List.map_injective_iff.2 hinj heq]
  exact fun names hnames => Discovery.not_dots_of_isHidden (hshown names hnames)

/-- Sites of which one is the other one moved are alike. -/
lemma Moved.alike (h : site.Moved site') (hs : SameBelow site.root site'.root files files')
    {taken : List (List Text)} (hup : ∀ names ∈ taken, Path.up ∉ names) :
    Alike site site' files files' taken where
  configFile := by rw [h.settings]
  contents names hnames := hs.content? (hup names hnames)
  config := hs.content?_joinText h.configFile
  includes := by
    have hbelow : ∀ file ∈ Legacy.includes, Path.IsBelow file := by decide
    exact fun file hfile => hs.content?_joinText (hbelow file hfile)
  runtime := hs.content?_joinText (by decide)
  shadows := by
    have hbelow : ∀ file ∈ Overrides.themeFiles, Path.IsBelow file := by decide
    exact fun file hfile => hs.isFile_joinText (hbelow file hfile)
  manifests _ := hs.hasFileIn h.root.no_up h.root'.no_up (by decide)

/-- Without candidates an audit fails. -/
lemma runFrom_audit_error {e : Failure} {checks : List Check} {notices : List Notice}
    (hc : site.candidatesOf files = .error e) :
    (runFrom (site.audit checks files) notices).1 = .error e := by
  unfold Site.audit
  rw [runFrom_bind, runFrom_of_fst ((runFrom_candidates site files notices).trans hc)]

/-- An audit has the same findings. -/
lemma Moved.audit (h : site.Moved site') (hs : SameBelow site.root site'.root files files')
    (notices notices' : List Notice) :
    (runFrom (site.audit Check.all files) notices).1 =
      (runFrom (site'.audit Check.all files') notices').1 := by
  obtain ⟨taken, hc, hc'⟩ := h.candidatesOf hs
  cases taken with
  | error e => rw [runFrom_audit_error hc, runFrom_audit_error hc']
  | ok taken =>
    obtain ⟨findings, haudit, haudit'⟩ := audit_of_alike h.bare h.bare' hc hc'
      (h.alike hs (not_up_of_candidatesOf hc)) notices notices'
    rw [haudit, haudit']

/-- What another memory leaves in the same order for the one site it does for the other one. -/
lemma Moved.sameOrder (h : site.Moved site') (hs : SameBelow site.root site'.root files files')
    {m : Yaml.Memory} (hsame : site.SameOrder m files) : site'.SameOrder m files' := by
  intro paths' hpaths' path hpath content htext
  obtain ⟨taken, hc, hc'⟩ := h.candidatesOf hs
  cases taken with
  | error e => cases hc'.symm.trans hpaths'
  | ok taken =>
    cases hc'.symm.trans hpaths'
    obtain ⟨names, hnames, rfl⟩ := List.mem_map.1 hpath
    rw [← textAt?_relocated hs (not_up_of_candidatesOf hc names hnames)] at htext
    have hone := hsame _ hc _ (List.mem_map_of_mem hnames) content htext
    rw [nameUnder_join] at hone ⊢
    rw [h.settings, h.memory]
    exact hone

/-- An upgrade makes the same changes, and leaves the same. -/
lemma Moved.applyCodemods (h : site.Moved site')
    (hs : SameBelow site.root site'.root p.files p'.files) (safe dryRun : Bool) :
    ∃ applied after after', runFrom (site.applyCodemods safe dryRun) p = (applied, after) ∧
      runFrom (site'.applyCodemods safe dryRun) p' = (applied, after') ∧
      SameBelow site.root site'.root after.files after'.files := by
  cases safe with
  | false => exact ⟨_, _, _, rfl, rfl, hs⟩
  | true =>
    obtain ⟨taken, hc, hc'⟩ := h.candidatesOf hs
    rw [runFrom_applyCodemods, runFrom_applyCodemods, hc, hc', h.settings, h.memory]
    cases taken with
    | error e => exact ⟨_, _, _, rfl, rfl, hs⟩
    | ok taken =>
      dsimp only [Except.map]
      obtain ⟨outcomes, after, after', hrun, hrun', hsame⟩ := runFrom_mapM_relocated
        site.memory site.settings.configFile dryRun (not_up_of_candidatesOf hc)
        ⟨p.files, (runFrom (site.candidates p.files) p.notices).2⟩
        ⟨p'.files, (runFrom (site'.candidates p'.files) p'.notices).2⟩ hs
      rw [hrun, hrun']
      cases outcomes with
      | error e => exact ⟨_, _, _, rfl, rfl, hsame⟩
      | ok outcomes => exact ⟨_, _, _, rfl, rfl, hsame⟩

/-! ### Roots -/

/-- The site at a root with the given settings and memory, without a catalog and packages. -/
def bareAt (root workingDirectory : Path) (settings : Settings) (m : Yaml.Memory) : Site :=
  ⟨root.resolve workingDirectory, workingDirectory, settings, .absent, .listed [], m⟩

/-- Without packages a program audits and upgrades this site, with the usual settings. -/
example (s : Surroundings) (root : Path) :
    s.site root false = bareAt root s.workingDirectory .default s.memory := rfl

end Site

namespace Path

/-- The text is an absolute path that does not lead through a directory of the distribution. -/
structure IsOutside (t : Text) : Prop where
  absolute : (ofText t).isAbsolute = true
  outside : "distillpub".toList ∉ (ofText t).names

/-- Names without double dots are left when names are taken together. -/
lemma mem_collapse {names : List Text} {name : Text} (h : name ∈ collapse names) :
    name ∈ names ∧ name ≠ up := by
  have hfold : ∀ done : List Text, name ∈ names.foldl
      (fun done name => if name = ['.', '.'] then done.dropLast else done ++ [name]) done →
      name ∈ done ∨ name ∈ names ∧ name ≠ up := by
    clear h
    induction names with
    | nil => exact fun done h => .inl h
    | cons first names ih =>
      intro done h
      rw [List.foldl_cons] at h
      rcases ih _ h with h | ⟨hmem, hup⟩
      · split at h
        · exact .inl (List.dropLast_subset _ h)
        · rename_i hfirst
          rcases List.mem_append.1 h with h | h
          · exact .inl h
          · cases List.mem_singleton.1 h
            exact .inr ⟨List.mem_cons_self .., hfirst⟩
      · exact .inr ⟨List.mem_cons_of_mem first hmem, hup⟩
  exact (hfold [] h).resolve_left List.not_mem_nil

/-- It does not either once it is resolved. -/
lemma IsOutside.settled {t : Text} (h : IsOutside t) (cwd : Path) :
    ((ofText t).resolve cwd).Settled := by
  have hjoin : cwd.join (ofText t) = ofText t := by
    unfold join
    rw [if_pos h.absolute]
  unfold Path.resolve
  rw [hjoin]
  exact {
    root := .inl rfl
    no_slash := fun name hmem => no_slash_of_mem_namesOf (mem_collapse hmem).1
    no_up := fun hmem => (mem_collapse hmem).2 rfl
    outside := fun hmem => h.outside (mem_collapse hmem).1 }

end Path

namespace Site
open FileTree

/-- Sites at different roots are moved ones. -/
lemma moved_bareAt {root root' : Text} (hroot : Path.IsOutside root) (hroot' : Path.IsOutside root')
    (cwd cwd' : Path) {settings : Settings} (hignored : settings.ignored = Settings.defaultIgnored)
    (hconfig : Path.IsBelow settings.configFile) (m : Yaml.Memory) :
    (bareAt (.ofText root) cwd settings m).Moved (bareAt (.ofText root') cwd' settings m) where
  bare := ⟨rfl, rfl⟩
  bare' := ⟨rfl, rfl⟩
  settings := rfl
  memory := rfl
  ignored := hignored
  configFile := hconfig
  root := hroot.settled cwd
  root' := hroot'.settled cwd'

/-- **A site that is moved is the same site.** Between two roots outside of directories of the
distribution it makes no difference for any path below them whether it is ruled out by default. With
the same files below both roots, whatever the patterns, the same files are located in the same
order; and at both roots an audit has the same findings, and an upgrade tells the same changes or
fails for the same reason, and leaves the same files below them. It does so in one memory, and in
two that leave what is read in the same order. -/
theorem relocated {root root' : Text} (hroot : Path.IsOutside root)
    (hroot' : Path.IsOutside root') :
    (∀ t : Text, (Path.ofText t).isAbsolute = false → (Path.ofText t).names ≠ [] →
      Discovery.isIgnored Settings.defaultIgnored ((Path.ofText root).joinText t) =
        Discovery.isIgnored Settings.defaultIgnored ((Path.ofText root').joinText t)) ∧
    (∀ files files', SameBelow (.ofText root) (.ofText root') files files' → ∀ patterns,
      ∃ taken : Except Failure (List (List Text)), ∀ notices,
        (runFrom (Discovery.locate files (.ofText root) patterns Settings.defaultIgnored)
            notices).1 =
          taken.map (·.map fun names => (Path.ofText root).join ⟨[], names⟩) ∧
        (runFrom (Discovery.locate files' (.ofText root') patterns Settings.defaultIgnored)
            notices).1 =
          taken.map (·.map fun names => (Path.ofText root').join ⟨[], names⟩)) ∧
    ∀ (cwd cwd' : Path) (settings : Settings) (m m' : Yaml.Memory),
      settings.ignored = Settings.defaultIgnored → Path.IsBelow settings.configFile →
      let site := bareAt (.ofText root) cwd settings m
      let site' := bareAt (.ofText root') cwd' settings m'
      ∀ p p' : Progress, SameBelow site.root site'.root p.files p'.files →
        (runFrom (site.audit Check.all p.files) p.notices).1 =
          (runFrom (site'.audit Check.all p'.files) p'.notices).1 ∧
        (m' = m ∨ site.SameOrder m' p.files → ∀ safe dryRun, ∃ applied after after',
          runFrom (site.applyCodemods safe dryRun) p = (applied, after) ∧
          runFrom (site'.applyCodemods safe dryRun) p' = (applied, after') ∧
          SameBelow site.root site'.root after.files after'.files) := by
  have hignored : ∀ names, names ≠ [] → (∀ name ∈ names, '/' ∉ name) →
      Discovery.isIgnored Settings.defaultIgnored ((Path.ofText root).join ⟨[], names⟩) =
        Discovery.isIgnored Settings.defaultIgnored ((Path.ofText root').join ⟨[], names⟩) :=
    fun names => Discovery.isIgnored_relocated (Path.isRooted_ofText hroot.absolute)
      (Path.isRooted_ofText hroot'.absolute) hroot.outside hroot'.outside
  refine ⟨fun t ht hne => ?_, fun files files' h patterns => ?_, ?_⟩
  · rw [Path.joinText_of_not_isAbsolute ht, Path.joinText_of_not_isAbsolute ht]
    exact hignored _ hne fun _ => Path.no_slash_of_mem_namesOf
  · exact Discovery.locate_relocated h hignored patterns
  · intro cwd cwd' settings m m' hdefault hconfig site site' p p' hs
    -- first the one memory, then the other one at the second root
    have hmoved := moved_bareAt hroot hroot' cwd cwd' hdefault hconfig m
    refine ⟨hmoved.audit hs p.notices p'.notices, fun hsame safe dryRun => ?_⟩
    have horder : site.SameOrder m' p.files := by
      rcases hsame with rfl | hsame
      · exact .refl _ _
      · exact hsame
    have hcongr := runFrom_applyCodemods_congr (hmoved.sameOrder hs horder) safe dryRun
    obtain ⟨applied, after, after', hrun, hrun', hbelow⟩ := hmoved.applyCodemods hs safe dryRun
    exact ⟨applied, after, after', hrun, hcongr.trans hrun', hbelow⟩

/-- The files of a site with an old class name and bytes that are no text, at another root. -/
def movedFiles : FileTree :=
  .ofFiles [(.ofText "/srv/www/_includes/a.html", Utf8.encode "font-weight-bold"),
    (.ofText "/srv/www/_includes/b.html", [0xff])]

/-- What is below the roots is the same if it is so one by one. -/
lemma sameBelow_of_below (hf : files.WellFormed) (hf' : files'.WellFormed)
    (hup : Path.up ∉ root.names) (hup' : Path.up ∉ root'.names)
    (hroot : files.entry? root.names = some .directory)
    (hroot' : files'.entry? root'.names = some .directory)
    (h : files.below root.names = files'.below root'.names) :
    SameBelow root root' files files' := by
  refine ⟨hf, hf', fun names => ?_⟩
  rw [hf.entryBelow?_eq hup, hf'.entryBelow?_eq hup']
  by_cases hne : names = []
  · rw [hne, List.append_nil, List.append_nil, hroot, hroot']
  · refine Option.ext fun e => ?_
    have hbelow : (names, e) ∈ files.below root.names ↔ (names, e) ∈ files'.below root'.names := by
      rw [h]
    rwa [hf.mem_below, hf'.mem_below, and_iff_right hne, and_iff_right hne] at hbelow

/-- An audit of the moved files has the findings of the files where they were, and an upgrade makes
the changes that it made there. -/
theorem relocated_mixed :
    Path.IsOutside "/site" ∧ Path.IsOutside "/srv/www" ∧
      SameBelow (.ofText "/site") (.ofText "/srv/www") mixedFiles movedFiles ∧
      Settings.default.ignored = Settings.defaultIgnored ∧
      Path.IsBelow Settings.default.configFile ∧
      Discovery.isIgnored Settings.defaultIgnored ((Path.ofText "/site").joinText "a.min.js") =
        Discovery.isIgnored Settings.defaultIgnored
          ((Path.ofText "/srv/www").joinText "a.min.js") ∧
      (runFrom ((usual (.ofText "/site")).audit Check.all mixedFiles) []).1 =
        (runFrom ((usual (.ofText "/srv/www")).audit Check.all movedFiles) []).1 ∧
      (runFrom ((usual (.ofText "/site")).applyCodemods true false) ⟨mixedFiles, []⟩).1 =
        (runFrom ((usual (.ofText "/srv/www")).applyCodemods true false) ⟨movedFiles, []⟩).1 := by
  have hroot : Path.IsOutside "/site" := ⟨by decide, by decide⟩
  have hroot' : Path.IsOutside "/srv/www" := ⟨by decide, by decide⟩
  have hf : mixedFiles.WellFormed := by
    refine FileTree.wellFormed_ofFiles ?_
    simp [FileTree.names_ofText]
  have hf' : movedFiles.WellFormed := by
    refine FileTree.wellFormed_ofFiles ?_
    simp [FileTree.names_ofText]
  have hsame : SameBelow (.ofText "/site") (.ofText "/srv/www") mixedFiles movedFiles :=
    sameBelow_of_below hf hf' (by decide) (by decide) (by decide) (by decide) (by decide)
  have hconfig : Path.IsBelow Settings.default.configFile := by
    decide
  obtain ⟨hignored, -, hsites⟩ := relocated hroot hroot'
  obtain ⟨haudit, hcodemods⟩ := hsites (.ofText "/") (.ofText "/") .default .inOrder .inOrder rfl
    hconfig ⟨mixedFiles, []⟩ ⟨movedFiles, []⟩ hsame
  obtain ⟨applied, after, after', hrun, hrun', -⟩ := hcodemods (.inl rfl) true false
  have hchanges := (congrArg Prod.fst hrun).trans (congrArg Prod.fst hrun').symm
  exact ⟨hroot, hroot', hsame, rfl, hconfig, hignored "a.min.js" (by decide) (by decide), haudit,
    hchanges⟩

end Site

end SiteAudit
