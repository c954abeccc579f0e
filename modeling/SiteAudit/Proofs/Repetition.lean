import SiteAudit.Proofs.Agreement
import SiteAudit.Proofs.FailedUpgrade
import SiteAudit.Proofs.Reports

/-!
# Repeated audits

A report changes no other file than its own (`FileTree.SameFilesBut`), and that one is none of the
files that an audit looks at. So the site that an audit leaves has the findings of the audit, and
another audit leaves the same report (`Site.audit_repeats`).
-/

namespace SiteAudit

namespace FileTree

variable {t t' t'' : FileTree} {p : Path} {place q : List Text} {content : Bytes}

/-! ### Files that stay -/

/-- Both trees have the same files with the same contents, the one at the place apart. -/
def SameFilesBut (place : List Text) (t t' : FileTree) : Prop :=
  ∀ q ≠ place, ∀ content, t.entry? q = some (.file content) ↔ t'.entry? q = some (.file content)

/-- A tree has the files that it has. -/
lemma SameFilesBut.refl (place : List Text) (t : FileTree) : SameFilesBut place t t :=
  fun _ _ _ => Iff.rfl

/-- The order of the two trees does not matter. -/
lemma SameFilesBut.symm (h : SameFilesBut place t t') : SameFilesBut place t' t :=
  fun q hq content => (h q hq content).symm

/-- Trees with the same files as another one have the same files. -/
lemma SameFilesBut.trans (h : SameFilesBut place t t') (h' : SameFilesBut place t' t'') :
    SameFilesBut place t t'' :=
  fun q hq content => (h q hq content).trans (h' q hq content)

/-- Making a directory adds no file and removes none. -/
lemma sameFilesBut_makeDirectory (place : List Text) (h : t.makeDirectory p = .ok t') :
    SameFilesBut place t t' := by
  unfold makeDirectory at h
  split at h
  · cases h
  · rename_i there _
    split at h
    · cases h
      exact .refl place t
    · cases h
    · rename_i hnone _
      cases h
      intro q _ content
      rw [entry_put (ne_nil_of_none hnone)]
      by_cases hq : q = there
      · rw [hq, if_pos rfl, hnone]
        exact iff_of_false (fun h => by cases h) fun h => by cases h
      · rw [if_neg hq]
    · cases h
    · cases h

/-- A write puts the content where the path leads to. -/
lemma write_eq_ok (h : t.write p content = .ok t') :
    ∃ place, t.place p = .ok place ∧ t' = t.put place (.file content) := by
  unfold write at h
  split at h
  · cases h
  · rename_i place hplace
    split at h
    · cases h
    · exact ⟨place, hplace, (Except.ok.inj h).symm⟩
    · exact ⟨place, hplace, (Except.ok.inj h).symm⟩
    · cases h
    · cases h

/-- What is there already may be put there again. -/
lemma IsMap.put_same (h : t.IsMap) (hplace : place ≠ []) {e : Entry}
    (he : t.entry? place = some e) : t.put place e = t := by
  rw [entry_of_ne hplace] at he
  unfold FileTree.put
  rw [if_pos (by rw [he]; rfl)]
  have hsame : (t.entries.map fun entry => if entry.1 = place then (place, e) else entry) =
      t.entries := by
    refine (List.map_congr_left fun entry hentry => ?_).trans (List.map_id _)
    split
    · rename_i heq
      have hlookup := h.lookup_of_mem hentry
      rw [heq, he] at hlookup
      rw [Option.some.inj hlookup, ← heq]
      rfl
    · rfl
  rw [hsame]

/-- A path without double dots leads to the content of the file at its names. -/
lemma WellFormed.content?_ofNames (h : t.WellFormed) (hup : Path.up ∉ q) :
    t.content? (.ofNames q) = some content ↔ t.entry? q = some (.file content) :=
  content?_eq_some.trans (h.find_ofNames hup)

/-- A file is what has a content. -/
lemma isFile_eq_isSome (t : FileTree) (p : Path) : t.isFile p = (t.content? p).isSome := by
  unfold isFile content? read
  rcases t.find p with fault | (_ | _)
  · rfl
  · rfl
  · rfl

end FileTree

/-! ### Reports -/

/-- If the directories are made they are those that are made of the files. -/
lemma runFrom_makeDirectories_eq_ok {path : Path} {p p' : Progress}
    (h : runFrom (Change.makeDirectories path) p = (.ok (), p')) :
    p'.files = (p.files.makeDirectories path).1 := by
  unfold Change.makeDirectories at h
  rw [runFrom_bind, runFrom_get] at h
  dsimp only at h
  split at h
  · cases h
    rfl
  · cases h

namespace Site
open FileTree

variable {site : Site} {files files' : FileTree} {base : List Text} {findings : List Finding}
  {p p' : Progress}

/-- The root has proper names only, as a root that has been resolved. -/
structure AtNames (site : Site) (base : List Text) : Prop where
  root : site.root = .ofNames base
  proper : ∀ name ∈ base, Path.IsName name

/-- Where the report is. -/
def reportPlace (site : Site) (base : List Text) : List Text := base ++ [site.settings.reportFile]

/-- The second tree is the first one with a report. -/
structure Reported (site : Site) (base : List Text) (findings : List Finding)
    (files files' : FileTree) : Prop where
  wellFormed : files'.WellFormed
  same : SameFilesBut (site.reportPlace base) files files'
  report : files'.entry? (site.reportPlace base) =
    some (.file (Utf8.encode (Report.markdown findings)))

/-- The report is not in the place of the root directory. -/
lemma reportPlace_ne_nil : site.reportPlace base ≠ [] :=
  List.append_ne_nil_of_right_ne_nil base (List.cons_ne_nil _ _)

/-- With the usual settings the names of its place are proper ones. -/
lemma proper_reportPlace (hdefault : site.settings = .default) (hroot : site.AtNames base) :
    ∀ name ∈ site.reportPlace base, Path.IsName name := by
  have hname : Path.IsName Settings.default.reportFile := by
    constructor <;> decide
  refine List.forall_mem_append.2 ⟨hroot.proper, List.forall_mem_singleton.2 ?_⟩
  rw [hdefault]
  exact hname

/-- There are no double dots among proper names. -/
lemma not_up_of_proper {names : List Text} (h : ∀ name ∈ names, Path.IsName name) :
    Path.up ∉ names :=
  fun hmem => (h _ hmem).ne_up rfl

/-- Where a report is written there is one. -/
lemma reported_of_writeReport (hdefault : site.settings = .default) (hroot : site.AtNames base)
    {path : Path} (h : runFrom (site.writeReport findings) p = (.ok path, p'))
    (hf : p.files.WellFormed) : site.Reported base findings p.files p'.files := by
  have hname : site.reportPath = .ofNames (site.reportPlace base) :=
    reportPath_eq hdefault hroot.root
  have hproper := proper_reportPlace hdefault hroot
  rw [writeReport_eq] at h
  obtain ⟨_, made, hmade, h⟩ := runFrom_bind_eq_ok.1 h
  obtain ⟨_, written, hwritten, h⟩ := runFrom_bind_eq_ok.1 h
  cases h
  -- directories are made first
  have hkeeps : made.files.WellFormed ∧
      SameFilesBut (site.reportPlace base) p.files made.files := by
    rw [runFrom_makeDirectories_eq_ok hmade]
    refine makeDirectoriesUp_keeps (P := fun t => t.WellFormed ∧ SameFilesBut _ p.files t) ?_
      ⟨hf, .refl _ _⟩ _
    rintro t t' size ⟨ht, hsame⟩ hone
    refine ⟨ht.makeDirectory ?_ hone, hsame.trans (sameFilesBut_makeDirectory _ hone)⟩
    intro name hmem _
    refine hproper name ?_
    have hmem := List.mem_of_mem_take hmem
    rw [hname] at hmem
    exact List.dropLast_subset _ hmem
  rw [runFrom_write] at hwritten
  split at hwritten
  · rename_i files hwrite
    cases hwritten
    have hwell := hkeeps.1.write (p := site.reportPath) (by
      rw [hname]
      exact fun name hmem _ => hproper name hmem) hwrite
    obtain ⟨place, hplace, rfl⟩ := write_eq_ok hwrite
    rw [hname] at hplace
    obtain rfl := place_ofNames (not_up_of_proper hproper) hplace
    refine ⟨hwell, hkeeps.2.trans fun q hq content => ?_, ?_⟩
    · show _ ↔ FileTree.entry? (made.files.put _ _) q = _
      rw [entry_put reportPlace_ne_nil, if_neg hq]
    · show FileTree.entry? (made.files.put _ _) _ = _
      rw [entry_put reportPlace_ne_nil, if_pos rfl]
  · cases hwritten

/-- Where there is the report already, it is written once more and nothing changes. -/
lemma Reported.again (hdefault : site.settings = .default) (hroot : site.AtNames base)
    (h : site.Reported base findings files files') (notices : List Notice) :
    ∃ notices', runFrom (site.writeReport findings) ⟨files', notices⟩ =
      (.ok site.reportPath, ⟨files', notices'⟩) := by
  have hname : site.reportPath = .ofNames (site.reportPlace base) :=
    reportPath_eq hdefault hroot.root
  have hproper := proper_reportPlace hdefault hroot
  have hparent : site.reportPath.parent = .ofNames base := by
    rw [hname]
    exact congrArg (Path.mk ['/']) List.dropLast_concat
  have hbase : files'.entry? base = some .directory :=
    h.wellFormed.entry_above (List.cons_ne_nil _ []) h.report
  have hplace : files'.place (.ofNames base) = .ok base :=
    h.wellFormed.walk (not_up_of_proper hroot.proper) hbase
  have hmade : runFrom (Change.makeDirectories site.reportPath.parent) ⟨files', notices⟩ =
      (.ok (), ⟨files', notices⟩) := by
    rw [hparent]
    exact runFrom_makeDirectories hplace hbase
  have hwrite : files'.write site.reportPath (Utf8.encode (Report.markdown findings)) =
      .ok files' := by
    have hthere : files'.place site.reportPath = .ok (site.reportPlace base) := by
      rw [hname]
      exact h.wellFormed.walk (not_up_of_proper hproper) h.report
    rw [write_over hthere h.report, h.wellFormed.isMap.put_same reportPlace_ne_nil h.report]
  rw [writeReport_eq, runFrom_bind, hmade]
  dsimp only
  rw [runFrom_bind, runFrom_write, hwrite]
  exact ⟨_, rfl⟩

/-! ### What an audit looks at -/

/-- The file has a place of its own below a root, apart from the report. -/
def IsInspected (site : Site) (file : Text) : Prop :=
  Path.ofText file = ⟨[], (Path.ofText file).names⟩ ∧ Path.up ∉ (Path.ofText file).names ∧
    (Path.ofText file).names ≠ [site.settings.reportFile]

/-- The same is read where the files are the same. -/
lemma content_of_same (hroot : site.AtNames base) (hf : files.WellFormed)
    (hf' : files'.WellFormed) (hsame : SameFilesBut (site.reportPlace base) files files')
    {names : List Text} (hup : Path.up ∉ names) (hne : names ≠ [site.settings.reportFile]) :
    files.content? (site.root.join ⟨[], names⟩) = files'.content? (site.root.join ⟨[], names⟩) := by
  have hpath : site.root.join ⟨[], names⟩ = .ofNames (base ++ names) := by
    rw [hroot.root]
    rfl
  have hups : Path.up ∉ base ++ names := by
    rw [List.mem_append, not_or]
    exact ⟨not_up_of_proper hroot.proper, hup⟩
  have hplace : base ++ names ≠ site.reportPlace base := mt List.append_cancel_left hne
  rw [hpath]
  refine Option.ext fun content => ?_
  rw [hf.content?_ofNames hups, hf'.content?_ofNames hups]
  exact hsame _ hplace content

/-- A report is not found. -/
lemma ne_report_of_found (hdefault : site.settings = .default) {names : List Text}
    (h : Discovery.Found files site.root Settings.defaultIgnored Discovery.defaultGlobs.flatten
      names) : names ≠ [site.settings.reportFile] := by
  rintro rfl
  have hconfig := Discovery.isSought_singleton.1 (Discovery.matched_default.1 h.matched)
  rw [hdefault] at hconfig
  cases hconfig

/-- What is found is found where the files are the same. -/
lemma found_of_same (hdefault : site.settings = .default) (hroot : site.AtNames base)
    (hf : files.WellFormed) (hf' : files'.WellFormed)
    (hsame : SameFilesBut (site.reportPlace base) files files') {names : List Text}
    (h : Discovery.Found files site.root Settings.defaultIgnored Discovery.defaultGlobs.flatten
      names) :
    Discovery.Found files' site.root Settings.defaultIgnored Discovery.defaultGlobs.flatten
      names := by
  have hup := not_up_of_proper hroot.proper
  have hplace : base ++ names ≠ site.reportPlace base :=
    mt List.append_cancel_left (ne_report_of_found hdefault h)
  obtain ⟨content, hmem⟩ := h.file
  rw [hroot.root, Discovery.mem_candidates hf hup] at hmem
  refine ⟨⟨content, ?_⟩, h.shown, h.matched, h.kept⟩
  rw [hroot.root, Discovery.mem_candidates hf' hup]
  exact ⟨hmem.1, (hsame _ hplace content).1 hmem.2⟩

/-- Candidates are found under their names. -/
lemma found_of_isCandidate (hdefault : site.settings = .default) {path : Path}
    (h : site.IsCandidate files path) :
    ∃ names, path = site.root.join ⟨[], names⟩ ∧ Discovery.Found files site.root
      Settings.defaultIgnored Discovery.defaultGlobs.flatten names := by
  obtain ⟨paths, hc, hpath⟩ := h
  obtain ⟨taken, htaken, hmem, -⟩ := candidatesOf_ordered hdefault files
  cases htaken.symm.trans hc
  obtain ⟨names, hn, rfl⟩ := List.mem_map.1 hpath
  exact ⟨names, rfl, (hmem names).1 hn⟩

/-- Beside the report, the same files are candidates in both trees. -/
lemma isCandidate_of_same (hdefault : site.settings = .default) (hroot : site.AtNames base)
    (hf : files.WellFormed) (hf' : files'.WellFormed)
    (hsame : SameFilesBut (site.reportPlace base) files files') {path : Path}
    (h : site.IsCandidate files path) : site.IsCandidate files' path := by
  obtain ⟨names, rfl, hfound⟩ := found_of_isCandidate hdefault h
  obtain ⟨taken', htaken', hmem', -⟩ := candidatesOf_ordered hdefault files'
  rw [isCandidate_join htaken', hmem']
  exact found_of_same hdefault hroot hf hf' hsame hfound

/-- A file in the directory of manifests is there where the files are the same. -/
lemma hasFileIn_of_same (hroot : site.AtNames base) (hf : files.WellFormed)
    (hf' : files'.WellFormed) (hsame : SameFilesBut (site.reportPlace base) files files')
    {name : Text} (h : files.HasFileIn (site.root.joinText Manifests.directory).names name) :
    files'.HasFileIn (site.root.joinText Manifests.directory).names name := by
  have hnames : (site.root.joinText Manifests.directory).names = base ++ [Manifests.directory] := by
    rw [hroot.root]
    rfl
  have hplace : base ++ [Manifests.directory] ++ [name] ≠ site.reportPlace base := by
    intro heq
    have hlength := congrArg List.length heq
    simp [reportPlace] at hlength
  obtain ⟨content, hmem⟩ := h
  rw [hnames, hf.mem_below] at hmem
  refine ⟨content, ?_⟩
  rw [hnames, hf'.mem_below]
  exact ⟨hmem.1, (hsame _ hplace content).1 hmem.2⟩

/-- A report is none of the files that an audit looks at. -/
lemma agree_of_same (hdefault : site.settings = .default) (hroot : site.AtNames base)
    (hf : files.WellFormed) (hf' : files'.WellFormed)
    (hsame : SameFilesBut (site.reportPlace base) files files') : site.Agree files files' := by
  have hcontent : ∀ file, site.IsInspected file →
      files.content? (site.root.joinText file) = files'.content? (site.root.joinText file) := by
    intro file hfile
    obtain ⟨hrelative, hup, hne⟩ := hfile
    rw [Path.joinText, hrelative]
    exact content_of_same hroot hf hf' hsame hup hne
  have hinspected : (∀ file ∈ Legacy.includes, site.IsInspected file) ∧
      (∀ file ∈ Overrides.themeFiles, site.IsInspected file) ∧
      site.IsInspected site.settings.configFile ∧ site.IsInspected RemoteLoader.runtimeFile := by
    unfold IsInspected
    rw [hdefault]
    decide
  obtain ⟨hincludes, hshadows, hconfig, hruntime⟩ := hinspected
  refine ⟨fun path => ⟨?_, ?_⟩, fun path hpath => ?_, hcontent _ hconfig,
    fun file hfile => hcontent file (hincludes file hfile), hcontent _ hruntime,
    fun file hfile => ?_, fun name => ⟨?_, ?_⟩⟩
  · exact isCandidate_of_same hdefault hroot hf hf' hsame
  · exact isCandidate_of_same hdefault hroot hf' hf hsame.symm
  · obtain ⟨names, rfl, hfound⟩ := found_of_isCandidate hdefault hpath
    exact content_of_same hroot hf hf' hsame (Discovery.not_dots_of_isHidden hfound.shown)
      (ne_report_of_found hdefault hfound)
  · rw [isFile_eq_isSome, isFile_eq_isSome, hcontent file (hshadows file hfile)]
  · exact hasFileIn_of_same hroot hf hf' hsame
  · exact hasFileIn_of_same hroot hf' hf hsame.symm

/-! ### Audits with reports -/

/-- What an audit with a report leaves is a report of what another audit finds. -/
lemma reported_of_audit (hdefault : site.settings = .default) (hcatalog : site.catalog = .absent)
    (hlocator : site.locator = .listed []) (hroot : site.AtNames base) (hf : p.files.WellFormed)
    {f : List Finding → Result} {r : Result}
    (h : runFrom (do
      let findings ← survey (site.audit Check.all)
      let _ ← site.writeReport findings
      return f findings) p = (.ok r, p')) :
    ∃ findings, r = f findings ∧ site.Reported base findings p.files p'.files ∧
      ∀ notices, (runFrom (site.audit Check.all p'.files) notices).1 = .ok findings := by
  have hraises : ¬ site.catalog.Raises .exit := by
    rw [hcatalog]
    exact Catalog.not_raises_absent .exit
  obtain ⟨findings, haudit, -⟩ := audit_total hdefault hraises p.files p.notices
  rw [runFrom_bind, runFrom_survey, haudit] at h
  dsimp only at h
  obtain ⟨path, written, hwrite, h⟩ := runFrom_bind_eq_ok.1 h
  cases h
  have hreported := reported_of_writeReport hdefault hroot hwrite hf
  have hagree := agree_of_same hdefault hroot hf hreported.wellFormed hreported.same
  refine ⟨findings, rfl, hreported, fun notices => ?_⟩
  obtain ⟨findings', haudit', hagain⟩ :=
    audit_of_agree hdefault hcatalog hlocator hf hagree p.notices notices
  cases haudit.symm.trans haudit'
  exact hagain

/-- **An audit depends on what it looks at only**, and its report is none of that. With the usual
settings, without a catalog and packages, trees that agree on what an audit looks at have the same
findings. So after an audit with a report another one finds the same and changes nothing, and what
an upgrade says to be found is what an audit of the site finds that the upgrade leaves. -/
theorem audit_repeats (hdefault : site.settings = .default) (hcatalog : site.catalog = .absent)
    (hlocator : site.locator = .listed []) :
    (∀ files files', files.WellFormed → site.Agree files files' → ∀ notices notices',
      ∃ findings, (runFrom (site.audit Check.all files) notices).1 = .ok findings ∧
        (runFrom (site.audit Check.all files') notices').1 = .ok findings) ∧
    ∀ base p, site.AtNames base → p.files.WellFormed →
      (∀ command command' r p', runFrom (site.runAudit Check.all command) p = (.ok r, p') →
        p'.files.content? site.reportPath = some (Utf8.encode (Report.markdown r.findings)) ∧
        ∃ r' p'', runFrom (site.runAudit Check.all command') p' = (.ok r', p'') ∧
          r'.findings = r.findings ∧ p''.files = p'.files) ∧
      ∀ safe dryRun r p', runFrom (site.runApply Check.all safe dryRun) p = (.ok r, p') →
        ∀ notices, (runFrom (site.audit Check.all p'.files) notices).1 = .ok r.findings := by
  refine ⟨fun files files' hf h => audit_of_agree hdefault hcatalog hlocator hf h, ?_⟩
  intro base p hroot hf
  refine ⟨fun command command' r p' h => ?_, fun safe dryRun r p' h => ?_⟩
  · obtain ⟨findings, rfl, hreported, hagain⟩ :=
      reported_of_audit hdefault hcatalog hlocator hroot hf h
    have hup := not_up_of_proper (proper_reportPlace hdefault hroot)
    refine ⟨?_, ?_⟩
    · rw [reportPath_eq hdefault hroot.root]
      exact (hreported.wellFormed.content?_ofNames hup).2 hreported.report
    · obtain ⟨notices, hwrite⟩ := hreported.again hdefault hroot
        (runFrom (site.audit Check.all p'.files) p'.notices).2
      refine ⟨⟨command', findings, [], false, version⟩, ⟨p'.files, notices⟩, ?_, rfl, rfl⟩
      unfold runAudit
      rw [runFrom_bind, runFrom_survey, hagain]
      dsimp only
      rw [runFrom_bind, hwrite]
      rfl
  · cases safe with
    | false =>
      cases h
    | true =>
      obtain ⟨applied, upgraded, hupgrade, h⟩ := runFrom_bind_eq_ok.1 h
      obtain ⟨after, hrun, hshape⟩ := runFrom_upgrade site dryRun p
      obtain ⟨hpreview, rfl⟩ := Prod.ext_iff.1 (hrun.symm.trans hupgrade)
      obtain ⟨hshape, hkeys⟩ := hshape applied hpreview
      obtain ⟨findings, rfl, -, hagain⟩ := reported_of_audit hdefault hcatalog hlocator hroot
        (hf.of_sameShape hshape hkeys) h
      exact hagain

/-- Files of a site: a template with an old class name and a call. -/
def plainFiles : FileTree :=
  .ofFiles [(.ofText "/site/_includes/a.html", Utf8.encode "font-weight-bold $(b)\n")]

/-- The same files beside one that no audit looks at. -/
def besideFiles : FileTree :=
  .ofFiles [(.ofText "/site/README.md", Utf8.encode "$(c)\n"),
    (.ofText "/site/_includes/a.html", Utf8.encode "font-weight-bold $(b)\n")]

/-- What an audit looks at is the same. -/
lemma agree_beside : (usual (.ofText "/site")).Agree plainFiles besideFiles := by
  have hplain : (usual (.ofText "/site")).candidatesOf plainFiles =
      .ok [.ofText "/site/_includes/a.html"] := by decide +kernel
  have hbeside : (usual (.ofText "/site")).candidatesOf besideFiles =
      .ok [.ofText "/site/_includes/a.html"] := by decide +kernel
  have hbelow : ((usual (.ofText "/site")).root.joinText Manifests.directory).names =
        ["site".toList, "migrations".toList] ∧
      plainFiles.below ["site", "migrations"] = besideFiles.below ["site", "migrations"] := by
    decide +kernel
  have hcontents : plainFiles.content? (.ofText "/site/_includes/a.html") =
      besideFiles.content? (.ofText "/site/_includes/a.html") := by decide +kernel
  refine ⟨fun path => ?_, fun path hpath => ?_, by decide +kernel, by decide +kernel,
    by decide +kernel, by decide +kernel, fun name => ?_⟩
  · unfold IsCandidate
    rw [hplain, hbeside]
  · obtain ⟨paths, hc, hpath⟩ := hpath
    cases hplain.symm.trans hc
    rw [List.mem_singleton.1 hpath]
    exact hcontents
  · unfold FileTree.HasFileIn
    rw [hbelow.1, hbelow.2]

/-- The other file does not matter, and neither do the reports. -/
theorem audit_repeats_beside :
    (usual (.ofText "/site")).settings = .default ∧ (usual (.ofText "/site")).catalog = .absent ∧
      (usual (.ofText "/site")).locator = .listed [] ∧
      (runFrom ((usual (.ofText "/site")).audit Check.all plainFiles) []).1 =
        (runFrom ((usual (.ofText "/site")).audit Check.all besideFiles) []).1 ∧
      (∃ r p' r' p'',
        runFrom ((usual (.ofText "/site")).runAudit Check.all "audit") ⟨plainFiles, []⟩ =
          (.ok r, p') ∧
        runFrom ((usual (.ofText "/site")).runAudit Check.all "report") p' = (.ok r', p'') ∧
        r'.findings = r.findings ∧ p''.files = p'.files) ∧
      ∃ r p', runFrom ((usual (.ofText "/site")).runApply Check.all true false) ⟨plainFiles, []⟩ =
          (.ok r, p') ∧
        (runFrom ((usual (.ofText "/site")).audit Check.all p'.files) []).1 = .ok r.findings := by
  have hdefault : (usual (.ofText "/site")).settings = .default := rfl
  have hcatalog : (usual (.ofText "/site")).catalog = .absent := rfl
  have hlocator : (usual (.ofText "/site")).locator = .listed [] := rfl
  have hf : plainFiles.WellFormed := by
    refine FileTree.wellFormed_ofFiles ?_
    simp [FileTree.names_ofText]
  have hroot : (usual (.ofText "/site")).AtNames ["site"] := by
    refine ⟨by decide, List.forall_mem_singleton.2 ?_⟩
    constructor <;> decide
  have haudit : (runFrom ((usual (.ofText "/site")).runAudit Check.all "audit")
      ⟨plainFiles, []⟩).1.isOk = true := by decide +kernel
  have happly : (runFrom ((usual (.ofText "/site")).runApply Check.all true false)
      ⟨plainFiles, []⟩).1.isOk = true := by decide +kernel
  have hok : ∀ {x : Except Failure Result}, x.isOk = true → ∃ r, x = .ok r := by
    intro x hx
    cases x with
    | error e => cases hx
    | ok r => exact ⟨r, rfl⟩
  obtain ⟨r, hr⟩ := hok haudit
  obtain ⟨applied, happlied⟩ := hok happly
  obtain ⟨hagree, hreports⟩ := audit_repeats hdefault hcatalog hlocator
  obtain ⟨hagain, hupgrade⟩ := hreports _ ⟨plainFiles, []⟩ hroot hf
  obtain ⟨findings, hplain, hbeside⟩ := hagree _ _ hf agree_beside [] []
  obtain ⟨-, r', p'', hr', hsame, hfiles⟩ := hagain _ "report" _ _ (runFrom_of_fst hr)
  exact ⟨hdefault, hcatalog, hlocator, hplain.trans hbeside.symm,
    ⟨r, _, r', p'', runFrom_of_fst hr, hr', hsame, hfiles⟩,
    applied, _, runFrom_of_fst happlied, hupgrade _ _ _ _ (runFrom_of_fst happlied) []⟩

end Site

end SiteAudit
