import Mathlib.Data.List.Basic
import SiteAudit.Proofs.Codemod
import SiteAudit.Proofs.WellFormed
import SiteAudit.Upgrade

/-!
# Writing reports

The root of a site is resolved before anything is done: if a directory is there, names without
double dots lead to it (`isDirectory_resolve`). Below such a root the report can be written unless a
directory is in its place (`Site.runFrom_writeReport`).
-/

namespace SiteAudit

namespace FileTree

variable {t t' : FileTree} {p cwd : Path} {place names there : List Text} {name : Text}

/-! ### Resolved paths -/

/-- The names of a place lead straight to it. -/
structure Straight (t : FileTree) (place : List Text) : Prop where
  no_up : Path.up ∉ place
  leads : t.walk [] place = .ok place

/-- The way to the root directory is straight. -/
lemma straight_nil : t.Straight [] where
  no_up := List.not_mem_nil
  leads := rfl

/-- So is the way to the directory above. -/
lemma Straight.dropLast (h : t.Straight place) : t.Straight place.dropLast := by
  rcases place.eq_nil_or_concat with rfl | ⟨above, name, rfl⟩
  · exact straight_nil
  rw [List.concat_eq_append] at h ⊢
  rw [List.dropLast_concat]
  have hup : Path.up ∉ above := fun hmem => h.no_up (List.mem_append_left _ hmem)
  have hleads := h.leads
  rw [walk_append] at hleads
  obtain ⟨there, habove, -⟩ := bind_eq_ok.1 hleads
  have hthere : there = above := walk_eq_ok hup habove
  exact ⟨hup, habove.trans (by rw [hthere])⟩

/-- A straight way to a directory goes on straight to what is in it. -/
lemma Straight.concat (h : t.Straight place) (hdirectory : t.entry? place = some .directory)
    (hname : name ≠ Path.up) : t.Straight (place ++ [name]) where
  no_up := by
    rw [List.mem_append, List.mem_singleton, not_or]
    exact ⟨h.no_up, hname.symm⟩
  leads := by
    have hstep : t.walk place [name] = .ok (place ++ [name]) := by
      have hdots : ¬ name = ['.', '.'] := hname
      rw [walk, hdirectory]
      dsimp only
      rw [if_neg hdots, walk]
    rw [walk_append, h.leads]
    exact hstep

/-- Names lead from a place to the one that they collapse to, if they lead anywhere. -/
lemma Straight.walk (h : t.Straight place) (hw : t.walk place names = .ok there) :
    t.Straight there ∧ there = names.foldl
      (fun done name => if name = Path.up then done.dropLast else done ++ [name]) place := by
  induction names generalizing place with
  | nil =>
    cases hw
    exact ⟨h, rfl⟩
  | cons name names ih =>
    rw [FileTree.walk] at hw
    split at hw
    · cases hw
    · cases hw
    · rename_i hdirectory
      rw [List.foldl_cons]
      refine ih ?_ hw
      -- every step is made from a directory that has been reached straight
      split
      · exact h.dropLast
      · rename_i hname
        exact h.concat hdirectory hname

/-- A directory is found where its resolved path says. -/
lemma isDirectory_resolve (h : t.isDirectory (cwd.join p) = true) :
    ∃ base, p.resolve cwd = .ofNames base ∧ t.Straight base ∧ t.entry? base = some .directory := by
  obtain ⟨there, hplace, hdirectory⟩ := find_eq_ok.1 (isDirectory_iff.1 h)
  obtain ⟨hstraight, hcollapse⟩ := straight_nil.walk hplace
  exact ⟨there, congrArg Path.ofNames hcollapse.symm, hstraight, hdirectory⟩

/-! ### Writing into a directory -/

/-- Directories that are there are not made. -/
lemma makeDirectories_of_directory (hp : t.place p = .ok place)
    (hdirectory : t.entry? place = some .directory) : t.makeDirectories p = (t, none) := by
  unfold makeDirectories
  cases hsize : p.names.length with
  | zero => rfl
  | succ size =>
    have hmade : t.makeDirectory ⟨p.root, p.names.take (size + 1)⟩ = .ok t := by
      rw [← hsize, List.take_length]
      unfold makeDirectory
      rw [hp]
      dsimp only
      rw [hdirectory]
    rw [makeDirectoriesUp, hmade]

/-- A file can be written into a directory unless a directory is in its place. -/
lemma write_into (hp : t.place p = .ok (place ++ [name]))
    (hdirectory : t.entry? place = some .directory) (content : Bytes) :
    if t.isDirectory p then t.write p content = .error ⟨.isDirectory, p⟩
    else ∃ t', t.write p content = .ok t' := by
  have hfind : t.isDirectory p = true ↔ t.entry? (place ++ [name]) = some .directory := by
    rw [isDirectory_iff, find_eq_ok]
    constructor
    · rintro ⟨there, hthere, he⟩
      cases hp.symm.trans hthere
      exact he
    · intro he
      exact ⟨_, hp, he⟩
  unfold write
  rw [hp]
  dsimp only
  rw [List.dropLast_concat, hdirectory]
  cases he : t.entry? (place ++ [name]) with
  | none =>
    rw [if_neg (mt hfind.1 (by simp [he]))]
    exact ⟨_, rfl⟩
  | some e =>
    cases e with
    | file _ =>
      rw [if_neg (mt hfind.1 (by simp [he]))]
      exact ⟨_, rfl⟩
    | directory => rw [if_pos (hfind.2 he)]

end FileTree

/-! ### Reports -/

/-- So nothing happens to the files then. -/
lemma runFrom_makeDirectories {path : Path} {p : Progress} {place : List Text}
    (hp : p.files.place path = .ok place) (hdirectory : p.files.entry? place = some .directory) :
    runFrom (Change.makeDirectories path) p = (.ok (), p) := by
  unfold Change.makeDirectories
  rw [runFrom_bind, runFrom_get]
  dsimp only
  rw [FileTree.makeDirectories_of_directory hp hdirectory]
  rfl

namespace Site

/-- Where the report is written. -/
def reportPath (site : Site) : Path := site.root.joinText site.settings.reportFile

/-- The site has the usual settings, and its root is a directory that its names lead to. -/
structure Stands (site : Site) (files : FileTree) : Prop where
  settings : site.settings = .default
  root : ∃ base, site.root = .ofNames base ∧ files.Straight base ∧
    files.entry? base = some .directory

variable {site : Site} {files files' : FileTree}

/-- A site stands in every tree of the same shape. -/
lemma Stands.of_sameShape (h : site.Stands files) (hshape : files'.SameShape files) :
    site.Stands files' where
  settings := h.settings
  root := by
    obtain ⟨base, hroot, hstraight, hdirectory⟩ := h.root
    exact ⟨base, hroot, ⟨hstraight.no_up, (hshape.walk _ _).trans hstraight.leads⟩,
      (hshape.entry_directory base).2 hdirectory⟩

/-- A report is written after the directory for it has been made. -/
lemma writeReport_eq (site : Site) (findings : List Finding) :
    site.writeReport findings = (do
      Change.makeDirectories site.reportPath.parent
      Change.write site.reportPath (Utf8.encode (Report.markdown findings))
      Change.notice (.wroteReport site.reportPath)
      return site.reportPath) :=
  rfl

/-- The report is directly in the root. -/
lemma reportPath_eq (hdefault : site.settings = .default) {base : List Text}
    (hroot : site.root = .ofNames base) :
    site.reportPath = .ofNames (base ++ [site.settings.reportFile]) := by
  unfold reportPath
  rw [hdefault, hroot]
  rfl

/-- A report is written unless a directory is in its place. -/
lemma runFrom_writeReport (findings : List Finding) {p : Progress} (h : site.Stands p.files) :
    (runFrom (site.writeReport findings) p).1 =
      if p.files.isDirectory site.reportPath then .error (.file ⟨.isDirectory, site.reportPath⟩)
      else .ok site.reportPath := by
  obtain ⟨base, hroot, hstraight, hdirectory⟩ := h.root
  have hname := reportPath_eq h.settings hroot
  have hparent : site.reportPath.parent = .ofNames base := by
    rw [hname]
    exact congrArg (Path.mk ['/']) List.dropLast_concat
  have hplace : p.files.place site.reportPath = .ok (base ++ [site.settings.reportFile]) := by
    rw [hname]
    exact (hstraight.concat hdirectory (by rw [h.settings]; decide)).leads
  have hmade : runFrom (Change.makeDirectories site.reportPath.parent) p = (.ok (), p) := by
    rw [hparent]
    exact runFrom_makeDirectories hstraight.leads hdirectory
  have hwrite := FileTree.write_into hplace hdirectory (Utf8.encode (Report.markdown findings))
  rw [writeReport_eq, runFrom_bind, hmade]
  dsimp only
  rw [runFrom_bind, runFrom_write]
  by_cases hblocked : p.files.isDirectory site.reportPath = true
  · rw [if_pos hblocked] at hwrite ⊢
    rw [hwrite]
  · rw [if_neg hblocked] at hwrite ⊢
    obtain ⟨files, hwrite⟩ := hwrite
    rw [hwrite]
    rfl

end Site

end SiteAudit
