import SiteAudit.Check.Legacy
import SiteAudit.Check.RemoteLoader
import SiteAudit.Proofs.Audit
import SiteAudit.Proofs.Codemod

/-!
# Findings on lines

What the checks that look at lines find in a file, told from the lines of the file
(`runFrom_fileFindings`, `runFrom_assetFindings`, `runFrom_runtimeFindings`).
-/

namespace SiteAudit

variable {files : FileTree} {root path : Path} {notices : List Notice}

namespace Lines

/-- The lines of the file at a path. Where none can be read there are none. -/
def ofPath (files : FileTree) (path : Path) : List Text :=
  match files.read path with
  | .ok content => ofBytes content
  | .error _ => []

/-- The lines of a file are those of its content. -/
lemma ofPath_of_read {content : Bytes} (h : files.read path = .ok content) :
    ofPath files path = ofBytes content := by
  unfold ofPath
  rw [h]

/-- The lines of a file with a text are those of the text. -/
lemma ofPath_of_text {content : Text} (h : Codemod.textAt? files path = some content) :
    ofPath files path = ofText content := by
  obtain ⟨bytes, hread, hdecode⟩ := Codemod.textAt?_eq_some.1 h
  rw [ofPath_of_read hread, ofBytes, Utf8.decodeLenient_of_decode hdecode]

/-- Where there is no file there are no lines. -/
lemma ofPath_of_not_isFile (h : ¬ files.isFile path = true) : ofPath files path = [] := by
  unfold ofPath
  cases hread : files.read path with
  | error fault => rfl
  | ok content =>
    refine absurd ?_ h
    unfold FileTree.isFile
    rw [FileTree.find_eq_ok.2 (FileTree.read_eq_ok.1 hread)]

/-- The same content has the same lines. -/
lemma ofPath_congr {files' : FileTree} (h : files'.read path = files.read path) :
    ofPath files' path = ofPath files path := by
  unfold ofPath
  rw [h]

/-- A file that cannot be read has no lines. -/
lemma runFrom_ofFile (files : FileTree) (path : Path) (notices : List Notice) :
    (runFrom (ofFile files path) notices).1 = .ok (ofPath files path) := by
  unfold ofFile ofPath
  cases files.read path with
  | ok content => rfl
  | error fault => rfl

/-- Lines are numbered from one on. -/
lemma mem_numbered {lines : List Text} {n : Nat} {line : Text} :
    (n, line) ∈ numbered lines ↔ ∃ i, n = i + 1 ∧ lines[i]? = some line := by
  unfold numbered
  rw [List.mem_mapIdx]
  constructor
  · rintro ⟨i, hi, e⟩
    cases e
    exact ⟨i, rfl, List.getElem?_eq_getElem hi⟩
  · rintro ⟨i, rfl, h⟩
    obtain ⟨hi, rfl⟩ := List.getElem?_eq_some_iff.1 h
    exact ⟨i, hi, rfl⟩

/-- The numbers go up. -/
lemma pairwise_numbered (lines : List Text) :
    (numbered lines).Pairwise fun line line' => line.1 < line'.1 := by
  unfold numbered
  rw [List.pairwise_iff_getElem]
  intro i j hi hj hlt
  rw [List.getElem_mapIdx, List.getElem_mapIdx]
  exact Nat.succ_lt_succ hlt

end Lines

/-- A file below the root is known by its path from there. -/
lemma runFrom_relativeText {names : List Text} (h : path.relativeTo? root = some names)
    (notices : List Notice) :
    (runFrom (relativeText path root) notices).1 = .ok (Codemod.nameUnder root path) := by
  unfold relativeText Codemod.nameUnder
  rw [h]
  rfl

namespace Legacy

/-- The findings about attributes and calls on lines. -/
def inlineFindings (file : Text) (lines : List Text) : List Finding :=
  (Lines.numbered lines).flatMap (lineFindings file)

/-- The findings about files on lines. -/
def assetsOn (file : Text) (lines : List Text) : List Finding :=
  ((Lines.numbered lines).filter fun line => Marker.asset.occursIn line.2).map (assetFinding file)

/-- What is found in such a file is found on its lines. -/
lemma runFrom_fileFindings {names : List Text} (h : path.relativeTo? root = some names)
    (notices : List Notice) :
    (runFrom (fileFindings files root path) notices).1 =
      .ok (inlineFindings (Codemod.nameUnder root path) (Lines.ofPath files path)) :=
  runFrom_bind_fst (runFrom_relativeText h notices) fun notices =>
    runFrom_bind_fst (Lines.runFrom_ofFile files path notices) fun _ => rfl

/-- An include that is missing has no lines, and so no findings. -/
lemma runFrom_assetFindings (files : FileTree) (root : Path) (file : Text)
    (notices : List Notice) :
    (runFrom (assetFindings files root file) notices).1 =
      .ok (assetsOn file (Lines.ofPath files (root.joinText file))) := by
  unfold assetFindings
  dsimp only
  split
  · exact runFrom_bind_fst (Lines.runFrom_ofFile files _ notices) fun _ => rfl
  · rename_i hfile
    rw [Lines.ofPath_of_not_isFile hfile]
    rfl

end Legacy

namespace RemoteLoader

/-- The findings about remote loading on lines. -/
def templatesOn (file : Text) (lines : List Text) : List Finding :=
  ((Lines.numbered lines).filter fun line => Marker.remoteTemplate.occursIn line.2).map
    (finding file)

/-- So is what is found in a runtime file, under its label. -/
lemma runFrom_runtimeFindings (files : FileTree) (root path place : Path) (notices : List Notice) :
    (runFrom (fileFindings files root path place) notices).1 =
      .ok (templatesOn (label root path) (Lines.ofPath files place)) :=
  runFrom_bind_fst (Lines.runFrom_ofFile files place notices) fun _ => rfl

end RemoteLoader

end SiteAudit
