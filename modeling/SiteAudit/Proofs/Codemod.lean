import Mathlib.Data.List.Pairwise
import SiteAudit.Codemod
import SiteAudit.Proofs.FileTree
import SiteAudit.Proofs.Utf8

/-!
# Changing files

What a change of one file comes to can be told from the files as they are (`runFrom_applyTo`). Files
at different places do not meet, so that changes of them one after the other come to what each of
them would come to by itself (`runFrom_mapM_applyTo`): the files of which a transform makes anything
else are rewritten, and no other entry is touched (`rewritten_rewrittenAll`).
-/

namespace SiteAudit

/-! ### Runs of steps -/

section Change
/-- Asking for the files changes nothing. -/
@[simp] lemma runFrom_get (p : Progress) : runFrom (get : Change Progress) p = (.ok p, p) := rfl

/-- A notice comes after those that have been given. -/
@[simp] lemma runFrom_changeNotice (n : Notice) (p : Progress) :
    runFrom (Change.notice n) p = (.ok (), ⟨p.files, p.notices ++ [n]⟩) := rfl

/-- A write succeeds with the files as they are written, or fails and writes nothing. -/
lemma runFrom_write (path : Path) (content : Bytes) (p : Progress) :
    runFrom (Change.write path content) p =
      match p.files.write path content with
      | .ok files => (.ok (), ⟨files, p.notices⟩)
      | .error e => (.error (.file e), p) := by
  unfold Change.write
  rw [runFrom_bind, runFrom_get]
  dsimp only
  cases p.files.write path content with
  | ok files => rfl
  | error e => rfl

end Change

namespace Codemod

variable {m m' : Yaml.Memory} {root path : Path} {configFile file : Text}
  {files files' : FileTree}

/-- The text of the file at a path, if one can be read there. -/
def textAt? (files : FileTree) (path : Path) : Option Text :=
  match files.read path with
  | .ok bytes => (Utf8.decode bytes).toOption
  | .error _ => none

/-- A text is read from the content of a file. -/
lemma textAt?_eq_some {content : Text} :
    textAt? files path = some content ↔
      ∃ bytes, files.read path = .ok bytes ∧ Utf8.decode bytes = .ok content := by
  unfold textAt?
  cases files.read path with
  | error fault => simp
  | ok bytes => cases h : Utf8.decode bytes <;> simp [h, Except.toOption]

/-- The same bytes are the same text. -/
lemma textAt?_congr (h : files'.read path = files.read path) :
    textAt? files' path = textAt? files path := by
  unfold textAt?
  rw [h]

/-! ### One file -/

/-- The name of a file as seen from the root. -/
def nameUnder (root path : Path) : Text := Path.text ⟨[], (path.relativeTo? root).getD []⟩

/-- A path below the root is known by the names after it. -/
lemma relativeTo?_join (root : Path) (names : List Text) :
    (root.join ⟨[], names⟩).relativeTo? root = some names := by
  have hbelow : root.names.isPrefixOf (root.names ++ names) = true :=
    List.isPrefixOf_iff_prefix.2 (List.prefix_append _ _)
  unfold Path.relativeTo?
  simp [Path.join, Path.isAbsolute, hbelow]

/-- Different names below a root are different paths. -/
lemma join_inj {names names' : List Text} :
    root.join ⟨[], names⟩ = root.join ⟨[], names'⟩ ↔ names = names' := by
  constructor
  · intro h
    have h := congrArg (Path.relativeTo? · root) h
    simpa only [relativeTo?_join, Option.some.injEq] using h
  · exact fun h => h ▸ rfl

/-- What lies below the root is known by its path from there. -/
lemma nameUnder_join (root : Path) (names : List Text) :
    nameUnder root (root.join ⟨[], names⟩) = Path.text ⟨[], names⟩ := by
  unfold nameUnder
  rw [relativeTo?_join]
  rfl

/-- What a change of one file comes to, as the files are. -/
def outcomeOf (m : Yaml.Memory) (root : Path) (configFile : Text) (files : FileTree) (path : Path) :
    Except Failure FileOutcome :=
  if (path.relativeTo? root).isNone then .error (.outside path root)
  else match textAt? files path with
    | none => .ok (.skipped (nameUnder root path))
    | some content =>
      match transform m configFile (nameUnder root path) content with
      | .error cause => .error (.completion cause)
      | .ok o =>
        .ok (if o.content = content then .same else .changed ⟨nameUnder root path, o.fired⟩)

/-- A text below the root has the outcome of its transform. -/
lemma outcomeOf_of_transform {content : Text} {o : Outcome}
    (hbelow : (path.relativeTo? root).isSome) (htext : textAt? files path = some content)
    (h : transform m configFile (nameUnder root path) content = .ok o) :
    outcomeOf m root configFile files path =
      .ok (if o.content = content then .same else .changed ⟨nameUnder root path, o.fired⟩) := by
  obtain ⟨names, hnames⟩ := Option.isSome_iff_exists.1 hbelow
  unfold outcomeOf
  rw [hnames, htext]
  dsimp only
  rw [h]
  rfl

/-- What a transform makes of the text of a file, if it is another text. -/
def rewriteOf? (m : Yaml.Memory) (root : Path) (configFile : Text) (files : FileTree)
    (path : Path) : Option Outcome :=
  if (path.relativeTo? root).isNone then none
  else match textAt? files path with
    | none => none
    | some content =>
      match transform m configFile (nameUnder root path) content with
      | .error _ => none
      | .ok o => if o.content = content then none else some o

/-- The files after a change of one of them. -/
def rewritten (m : Yaml.Memory) (root : Path) (configFile : Text) (files : FileTree)
    (path : Path) : FileTree :=
  match rewriteOf? m root configFile files path, files.place path with
  | some o, .ok place => files.put place (.file (Utf8.encode o.content))
  | _, _ => files

/-- A file is rewritten if a transform makes another text of its text. -/
lemma rewriteOf?_eq_some {o : Outcome} :
    rewriteOf? m root configFile files path = some o ↔
      (path.relativeTo? root).isSome = true ∧ ∃ content, textAt? files path = some content ∧
        transform m configFile (nameUnder root path) content = .ok o ∧ o.content ≠ content := by
  unfold rewriteOf?
  cases path.relativeTo? root with
  | none => simp
  | some names =>
    cases textAt? files path with
    | none => simp
    | some content =>
      cases h : transform m configFile (nameUnder root path) content with
      | error cause => simp [h]
      | ok o' =>
        by_cases hsame : o'.content = content
        · simp [h, hsame]
          rintro rfl
          exact hsame
        · simp [h, hsame]
          rintro rfl
          exact hsame

/-- A file that is rewritten is put anew where its path leads to. -/
lemma rewritten_cases (m : Yaml.Memory) (root : Path) (configFile : Text) (files : FileTree)
    (path : Path) :
    rewriteOf? m root configFile files path = none ∧
        rewritten m root configFile files path = files ∨
      ∃ o place bytes, rewriteOf? m root configFile files path = some o ∧
        files.place path = .ok place ∧ files.entry? place = some (.file bytes) ∧
        rewritten m root configFile files path =
          files.put place (.file (Utf8.encode o.content)) := by
  unfold rewritten
  cases h : rewriteOf? m root configFile files path with
  | none => exact .inl ⟨rfl, rfl⟩
  | some o =>
    obtain ⟨_, content, htext, _⟩ := rewriteOf?_eq_some.1 h
    obtain ⟨bytes, hread, _⟩ := textAt?_eq_some.1 htext
    obtain ⟨place, hplace, he⟩ := FileTree.read_eq_ok.1 hread
    rw [hplace]
    exact .inr ⟨o, place, bytes, rfl, rfl, he, rfl⟩

/-- Changing a text touches no file. -/
lemma runFrom_transformed (m : Yaml.Memory) (configFile file content : Text) (p : Progress) :
    runFrom (transformed m configFile file content) p =
      match transform m configFile file content with
      | .error cause => (.error (.completion cause), p)
      | .ok o =>
        (.ok o, ⟨p.files, p.notices ++ if o.declined then [.completionDeclined] else []⟩) := by
  unfold transformed
  cases transform m configFile file content with
  | error cause => rfl
  | ok o =>
    dsimp only
    cases o.declined with
    | true => rfl
    | false => simp

/-- A change of one file comes to what the files tell, and a dry run writes nothing. -/
lemma runFrom_applyTo (m : Yaml.Memory) (root : Path) (configFile : Text) (dryRun : Bool)
    (path : Path) (p : Progress) :
    ∃ notices, runFrom (applyTo m root configFile dryRun path) p =
      (outcomeOf m root configFile p.files path,
        ⟨if dryRun then p.files else rewritten m root configFile p.files path, notices⟩) := by
  unfold applyTo
  rw [runFrom_bind, runFrom_survey]
  unfold relativeText outcomeOf rewritten rewriteOf? nameUnder
  cases path.relativeTo? root with
  | none => exact ⟨p.notices, by simp⟩
  | some names =>
    dsimp only [runFrom_pure]
    rw [runFrom_bind, runFrom_get]
    dsimp only
    unfold textAt?
    cases hread : p.files.read path with
    | error fault => exact ⟨_, by simp; rfl⟩
    | ok bytes =>
      dsimp only
      cases hdecode : Utf8.decode bytes with
      | error e => exact ⟨_, by simp [Except.toOption]; rfl⟩
      | ok content =>
        obtain ⟨place, hplace, he⟩ := FileTree.read_eq_ok.1 hread
        dsimp only [Except.toOption]
        rw [runFrom_bind, runFrom_transformed]
        dsimp only [Option.getD]
        cases transform m configFile (Path.text ⟨[], names⟩) content with
        | error cause => exact ⟨p.notices, by simp⟩
        | ok o =>
          by_cases hsame : o.content = content
          · exact ⟨_, by simp [hsame]; rfl⟩
          · cases dryRun with
            | true => exact ⟨_, by simp [hsame]; rfl⟩
            | false =>
              -- what has just been read can be written over
              have hwrite := FileTree.write_over hplace he (Utf8.encode o.content)
              exact ⟨_, by simp [hsame, runFrom_bind, runFrom_write, hwrite, hplace]; rfl⟩

/-- A change of one file is the same in memories in which its text is transformed alike. -/
lemma runFrom_applyTo_congr {p : Progress}
    (h : ∀ content, textAt? p.files path = some content →
      transform m configFile (nameUnder root path) content =
        transform m' configFile (nameUnder root path) content) (dryRun : Bool) :
    runFrom (applyTo m root configFile dryRun path) p =
      runFrom (applyTo m' root configFile dryRun path) p := by
  unfold applyTo
  rw [runFrom_bind, runFrom_bind, runFrom_survey]
  unfold relativeText
  cases hbelow : path.relativeTo? root with
  | none => rfl
  | some names =>
    dsimp only [runFrom_pure]
    rw [runFrom_bind, runFrom_bind, runFrom_get]
    dsimp only
    cases hread : p.files.read path with
    | error fault => rfl
    | ok bytes =>
      dsimp only
      cases hdecode : Utf8.decode bytes with
      | error e => rfl
      | ok content =>
        have hsame := h content (textAt?_eq_some.2 ⟨bytes, hread, hdecode⟩)
        unfold nameUnder at hsame
        rw [hbelow] at hsame
        dsimp only [Option.getD] at hsame ⊢
        unfold transformed
        rw [hsame]

/-- What is read at the path decides about the outcome. -/
lemma outcomeOf_congr (h : files'.read path = files.read path) :
    outcomeOf m root configFile files' path = outcomeOf m root configFile files path := by
  unfold outcomeOf
  rw [textAt?_congr h]

/-- And about whether the file is rewritten. -/
lemma rewriteOf?_congr (h : files'.read path = files.read path) :
    rewriteOf? m root configFile files' path = rewriteOf? m root configFile files path := by
  unfold rewriteOf?
  rw [textAt?_congr h]

/-- A rewritten file is in the place of the file that it was. -/
lemma sameShape_rewritten : (rewritten m root configFile files path).SameShape files := by
  rcases rewritten_cases m root configFile files path with ⟨_, h⟩ | ⟨o, place, bytes, _, _, he, h⟩
  · rw [h]
    exact fun _ => rfl
  · rw [h]
    exact FileTree.sameShape_put he _

/-- No place is added or taken away. -/
lemma keys_rewritten :
    (rewritten m root configFile files path).entries.map Prod.fst = files.entries.map Prod.fst := by
  rcases rewritten_cases m root configFile files path with ⟨_, h⟩ | ⟨o, place, bytes, _, _, he, h⟩
  · rw [h]
  · rw [h, FileTree.keys_put, ← FileTree.entry_of_ne (FileTree.ne_nil_of_file he), he]
    rfl

/-- Only contents differ. -/
lemma erase_rewritten (hm : files.IsMap) :
    (rewritten m root configFile files path).erase = files.erase := by
  rcases rewritten_cases m root configFile files path with ⟨_, h⟩ | ⟨o, place, bytes, _, _, he, h⟩
  · rw [h]
  · rw [h]
    exact FileTree.erase_put hm (FileTree.ne_nil_of_file he) he _

/-- A file that is rewritten holds the new text, in UTF-8. -/
lemma read_rewritten {o : Outcome} (ho : rewriteOf? m root configFile files path = some o) :
    (rewritten m root configFile files path).read path = .ok (Utf8.encode o.content) := by
  have hshape : (rewritten m root configFile files path).SameShape files := sameShape_rewritten
  rcases rewritten_cases m root configFile files path with
    ⟨hnone, _⟩ | ⟨o', place, _, ho', hp, he, h⟩
  · cases hnone.symm.trans ho
  · obtain rfl : o = o' := Option.some.inj (ho.symm.trans ho')
    refine FileTree.read_eq_ok.2 ⟨place, (hshape.place path).trans hp, ?_⟩
    rw [h, FileTree.entry_put (FileTree.ne_nil_of_file he), if_pos rfl]

/-- At other places nothing changes. -/
lemma entry_rewritten {place : List Text}
    (hne : rewriteOf? m root configFile files path ≠ none → files.place path ≠ .ok place) :
    FileTree.entry? (rewritten m root configFile files path) place = files.entry? place := by
  rcases rewritten_cases m root configFile files path with ⟨_, h⟩ | ⟨o, there, _, ho, hp, he, h⟩
  · rw [h]
  · rw [h, FileTree.entry_put (FileTree.ne_nil_of_file he), if_neg]
    rintro rfl
    exact hne (by simp [ho]) hp

/-! ### Several files -/

/-- The second path leads to another place than the first one. -/
def Apart (files : FileTree) (p q : Path) : Prop :=
  ∀ place, files.place p = .ok place → files.place q ≠ .ok place

/-- Whether paths are apart does not depend on what is in the files. -/
lemma apart_of_sameShape (h : files'.SameShape files) : Apart files' = Apart files := by
  funext p q
  unfold Apart
  rw [h.place p, h.place q]

/-- A change of one file leaves what is read at other places. -/
lemma read_rewritten_of_apart {q : Path} (h : Apart files path q) :
    (rewritten m root configFile files path).read q = files.read q := by
  refine FileTree.read_congr (sameShape_rewritten.place q) fun place hplace => ?_
  exact entry_rewritten fun _ hpath => h place hpath hplace

/-- The files after changes of several of them. -/
def rewrittenAll (m : Yaml.Memory) (root : Path) (configFile : Text) (files : FileTree)
    (paths : List Path) : FileTree :=
  paths.foldl (rewritten m root configFile) files

/-- Steps that are told in advance fail or succeed as the first one and the others do. -/
lemma mapM_outcomeOf_cons (m : Yaml.Memory) (root : Path) (configFile : Text) (files : FileTree)
    (path : Path) (paths : List Path) :
    (path :: paths).mapM (outcomeOf m root configFile files) =
      match outcomeOf m root configFile files path,
        paths.mapM (outcomeOf m root configFile files) with
      | .error e, _ => .error e
      | .ok _, .error e => .error e
      | .ok outcome, .ok outcomes => .ok (outcome :: outcomes) := by
  rw [List.mapM_cons]
  cases outcomeOf m root configFile files path with
  | error e => rfl
  | ok outcome => cases paths.mapM (outcomeOf m root configFile files) <;> rfl

/-- Dry changes come to what the files tell, and write nothing. -/
lemma runFrom_mapM_dry (m : Yaml.Memory) (root : Path) (configFile : Text) (paths : List Path)
    (p : Progress) :
    ∃ notices, runFrom (paths.mapM (applyTo m root configFile true)) p =
      (paths.mapM (outcomeOf m root configFile p.files), ⟨p.files, notices⟩) := by
  induction paths generalizing p with
  | nil => exact ⟨p.notices, rfl⟩
  | cons path paths ih =>
    obtain ⟨notices, hone⟩ := runFrom_applyTo m root configFile true path p
    obtain ⟨notices', hrest⟩ := ih ⟨p.files, notices⟩
    rw [runFrom_mapM_cons, hone, mapM_outcomeOf_cons]
    cases outcomeOf m root configFile p.files path with
    | error e => exact ⟨notices, rfl⟩
    | ok outcome =>
      dsimp only
      rw [if_pos rfl, hrest]
      cases paths.mapM (outcomeOf m root configFile p.files) with
      | error e => exact ⟨notices', rfl⟩
      | ok outcomes => exact ⟨notices', rfl⟩

/-- Changes of files at different places come to what the files tell at the start. -/
lemma runFrom_mapM_applyTo (m : Yaml.Memory) (root : Path) (configFile : Text)
    {paths : List Path} {p : Progress} (hapart : paths.Pairwise (Apart p.files)) :
    ∃ p', runFrom (paths.mapM (applyTo m root configFile false)) p =
        (paths.mapM (outcomeOf m root configFile p.files), p') ∧
      ∀ outcomes, paths.mapM (outcomeOf m root configFile p.files) = .ok outcomes →
        p'.files = rewrittenAll m root configFile p.files paths := by
  induction paths generalizing p with
  | nil => exact ⟨p, rfl, fun _ _ => rfl⟩
  | cons path paths ih =>
    obtain ⟨hhead, htail⟩ := List.pairwise_cons.1 hapart
    obtain ⟨notices, hone⟩ := runFrom_applyTo m root configFile false path p
    have hshape : (rewritten m root configFile p.files path).SameShape p.files :=
      sameShape_rewritten
    rw [if_neg Bool.false_ne_true] at hone
    -- the first change moves nothing, and the other files are found as they were
    have hsame :
        paths.mapM (outcomeOf m root configFile (rewritten m root configFile p.files path)) =
          paths.mapM (outcomeOf m root configFile p.files) :=
      mapM_congr fun q hq => outcomeOf_congr (read_rewritten_of_apart (hhead q hq))
    rw [← apart_of_sameShape hshape] at htail
    obtain ⟨p', hrest, hfiles⟩ :=
      ih (p := ⟨rewritten m root configFile p.files path, notices⟩) htail
    rw [hsame] at hrest hfiles
    rw [runFrom_mapM_cons, hone, mapM_outcomeOf_cons]
    cases outcomeOf m root configFile p.files path with
    | error e => exact ⟨_, rfl, fun _ h => by cases h⟩
    | ok outcome =>
      dsimp only
      rw [hrest]
      cases hall : paths.mapM (outcomeOf m root configFile p.files) with
      | error e => exact ⟨p', rfl, fun _ h => by cases h⟩
      | ok outcomes => exact ⟨p', rfl, fun _ _ => hfiles outcomes hall⟩

/-- Changes of files at different places are the same in memories in which each text that they start
from is transformed alike. -/
lemma runFrom_mapM_congr {paths : List Path} {p : Progress}
    (hapart : paths.Pairwise (Apart p.files))
    (h : ∀ path ∈ paths, ∀ content, textAt? p.files path = some content →
      transform m configFile (nameUnder root path) content =
        transform m' configFile (nameUnder root path) content) (dryRun : Bool) :
    runFrom (paths.mapM (applyTo m root configFile dryRun)) p =
      runFrom (paths.mapM (applyTo m' root configFile dryRun)) p := by
  induction paths generalizing p with
  | nil => rw [List.mapM_nil, List.mapM_nil]
  | cons path paths ih =>
    obtain ⟨hpath, hpaths⟩ := List.forall_mem_cons.1 h
    obtain ⟨hhead, htail⟩ := List.pairwise_cons.1 hapart
    obtain ⟨notices, hone⟩ := runFrom_applyTo m' root configFile dryRun path p
    -- the other files are where they were, and read as they did
    obtain ⟨after, hafter, hshape, hread⟩ : ∃ after : FileTree,
        after = (if dryRun then p.files else rewritten m' root configFile p.files path) ∧
          after.SameShape p.files ∧ ∀ q ∈ paths, after.read q = p.files.read q := by
      cases dryRun with
      | true => exact ⟨p.files, rfl, fun _ => rfl, fun _ _ => rfl⟩
      | false =>
        exact ⟨_, rfl, sameShape_rewritten, fun q hq => read_rewritten_of_apart (hhead q hq)⟩
    rw [← apart_of_sameShape hshape] at htail
    rw [runFrom_mapM_cons, runFrom_mapM_cons, runFrom_applyTo_congr hpath, hone, ← hafter]
    cases outcomeOf m' root configFile p.files path with
    | error e => rfl
    | ok outcome =>
      dsimp only
      rw [ih htail fun q hq content htext =>
        hpaths q hq content ((textAt?_congr (hread q hq)).symm.trans htext)]

/-! ### What several changes leave -/

/-- The one tree is the other one with the given files rewritten, and nothing else. -/
structure Rewritten (m : Yaml.Memory) (root : Path) (configFile : Text) (paths : List Path)
    (files files' : FileTree) : Prop where
  /-- A file of which a transform makes another text holds that text, in UTF-8. -/
  anew : ∀ path ∈ paths, ∀ o, rewriteOf? m root configFile files path = some o →
    files'.read path = .ok (Utf8.encode o.content)
  /-- Wherever no such file is, there is what was there. -/
  same : ∀ place, (∀ path ∈ paths, rewriteOf? m root configFile files path ≠ none →
    files.place path ≠ .ok place) → files'.entry? place = files.entry? place
  /-- Nothing is added, removed or moved. -/
  keys : files'.entries.map Prod.fst = files.entries.map Prod.fst

/-- So it is when several files are rewritten: they are in their places. -/
lemma sameShape_rewrittenAll (m : Yaml.Memory) (root : Path) (configFile : Text) (files : FileTree)
    (paths : List Path) : (rewrittenAll m root configFile files paths).SameShape files := by
  induction paths generalizing files with
  | nil => exact fun _ => rfl
  | cons path paths ih => exact (ih _).trans sameShape_rewritten

/-- Changes of files at different places rewrite them. -/
lemma rewritten_rewrittenAll (m : Yaml.Memory) (root : Path) (configFile : Text) {paths : List Path}
    (hapart : paths.Pairwise (Apart files)) :
    Rewritten m root configFile paths files (rewrittenAll m root configFile files paths) := by
  induction paths generalizing files with
  | nil => exact ⟨fun _ h => absurd h List.not_mem_nil, fun _ _ => rfl, rfl⟩
  | cons path paths ih =>
    obtain ⟨hhead, htail⟩ := List.pairwise_cons.1 hapart
    have hshape : (rewritten m root configFile files path).SameShape files := sameShape_rewritten
    have hrewrite : ∀ q ∈ paths,
        rewriteOf? m root configFile (rewritten m root configFile files path) q =
          rewriteOf? m root configFile files q :=
      fun q hq => rewriteOf?_congr (read_rewritten_of_apart (hhead q hq))
    rw [← apart_of_sameShape hshape] at htail
    obtain ⟨hanew, hsame, hkeys⟩ := ih htail
    refine ⟨List.forall_mem_cons.2 ⟨fun o ho => ?_, fun q hq o ho => ?_⟩, fun place hne => ?_, ?_⟩
    · -- the later changes leave the first file alone
      have hmoved := sameShape_rewrittenAll m root configFile
        (rewritten m root configFile files path) paths
      refine (FileTree.read_congr (hmoved.place path) fun place hplace => ?_).trans
        (read_rewritten ho)
      refine hsame place fun q hq _ => ?_
      rw [hshape.place] at hplace ⊢
      exact hhead q hq place hplace
    · exact hanew q hq o ((hrewrite q hq).trans ho)
    · obtain ⟨hnow, hlater⟩ := List.forall_mem_cons.1 hne
      refine (hsame place fun q hq h => ?_).trans (entry_rewritten hnow)
      rw [hrewrite q hq] at h
      rw [hshape.place]
      exact hlater q hq h
    · exact hkeys.trans keys_rewritten

/-- Being at another place goes both ways. -/
instance : Std.Symm (Apart files) := ⟨fun _ _ h place hq hp => h place hp hq⟩

/-- After changes of files at different places each of them reads as after the change of it. -/
lemma read_rewrittenAll (m : Yaml.Memory) (root : Path) (configFile : Text) {paths : List Path}
    (hapart : paths.Pairwise (Apart files)) (hmem : path ∈ paths) :
    (rewrittenAll m root configFile files paths).read path =
      match rewriteOf? m root configFile files path with
      | some o => .ok (Utf8.encode o.content)
      | none => files.read path := by
  have hall := rewritten_rewrittenAll m root configFile hapart
  cases hrewrite : rewriteOf? m root configFile files path with
  | some o => exact hall.anew path hmem o hrewrite
  | none =>
    refine FileTree.read_congr
      ((sameShape_rewrittenAll m root configFile files paths).place path) fun place hplace => ?_
    -- another file that is rewritten is at another place
    refine hall.same place fun q hq hrewritten hqplace => ?_
    have hne : path ≠ q := by
      rintro rfl
      exact hrewritten hrewrite
    exact hapart.forall hmem hq hne place hplace hqplace

/-- And only contents differ. -/
lemma erase_rewrittenAll (hm : files.IsMap) (m : Yaml.Memory) (root : Path) (configFile : Text)
    (paths : List Path) : (rewrittenAll m root configFile files paths).erase = files.erase := by
  induction paths generalizing files with
  | nil => rfl
  | cons path paths ih =>
    have hone : (rewritten m root configFile files path).IsMap := by
      unfold FileTree.IsMap
      rw [keys_rewritten]
      exact hm
    exact (ih hone).trans (erase_rewritten hm)

/-! ### What is told -/

/-- A file without a text is skipped; any other one is the same or changed. -/
lemma outcomeOf_eq_ok {outcome : FileOutcome}
    (h : outcomeOf m root configFile files path = .ok outcome) :
    textAt? files path = none ∧ rewriteOf? m root configFile files path = none ∧
        outcome = .skipped (nameUnder root path) ∨
      textAt? files path ≠ none ∧ rewriteOf? m root configFile files path = none ∧
        outcome = .same ∨
      ∃ o, textAt? files path ≠ none ∧ rewriteOf? m root configFile files path = some o ∧
        outcome = .changed ⟨nameUnder root path, o.fired⟩ := by
  unfold outcomeOf at h
  unfold rewriteOf?
  split at h
  · cases h
  · rename_i hbelow
    rw [if_neg hbelow]
    cases htext : textAt? files path with
    | none =>
      rw [htext] at h
      cases h
      exact .inl ⟨rfl, rfl, rfl⟩
    | some content =>
      rw [htext] at h
      dsimp only at h ⊢
      cases htransform : transform m configFile (nameUnder root path) content with
      | error cause =>
        rw [htransform] at h
        cases h
      | ok o =>
        rw [htransform] at h
        cases h
        by_cases hsame : o.content = content
        · simp [hsame]
        · simp [hsame]

/-- What is told to be changed is what is rewritten. -/
lemma changes_eq_filterMap {paths : List Path} {outcomes : List FileOutcome}
    (h : paths.mapM (outcomeOf m root configFile files) = .ok outcomes) :
    (Applied.ofOutcomes outcomes).changes = paths.filterMap fun path =>
      (rewriteOf? m root configFile files path).map fun o => ⟨nameUnder root path, o.fired⟩ := by
  induction mapM_eq_ok.1 h with
  | nil => rfl
  | cons hone hrest ih =>
    have ih := ih (mapM_eq_ok.2 hrest)
    simp only [Applied.ofOutcomes] at ih ⊢
    rcases outcomeOf_eq_ok hone with ⟨_, hr, rfl⟩ | ⟨_, hr, rfl⟩ | ⟨o, _, hr, rfl⟩
    all_goals simp [hr, ih]

/-- What is told to be skipped is what has no text. -/
lemma skipped_eq_filter {paths : List Path} {outcomes : List FileOutcome}
    (h : paths.mapM (outcomeOf m root configFile files) = .ok outcomes) :
    (Applied.ofOutcomes outcomes).skipped =
      (paths.filter fun path => (textAt? files path).isNone).map (nameUnder root) := by
  induction mapM_eq_ok.1 h with
  | nil => rfl
  | cons hone hrest ih =>
    have ih := ih (mapM_eq_ok.2 hrest)
    simp only [Applied.ofOutcomes] at ih ⊢
    rcases outcomeOf_eq_ok hone with ⟨ht, _, rfl⟩ | ⟨ht, _, rfl⟩ | ⟨o, ht, _, rfl⟩
    all_goals simp [ht, ih]

end Codemod

end SiteAudit
