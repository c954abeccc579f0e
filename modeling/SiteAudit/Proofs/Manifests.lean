import SiteAudit.Proofs.Agreement
import SiteAudit.Proofs.Catalogs
import SiteAudit.Proofs.Languages

/-!
# Where manifests come from

A package that can be asked publishes the paths that its answer stands for (`Answer.StandsFor`). A
catalog never fails: it has a list exactly if it lists paths (`Catalog.Lists`), and what a list
lacks the directory of migrations does not make up for. So the check for manifests is content
exactly if there is one to follow (`Manifests.check_iff_hasManifest`).
-/

namespace SiteAudit

namespace Manifests

/-! ### Names -/

/-- A text in the place of a version in the name of a manifest. -/
structure IsVersion (t : Text) : Prop where
  ne_nil : t ≠ []
  no_underscore : '_' ∉ t
  no_slash : '/' ∉ t

/-- The version that the manifest leads from, the one that it leads to, and an extension. -/
inductive IsManifest : Text → Prop
  | mk {source target extension : Text} (hsource : IsVersion source) (htarget : IsVersion target)
    (hextension : extension ∈ [".yml".toList, ".yaml".toList]) :
    IsManifest (source ++ ("_to_" ++ (target ++ extension)))

/-- The expression for the names of manifests is found in the name. -/
def MatchesPattern (name : Text) : Prop :=
  ∃ r, Regex.ofText? "^[^_/]+_to_[^_/]+\\.ya?ml$" = some r ∧ r.search name = true

section Pattern
open Regex

/-- The class of what a version consists of. -/
def versionPart : Regex := .oneOf true [('/', '/'), ('_', '_')] []

/-- The expression for a version. -/
def versionParts : Regex := .both versionPart (.many versionPart)

/-- The parts of the expression for an extension. -/
def extensionParts : List Regex :=
  ".y".toList.map .char ++ .either (.char 'a') .nothing :: ("ml".toList.map .char ++ [])

/-- The parts of the expression for the name of a manifest. -/
def nameParts : List Regex :=
  versionParts :: ("_to_".toList.map .char ++ versionParts :: extensionParts)

/-- The words of the first part are versions. -/
lemma isWord_versionParts {w : Text} : versionParts.IsWord w ↔ IsVersion w := by
  have hclass : IsClass versionPart fun c => c ≠ '/' ∧ c ≠ '_' := by
    intro w
    simp only [versionPart, IsWord, admits, List.any_cons, List.any_nil, Bool.or_false, bne_iff_ne,
      ne_eq, Bool.or_eq_true, Bool.and_eq_true, decide_eq_true_eq, le_and_le_iff, not_or]
  unfold versionParts
  rw [hclass.isWord_some]
  constructor
  · rintro ⟨hne, hw⟩
    exact ⟨hne, fun h => (hw _ h).2 rfl, fun h => (hw _ h).1 rfl⟩
  · rintro ⟨hne, hunderscore, hslash⟩
    refine ⟨hne, fun c hc => ⟨?_, ?_⟩⟩
    · rintro rfl
      exact hslash hc
    · rintro rfl
      exact hunderscore hc

/-- Those of the last part are the two extensions. -/
lemma isWord_extensionParts {w : Text} :
    (Regex.sequence extensionParts).IsWord w ↔ w ∈ [".yml".toList, ".yaml".toList] := by
  unfold extensionParts
  simp only [isWord_sequence_cons, isWord_sequence_literal]
  rw [List.mem_pair]
  constructor
  · rintro ⟨_, rfl, a, _, rfl, ha, _, rfl, rfl⟩
    rcases ha with rfl | rfl
    · exact .inr rfl
    · exact .inl rfl
  · rintro (rfl | rfl)
    · exact ⟨_, rfl, [], _, rfl, .inr rfl, [], rfl, rfl⟩
    · exact ⟨_, rfl, ['a'], _, rfl, .inl rfl, [], rfl, rfl⟩

/-- So the words of the whole expression are names of manifests. -/
lemma isWord_nameParts {w : Text} : (Regex.sequence nameParts).IsWord w ↔ IsManifest w := by
  unfold nameParts
  simp only [isWord_sequence_cons, isWord_sequence_literal, isWord_versionParts,
    isWord_extensionParts]
  constructor
  · rintro ⟨source, _, rfl, hsource, _, rfl, target, extension, rfl, htarget, hextension⟩
    exact .mk hsource htarget hextension
  · rintro ⟨hsource, htarget, hextension⟩
    exact ⟨_, _, rfl, hsource, _, rfl, _, _, rfl, htarget, hextension⟩

/-- The expression is found in the names of manifests, where a line feed after one does not
count. -/
lemma matchesPattern_iff {name : Text} :
    MatchesPattern name ↔ ∃ w, IsManifest w ∧ (name = w ∨ name = w ++ ['\n']) := by
  have hpattern : ofText? "^[^_/]+_to_[^_/]+\\.ya?ml$" =
      some (Regex.sequence (.start :: (nameParts ++ [.stop]))) := rfl
  unfold MatchesPattern
  simp only [hpattern, Option.some.injEq, exists_eq_left', @search_whole nameParts rfl,
    isWord_nameParts]

end Pattern

/-- What follows the separator is a version and an extension. -/
lemma isTarget_iff {t : Text} : isTarget t = true ↔
    ∃ target extension, t = target ++ extension ∧ extension ∈ [".yml".toList, ".yaml".toList] ∧
      target ≠ [] ∧ '_' ∉ target := by
  have hplain : ∀ extension ∈ [".yml".toList, ".yaml".toList], '_' ∉ extension := by decide
  unfold isTarget
  rw [Bool.and_eq_true, List.any_eq_true, Bool.not_eq_true', List.contains_eq_mem,
    decide_eq_false_iff_not]
  constructor
  · rintro ⟨hno, extension, hextension, h⟩
    rw [Bool.and_eq_true, Text.endsWith_iff, decide_eq_true_eq] at h
    obtain ⟨⟨target, rfl⟩, hlonger⟩ := h
    refine ⟨target, extension, rfl, hextension, ?_, fun h => hno (List.mem_append_left _ h)⟩
    rintro rfl
    exact absurd hlonger (lt_irrefl _)
  · rintro ⟨target, extension, rfl, hextension, hne, hno⟩
    refine ⟨fun h => ?_, extension, hextension, ?_⟩
    · exact (List.mem_append.1 h).elim hno (hplain extension hextension)
    · rw [Bool.and_eq_true, Text.endsWith_iff, decide_eq_true_eq, List.length_append]
      exact ⟨⟨target, rfl⟩, Nat.lt_add_of_pos_left (List.length_pos_of_ne_nil hne)⟩

/-- A line feed after a text does not count. -/
lemma isTarget_dropFinalLineFeed {t : Text} : isTarget (dropFinalLineFeed t) = true ↔
    ∃ w, isTarget w = true ∧ (t = w ∨ t = w ++ ['\n']) := by
  unfold dropFinalLineFeed
  constructor
  · intro h
    split at h
    · rename_i hlast
      obtain ⟨s, rfl⟩ := List.getLast?_eq_some_iff.1 hlast
      rw [List.dropLast_concat] at h
      exact ⟨s, h, .inr rfl⟩
    · exact ⟨t, h, .inl rfl⟩
  · rintro ⟨w, hw, rfl | rfl⟩
    · -- an extension does not end with a line feed
      have hlast : t.getLast? ≠ some '\n' := by
        obtain ⟨target, extension, rfl, hextension, -⟩ := isTarget_iff.1 hw
        have hends : ∀ extension ∈ [".yml".toList, ".yaml".toList],
            extension.getLast? = some 'l' := by decide
        rw [List.getLast?_append, hends extension hextension, Option.some_or]
        decide
      rw [if_neg hlast]
      exact hw
    · rw [List.getLast?_concat, if_pos rfl, List.dropLast_concat]
      exact hw

/-- The parts of a name are what comes before the first underscore and what comes after `_to_`. -/
lemma isName_iff_parts {name : Text} : isName name = true ↔
    ∃ source rest, name = source ++ ("_to_".toList ++ rest) ∧ source ≠ [] ∧ '_' ∉ source ∧
      isTarget (dropFinalLineFeed rest) = true := by
  unfold isName
  dsimp only
  rw [Bool.and_eq_true, Option.any_eq_true]
  constructor
  · rintro ⟨hne, rest, hrest, htarget⟩
    obtain ⟨more, hmore⟩ := List.takeWhile_prefix (· != '_') (l := name)
    have hdrop := congrArg (List.drop (name.takeWhile (· != '_')).length) hmore.symm
    rw [List.drop_left] at hdrop
    rw [hdrop, Text.dropPrefix?_eq_some] at hrest
    refine ⟨_, rest, hrest ▸ hmore.symm, ?_, ?_, htarget⟩
    · simpa using hne
    · intro h
      simpa using List.mem_takeWhile_imp h
  · rintro ⟨source, rest, rfl, hne, hno, htarget⟩
    have hsource : (source ++ ("_to_".toList ++ rest)).takeWhile (· != '_') = source := by
      rw [List.takeWhile_append_of_pos fun c hc => ?_]
      · exact List.append_nil source
      · rw [bne_iff_ne]
        rintro rfl
        exact hno hc
    rw [hsource, List.drop_left]
    exact ⟨by simpa using hne, rest, Text.dropPrefix?_eq_some.2 rfl, htarget⟩

/-- Names without a slash are names of manifests if the expression is found in them. -/
lemma isName_iff {name : Text} (hslash : '/' ∉ name) :
    isName name = true ↔ MatchesPattern name := by
  rw [isName_iff_parts, matchesPattern_iff]
  simp only [isTarget_dropFinalLineFeed]
  simp only [isTarget_iff]
  constructor
  · rintro ⟨source, rest, rfl, hne, hno, _,
      ⟨target, extension, rfl, hextension, hne', hno'⟩, hrest⟩
    have hslash' : '/' ∉ source ∧ '/' ∉ rest := by
      simpa using hslash
    have htarget : '/' ∉ target := fun h => hslash'.2 (by rcases hrest with rfl | rfl <;> simp [h])
    refine ⟨_, .mk ⟨hne, hno, hslash'.1⟩ ⟨hne', hno', htarget⟩ hextension, ?_⟩
    rcases hrest with rfl | rfl
    · exact .inl rfl
    · exact .inr (by simp)
  · rintro ⟨_, @⟨source, target, extension, hsource, htarget, hextension⟩, hname⟩
    obtain ⟨rest, rfl, hrest⟩ : ∃ rest, name = source ++ ("_to_".toList ++ rest) ∧
        (rest = target ++ extension ∨ rest = target ++ extension ++ ['\n']) := by
      rcases hname with rfl | rfl
      · exact ⟨_, rfl, .inl rfl⟩
      · exact ⟨target ++ extension ++ ['\n'], by simp, .inr rfl⟩
    exact ⟨source, rest, rfl, hsource.ne_nil, hsource.no_underscore, _,
      ⟨target, extension, rfl, hextension, htarget.ne_nil, htarget.no_underscore⟩, hrest⟩

end Manifests

/-! ### Published paths -/

namespace FileTree

/-- The path leads to a file. One with a zero character is none. -/
def LeadsToFile (t : FileTree) (base p : Path) : Prop :=
  '\x00' ∉ p.text ∧ t.isFile (base.join p) = true

/-- The path is too long to ask what is there, or a name on it that is looked for somewhere. -/
def IsOverlong (t : FileTree) (base p : Path) : Prop :=
  '\x00' ∉ p.text ∧ (pathLimit ≤ (Utf8.encode p.text).length ∨
    t.meetsOverlong [] (base.join p).names = true)

variable {t : FileTree} {base p : Path}

/-- It is no file for a zero character, or over-long, or is looked for. -/
lemma asksForFile_cases (t : FileTree) (base p : Path) :
    '\x00' ∈ p.text ∧ t.asksForFile base p = .ok false ∨
      t.IsOverlong base p ∧ t.asksForFile base p = .error .nameTooLong ∨
      '\x00' ∉ p.text ∧ ¬ t.IsOverlong base p ∧
        t.asksForFile base p = .ok (t.isFile (base.join p)) := by
  have hiff : (decide (pathLimit ≤ (Utf8.encode p.text).length) ||
      t.meetsOverlong [] (base.join p).names) = true ↔ _ :=
    (Bool.or_eq_true _ _).to_iff.trans (or_congr_left decide_eq_true_iff)
  unfold asksForFile IsOverlong
  by_cases hzero : '\x00' ∈ p.text
  · rw [if_pos (List.contains_iff_mem.2 hzero)]
    exact .inl ⟨hzero, rfl⟩
  rw [if_neg (mt List.contains_iff_mem.1 hzero), ← hiff]
  split
  · rename_i hlong
    exact .inr (.inl ⟨⟨hzero, hlong⟩, rfl⟩)
  · rename_i hlong
    exact .inr (.inr ⟨hzero, fun h => hlong h.2, rfl⟩)

/-- Asking for a file fails if its path is over-long, and for no other reason. -/
lemma asksForFile_eq_error {fault : FileFault} :
    t.asksForFile base p = .error fault ↔ fault = .nameTooLong ∧ t.IsOverlong base p := by
  rcases t.asksForFile_cases base p with ⟨hzero, h⟩ | ⟨hlong, h⟩ | ⟨-, hshort, h⟩
  · rw [h]
    exact iff_of_false (fun h => by cases h) fun ⟨_, hlong, _⟩ => hlong hzero
  · rw [h, and_iff_left hlong, Except.error.injEq, eq_comm]
  · rw [h]
    exact iff_of_false (fun h => by cases h) fun ⟨_, hlong⟩ => hshort hlong

/-- If it can be asked, the answer is whether the path leads to a file. -/
lemma asksForFile_eq_ok {isThere : Bool} (h : t.asksForFile base p = .ok isThere) :
    ¬ t.IsOverlong base p ∧ (isThere = true ↔ t.LeadsToFile base p) := by
  rcases t.asksForFile_cases base p with ⟨hzero, h'⟩ | ⟨hlong, h'⟩ | ⟨hzero, hshort, h'⟩
  · cases h.symm.trans h'
    exact ⟨fun hlong => hlong.1 hzero, iff_of_false Bool.false_ne_true fun h => h.1 hzero⟩
  · cases h.symm.trans h'
  · cases h.symm.trans h'
    exact ⟨hshort, (and_iff_right hzero).symm⟩

end FileTree

namespace Manifests

variable {files : FileTree} {base : Path} {published found : List Path}

/-- It cannot be told which manifests are there if one of them is over-long. -/
lemma present_eq_error {e : FileError} :
    present files base published = .error e ↔ ∃ before path after,
      published = before ++ path :: after ∧ (∀ p ∈ before, ¬ files.IsOverlong base p) ∧
        files.IsOverlong base path ∧ e = ⟨.nameTooLong, path⟩ := by
  induction published with
  | nil => simp [present, pure, Except.pure]
  | cons path published ih =>
    rw [present]
    cases hask : files.asksForFile base path with
    | error fault =>
      obtain ⟨rfl, hlong⟩ := FileTree.asksForFile_eq_error.1 hask
      constructor
      · rintro ⟨⟩
        exact ⟨[], path, published, rfl, by simp, hlong, rfl⟩
      · rintro ⟨before, path', after, h, hbefore, -, rfl⟩
        cases before with
        | nil =>
          cases h
          rfl
        | cons _ before =>
          cases h
          exact absurd hlong (hbefore _ (List.mem_cons_self ..))
    | ok isThere =>
      obtain ⟨hshort, -⟩ := FileTree.asksForFile_eq_ok hask
      dsimp only
      rw [bind_eq_error, ih]
      constructor
      · rintro (⟨before, path', after, rfl, hbefore, h⟩ | ⟨_, -, h⟩)
        · exact ⟨path :: before, path', after, rfl, List.forall_mem_cons.2 ⟨hshort, hbefore⟩, h⟩
        · cases h
      · rintro ⟨before, path', after, h, hbefore, hlong, rfl⟩
        cases before with
        | nil =>
          cases h
          exact absurd hlong hshort
        | cons _ before =>
          cases h
          exact .inl ⟨before, path', after, rfl, (List.forall_mem_cons.1 hbefore).2, hlong, rfl⟩

/-- Otherwise those that lead to files are there. -/
lemma present_ne_nil (h : present files base published = .ok found) :
    found ≠ [] ↔ ∃ path ∈ published, files.LeadsToFile base path := by
  induction published generalizing found with
  | nil =>
    cases h
    simp
  | cons path published ih =>
    rw [present] at h
    cases hask : files.asksForFile base path with
    | error fault =>
      rw [hask] at h
      cases h
    | ok isThere =>
      obtain ⟨-, hthere⟩ := FileTree.asksForFile_eq_ok hask
      rw [hask] at h
      obtain ⟨rest, hrest, h⟩ := bind_eq_ok.1 h
      cases h
      simp only [List.mem_cons, exists_eq_or_imp, ← ih hrest, ← hthere]
      cases isThere with
      | true => simp
      | false => simp

end Manifests

/-- There is a manifest to follow: a file that the catalog lists or, if it has no list, one in the
directory of migrations with the name of a manifest. -/
inductive Site.HasManifest (site : Site) (files : FileTree) : Prop
  | listed {paths path} (hlists : site.catalog.Lists paths) (hmem : path ∈ paths)
    (hfile : files.LeadsToFile site.workingDirectory path)
  | inDirectory {name} (hnone : ∀ paths, ¬ site.catalog.Lists paths)
    (hfile : files.HasFileIn (site.root.joinText Manifests.directory).names name)
    (hname : Manifests.MatchesPattern name)

namespace Manifests

variable {site : Site} {files : FileTree}

/-- What makes the check fail: the catalog ends the program, or lists an over-long path before which
there is no other one. -/
inductive Fails (site : Site) (files : FileTree) : Failure → Prop
  | ended (h : site.catalog.Raises .exit) : Fails site files (.raised .exit)
  | overlong {before path after} (hlists : site.catalog.Lists (before ++ path :: after))
    (hbefore : ∀ p ∈ before, ¬ files.IsOverlong site.workingDirectory p)
    (hpath : files.IsOverlong site.workingDirectory path) :
    Fails site files (.file ⟨.nameTooLong, path⟩)

/-- The directory of migrations holds a manifest if a file there has the name of one. -/
lemma inDirectory_ne_nil (hf : files.WellFormed) {root : Path} : inDirectory files root ≠ [] ↔
    ∃ name, files.HasFileIn (root.joinText directory).names name ∧ MatchesPattern name := by
  rw [ne_eq, inDirectory_eq_nil]
  push Not
  refine exists_congr fun name => and_congr_right ?_
  rintro ⟨content, hmem⟩
  have hname := hf.isName_of_mem_below hmem name (List.mem_singleton_self name)
  rw [← isName_iff hname.no_slash, ne_eq, Bool.not_eq_false]

/-- What is looked for is what is published and there, or else what the directory holds. -/
lemma runFrom_paths (site : Site) (files : FileTree) (notices : List Notice) :
    (runFrom (paths site files) notices).1 =
      match (runFrom (published site.catalog) notices).1 with
      | .error e => .error e
      | .ok (some listed) => (present files site.workingDirectory listed).mapError .file
      | .ok none => .ok (inDirectory files site.root) := by
  unfold Manifests.paths
  rw [runFrom_bind]
  rcases runFrom (published site.catalog) notices with ⟨e | _ | listed, notices'⟩
  · rfl
  · rfl
  · dsimp only
    cases present files site.workingDirectory listed with
    | error e => rfl
    | ok found => rfl

/-- Looking for manifests fails as the check does. -/
lemma paths_eq_error (notices : List Notice) {e : Failure} :
    (runFrom (paths site files) notices).1 = .error e ↔ Fails site files e := by
  have hpublished := answers_published site.catalog
  rw [runFrom_paths]
  constructor
  · intro h
    cases hrun : (runFrom (published site.catalog) notices).1 with
    | error failure =>
      rw [hrun] at h
      cases h
      obtain ⟨how, rfl, rfl, hraises⟩ := (hpublished.failed notices _).1 hrun
      exact .ended hraises
    | ok answer =>
      rw [hrun] at h
      cases answer with
      | none => cases h
      | some listed =>
        have hlists := (hpublished.answered notices listed).1 hrun
        cases hpresent : present files site.workingDirectory listed with
        | ok found =>
          dsimp only at h
          rw [hpresent] at h
          cases h
        | error fault =>
          dsimp only at h
          rw [hpresent] at h
          cases h
          obtain ⟨before, path, after, rfl, hbefore, hpath, rfl⟩ := present_eq_error.1 hpresent
          exact .overlong hlists hbefore hpath
  · intro h
    cases h with
    | ended h => rw [(hpublished.failed notices _).2 ⟨.exit, rfl, rfl, h⟩]
    | overlong hlists hbefore hpath =>
      rw [(hpublished.answered notices _).2 hlists]
      dsimp only
      rw [present_eq_error.2 ⟨_, _, _, rfl, hbefore, hpath, rfl⟩]
      rfl

/-- If it does not fail, some are found exactly if there are any. -/
lemma paths_ne_nil (hf : files.WellFormed) {notices : List Notice} {found : List Path}
    (h : (runFrom (paths site files) notices).1 = .ok found) :
    found ≠ [] ↔ site.HasManifest files := by
  have hpublished := answers_published site.catalog
  rw [runFrom_paths] at h
  cases hrun : (runFrom (published site.catalog) notices).1 with
  | error failure =>
    rw [hrun] at h
    cases h
  | ok answer =>
    rw [hrun] at h
    cases answer with
    | some listed =>
      have hone : ∀ paths, site.catalog.Lists paths ↔ paths = listed := by
        intro paths
        rw [← hpublished.answered notices, hrun, Except.ok.injEq, Option.some.injEq, eq_comm]
      dsimp only at h
      cases hpresent : present files site.workingDirectory listed with
      | error fault =>
        rw [hpresent] at h
        cases h
      | ok found' =>
        rw [hpresent] at h
        cases h
        rw [present_ne_nil hpresent]
        constructor
        · rintro ⟨path, hmem, hfile⟩
          exact .listed ((hone listed).2 rfl) hmem hfile
        · intro h
          cases h with
          | listed hlists hmem hfile =>
            cases (hone _).1 hlists
            exact ⟨_, hmem, hfile⟩
          | inDirectory hnone => exact absurd ((hone listed).2 rfl) (hnone listed)
    | none =>
      have hnone : ∀ paths, ¬ site.catalog.Lists paths := fun paths hlists => by
        cases hrun.symm.trans ((hpublished.answered notices paths).2 hlists)
      cases h
      rw [inDirectory_ne_nil hf]
      constructor
      · rintro ⟨name, hfile, hname⟩
        exact .inDirectory hnone hfile hname
      · intro h
        cases h with
        | listed hlists => exact absurd hlists (hnone _)
        | inDirectory _ hfile hname => exact ⟨_, hfile, hname⟩

/-- The check tells whether any are found. -/
lemma runFrom_check (site : Site) (files : FileTree) (candidates : List Path)
    (notices : List Notice) :
    (runFrom (check.run site files candidates) notices).1 =
      (runFrom (paths site files) notices).1.map fun found =>
        if found.isEmpty then [missing] else [] := by
  have hcheck : check.run site files candidates = (paths site files >>= fun found =>
      return if found.isEmpty then [missing] else []) := rfl
  rw [hcheck, runFrom_bind]
  rcases runFrom (paths site files) notices with ⟨e | found, notices'⟩
  · rfl
  · rfl

/-- **The check for manifests is content exactly if there is one to follow**, and fails only as it
must. The core of the theme has a list exactly if it answers with paths, and what it raises gets
through exactly if nothing holds it back. The check fails if its catalog ends the program or lists a
path that is over-long; otherwise it has nothing to say if there is a manifest to follow, and the
one warning if there is none. -/
theorem check_iff_hasManifest (hf : files.WellFormed) (site : Site) (candidates : List Path)
    (notices : List Notice) :
    (∀ host, (∀ e, (runFrom (Catalog.published host).manifests notices).1 = .error e ↔
        ∃ how, e = .raised how ∧ (Catalog.published host).Raises how) ∧
      ∀ paths, (runFrom (Catalog.published host).manifests notices).1 = .ok (some paths) ↔
        (Catalog.published host).Lists paths) ∧
    (∀ e, (runFrom (check.run site files candidates) notices).1 = .error e ↔
      Fails site files e) ∧
    ∀ findings, (runFrom (check.run site files candidates) notices).1 = .ok findings →
      (findings = [] ↔ site.HasManifest files) ∧ (findings ≠ [] → findings = [missing]) := by
  refine ⟨fun host => ?_, fun e => ?_, fun findings h => ?_⟩
  · have hhost := (Catalog.published host).answers_manifests
    exact ⟨hhost.failed notices, hhost.answered notices⟩
  · rw [← paths_eq_error notices, runFrom_check]
    cases (runFrom (paths site files) notices).1 with
    | error failure => simp [Except.map]
    | ok found => exact iff_of_false (fun h => by cases h) fun h => by cases h
  · rw [runFrom_check] at h
    cases hpaths : (runFrom (paths site files) notices).1 with
    | error failure =>
      rw [hpaths] at h
      cases h
    | ok found =>
      rw [hpaths] at h
      cases h
      rw [← paths_ne_nil hf hpaths]
      cases found with
      | nil => simp
      | cons path found => simp

/-- A site with a manifest. -/
def releaseFiles : FileTree :=
  .ofFiles [(.ofText "/site/_config.yml", []), (.ofText "/site/migrations/1.0.0_to_1.1.0.yml", [])]

/-- The site, with a place to ask for manifests. -/
def releaseSite (catalog : Catalog) : Site :=
  { Site.usual (.ofNames ["site"]) with catalog := catalog }

/-- A core of the theme that answers with a list without manifests. -/
def emptyHost : Host := [(Package.core, ⟨some (⟨none, []⟩, .answering (.list [])), none⟩)]

/-- A core of the theme that raises while it is looked for something to ask. -/
def hiddenHost : Host := [(Package.core, ⟨some (⟨none, []⟩, .hidden .failure), none⟩)]

/-- A path with a name that is too long. -/
def overlongPath : Path := .ofNames ["site", List.replicate 256 'a']

/-- Without a catalog the manifest is found, and with an empty list it is not looked for. A core of
the theme that raises while it is looked for something to ask lets that through, and the check fails
for a published path with a name that is too long. -/
theorem check_iff_hasManifest_fails :
    releaseFiles.WellFormed ∧
    (runFrom (check.run (releaseSite .absent) releaseFiles []) []).1 = .ok [] ∧
    (runFrom (check.run (releaseSite (.published emptyHost)) releaseFiles []) []).1 =
      .ok [missing] ∧
    (runFrom (Catalog.published hiddenHost).manifests []).1 = .error (.raised .failure) ∧
    (runFrom (check.run (releaseSite (.listed [overlongPath])) releaseFiles []) []).1 =
      .error (.file ⟨.nameTooLong, overlongPath⟩) := by
  have hf : releaseFiles.WellFormed := by
    refine FileTree.wellFormed_ofFiles ?_
    simp [FileTree.names_ofText]
  refine ⟨hf, ?_, ?_, ?_, ?_⟩
  · obtain ⟨-, hfails, hfindings⟩ := check_iff_hasManifest hf (releaseSite .absent) [] []
    have hname : MatchesPattern "1.0.0_to_1.1.0.yml" := (isName_iff (by decide)).1 (by decide)
    have hmanifest : (releaseSite .absent).HasManifest releaseFiles :=
      .inDirectory (fun _ h => by cases h) ⟨[], by decide⟩ hname
    cases hrun : (runFrom (check.run (releaseSite .absent) releaseFiles []) []).1 with
    | error e =>
      rcases (hfails e).1 hrun with h | h
      · cases h
      · cases h
    | ok findings => rw [(hfindings findings hrun).1.2 hmanifest]
  · obtain ⟨-, hfails, hfindings⟩ :=
      check_iff_hasManifest hf (releaseSite (.published emptyHost)) [] []
    have hlists : ∀ {paths}, (Catalog.published emptyHost).Lists paths → paths = [] := by
      rintro paths (_ | ⟨⟨⟩, ⟨⟩, ⟨⟩⟩)
      rfl
    have hnot : ¬ (releaseSite (.published emptyHost)).HasManifest releaseFiles := by
      intro h
      cases h with
      | listed h hmem =>
        rw [hlists h] at hmem
        cases hmem
      | inDirectory hnone => exact hnone [] (.published rfl .loaded .nothing)
    cases hrun :
      (runFrom (check.run (releaseSite (.published emptyHost)) releaseFiles []) []).1 with
    | error e =>
      rcases (hfails e).1 hrun with hexit | ⟨hlisted, -⟩
      · rcases hexit with _ | ⟨⟨⟩, hescapes⟩
        rcases hescapes with ⟨⟨⟩, ⟨⟩⟩
        rename_i hraises
        cases hraises
      · exact absurd (hlists hlisted) (by simp)
    | ok findings =>
      obtain ⟨hiff, hmissing⟩ := hfindings findings hrun
      rw [hmissing (mt hiff.1 hnot)]
  · obtain ⟨hhost, -⟩ := check_iff_hasManifest hf (releaseSite .absent) [] []
    exact ((hhost hiddenHost).1 _).2 ⟨_, rfl, .published rfl (.provider .loaded .hidden)⟩
  · obtain ⟨-, hfails, -⟩ := check_iff_hasManifest hf (releaseSite (.listed [overlongPath])) [] []
    have hlong : releaseFiles.IsOverlong (.ofText "/") overlongPath :=
      ⟨by decide, .inr (by decide +kernel)⟩
    exact (hfails _).2 (@Fails.overlong _ _ [] _ [] .listed (by simp) hlong)

end Manifests

end SiteAudit
