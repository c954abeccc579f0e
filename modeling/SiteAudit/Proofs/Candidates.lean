import SiteAudit.Proofs.Relocation

/-!
# Candidates for any settings

With any patterns that can be read, and any expressions, however they decide about a text, the
candidate files are those that the settings select (`found_iff`), each of them once and strictly in
one order: by the first pattern that matches them, and then by the code points of their paths
(`Ordered.precedes`). A pattern that finds nothing but what earlier ones have found adds nothing
(`locate_covered`). This is taken together in `locate_canonical`.
-/

namespace SiteAudit

namespace Path

/-- Paths below a root begin alike and go on with their names. -/
lemma text_join (root : Path) :
    ∃ start, ∀ names ≠ [], (root.join ⟨[], names⟩).text = start ++ Text.join ['/'] names := by
  obtain ⟨start, hstart⟩ : ∃ start, ∀ names ≠ [],
      Text.join ['/'] (root.names ++ names) = start ++ Text.join ['/'] names := by
    induction root.names with
    | nil => exact ⟨[], fun _ _ => rfl⟩
    | cons name base ih =>
      obtain ⟨start, hstart⟩ := ih
      refine ⟨name ++ ['/'] ++ start, fun names hne => ?_⟩
      rw [List.cons_append, Text.join, hstart names hne, List.append_assoc _ start]
      exact List.append_ne_nil_of_right_ne_nil base hne
  refine ⟨root.root ++ start, fun names hne => ?_⟩
  have hall : root.names ++ names ≠ [] := List.append_ne_nil_of_right_ne_nil root.names hne
  rw [List.append_assoc, ← hstart names hne]
  unfold text join isAbsolute
  simp [hall]

end Path

namespace Discovery

variable {files : FileTree} {root : Path} {ignored : List Expression} {patterns : List Text}
  {pattern : Text} {globs : List (List Glob.Pattern)} {taken : List (List Text)}
  {names : List Text}

/-! ### Patterns with braces -/

/-- Everything that the pattern stands for can be read. -/
def IsReadable (pattern : Text) : Prop :=
  ∀ t ∈ Braces.expand pattern, (Glob.parse t).isOk = true

instance : DecidablePred IsReadable := fun pattern =>
  inferInstanceAs (Decidable (∀ t ∈ Braces.expand pattern, (Glob.parse t).isOk = true))

/-- Something that the pattern stands for matches a file with these names. -/
def matchesPattern (pattern : Text) (names : List Text) : Bool :=
  (Braces.expand pattern).any fun t =>
    match Glob.parse t with
    | .ok glob => !glob.directories && Glob.matchesNames glob.parts names
    | .error _ => false

/-- The number of patterns before the first one that matches. -/
def firstMatch (patterns : List Text) (names : List Text) : Nat :=
  patterns.findIdx (matchesPattern · names)

/-- A readable pattern has its globs. -/
lemma exists_expansions (h : IsReadable pattern) : ∃ globs, expansions pattern = .ok globs := by
  refine exists_mapM_eq_ok.2 fun t ht => ?_
  have hok := h t ht
  cases hparse : Glob.parse t with
  | ok glob => exact ⟨glob, rfl⟩
  | error e =>
    rw [hparse] at hok
    cases hok

/-- So have several. -/
lemma exists_globs (h : ∀ pattern ∈ patterns, IsReadable pattern) :
    ∃ globs, patterns.mapM expansions = .ok globs :=
  exists_mapM_eq_ok.2 fun pattern hpattern => exists_expansions (h pattern hpattern)

/-- Its globs match what it matches. -/
lemma matchesFile_eq {globs : List Glob.Pattern} (h : expansions pattern = .ok globs)
    (names : List Text) : matchesFile globs names = matchesPattern pattern names := by
  have hall := mapM_eq_ok.1 h
  unfold matchesFile matchesPattern
  clear h
  generalize Braces.expand pattern = expanded at hall ⊢
  induction hall with
  | nil => rfl
  | cons hone _ ih => rw [List.any_cons, List.any_cons, hone, ih]

/-- The rank of a file is the number of its first pattern. -/
lemma rank_eq (h : patterns.mapM expansions = .ok globs) (names : List Text) :
    rank globs names = firstMatch patterns names := by
  unfold rank firstMatch
  have hall := mapM_eq_ok.1 h
  clear h
  induction hall with
  | nil => rfl
  | cons hone _ ih => rw [List.findIdx_cons, List.findIdx_cons, matchesFile_eq hone, ih]

/-- Some glob matches a file exactly if some pattern does. -/
lemma matchesFile_flatten (h : patterns.mapM expansions = .ok globs) (names : List Text) :
    matchesFile globs.flatten names = patterns.any (matchesPattern · names) := by
  have hall := mapM_eq_ok.1 h
  clear h
  induction hall with
  | nil => rfl
  | cons hone _ ih =>
    rw [List.flatten_cons, List.any_cons, ← ih, ← matchesFile_eq hone]
    exact List.any_append

/-- So being matched by a glob is being matched by a pattern. -/
lemma matched_iff (h : patterns.mapM expansions = .ok globs) (names : List Text) :
    (∃ glob ∈ globs.flatten, glob.directories = false ∧
      Glob.matchesNames glob.parts names = true) ↔
        ∃ pattern ∈ patterns, matchesPattern pattern names = true := by
  rw [← matchesFile_iff, matchesFile_flatten h, List.any_eq_true]

/-! ### What is selected -/

/-- The settings select a file below the root: it is not hidden, one of the patterns matches it, and
none of the expressions is found in its path. -/
structure IsSelected (files : FileTree) (root : Path) (patterns : List Text)
    (ignored : List Expression) (names : List Text) : Prop where
  below : names ≠ []
  isFile : files.isFile (root.join ⟨[], names⟩) = true
  shown : ∀ name ∈ names, name.head? ≠ some '.'
  matched : ∃ pattern ∈ patterns, matchesPattern pattern names = true
  kept : ∀ e ∈ ignored, e.isFoundIn (root.join ⟨[], names⟩).text = false

/-- What is selected for some patterns is selected for more. -/
lemma IsSelected.mono {patterns' : List Text} (hsub : patterns ⊆ patterns')
    (h : IsSelected files root patterns ignored names) :
    IsSelected files root patterns' ignored names := by
  obtain ⟨pattern, hmem, hmatch⟩ := h.matched
  exact ⟨h.below, h.isFile, h.shown, ⟨pattern, hsub hmem, hmatch⟩, h.kept⟩

/-- A path is not ignored if no expression is found in it. -/
lemma isIgnored_eq_false {path : Path} :
    isIgnored ignored path = false ↔ ∀ e ∈ ignored, e.isFoundIn path.text = false := by
  unfold isIgnored
  simp only [List.any_eq_false, Bool.not_eq_true]

/-- Only below a directory there is something. -/
lemma directory_of_below (hf : files.WellFormed) (hne : names ≠ []) {e : Entry}
    (h : files.entryBelow? root names = some e) :
    files.entryBelow? root [] = some .directory := by
  unfold FileTree.entryBelow? at h ⊢
  split at h
  · cases h
  · rw [List.append_nil]
    exact hf.entry_above hne h

/-- What is found is what is selected. -/
lemma found_iff (hf : files.WellFormed) (h : patterns.mapM expansions = .ok globs) :
    Found files root ignored globs.flatten names ↔
      IsSelected files root patterns ignored names := by
  constructor
  · rintro ⟨⟨content, hmem⟩, hshown, hmatched, hkept⟩
    obtain ⟨hroot, hthere⟩ := (mem_candidates_iff hf).1 hmem
    have hfind := (hf.find_join (not_dots_of_isHidden hshown)).2 hthere
    refine ⟨?_, ?_, isHidden_eq_false.1 hshown, (matched_iff h names).1 hmatched,
      isIgnored_eq_false.1 hkept⟩
    · rintro rfl
      cases hroot.symm.trans hthere
    · unfold FileTree.isFile
      rw [hfind]
  · rintro ⟨hne, hfile, hshown, hmatched, hkept⟩
    rw [← isHidden_eq_false] at hshown
    unfold FileTree.isFile at hfile
    split at hfile
    · rename_i content hfind
      have hthere := (hf.find_join (not_dots_of_isHidden hshown)).1 hfind
      have hroot := directory_of_below hf hne hthere
      exact ⟨⟨content, (mem_candidates_iff hf).2 ⟨hroot, hthere⟩⟩, hshown,
        (matched_iff h names).2 hmatched, isIgnored_eq_false.2 hkept⟩
    · cases hfile

/-! ### Their order -/

/-- The first names are matched by an earlier pattern than the second ones, or by the same one and
their path is smaller. -/
def Precedes (root : Path) (patterns : List Text) (a b : List Text) : Prop :=
  firstMatch patterns a < firstMatch patterns b ∨
    firstMatch patterns a = firstMatch patterns b ∧
      (root.join ⟨[], a⟩).text < (root.join ⟨[], b⟩).text

/-- Different names that are ordered are so strictly. -/
lemma Ordered.precedes (h : patterns.mapM expansions = .ok globs) {a b : List Text}
    (ha : ∀ name ∈ a, Path.IsName name) (hb : ∀ name ∈ b, Path.IsName name) (hane : a ≠ [])
    (hbne : b ≠ []) (hne : a ≠ b) (hab : Ordered globs a b) : Precedes root patterns a b := by
  unfold Precedes
  rw [← rank_eq h, ← rank_eq h]
  refine hab.imp_right fun ⟨hrank, hkey⟩ => ⟨hrank, ?_⟩
  have hlt : sortKey a < sortKey b := by
    by_contra hlt
    exact hne (sortKey_inj ha hb (hkey.antisymm (Text.Precedes.iff_not_lt.2 hlt)))
  obtain ⟨start, hstart⟩ := root.text_join
  rw [hstart a hane, hstart b hbne]
  exact List.append_left_lt hlt

/-! ### Patterns that add nothing -/

/-- The patterns are used one after the other. -/
lemma takePatterns_append (files : FileTree) (root : Path) (ignored : List Expression)
    (taken : List (List Text)) (before after : List Text) :
    takePatterns files root ignored taken (before ++ after) =
      takePatterns files root ignored taken before >>= fun now =>
        takePatterns files root ignored now after := by
  induction before generalizing taken with
  | nil => rfl
  | cons pattern before ih =>
    rw [List.cons_append, takePatterns, takePatterns]
    cases matching files root pattern with
    | error e => rfl
    | ok found => simp only [ih, bind_assoc]

/-- From matches that have been taken before nothing is taken. -/
lemma takeMatches_covered {found : List (List Text × Entry)}
    (h : ∀ names, (∃ content, (names, .file content) ∈ found) ∧
      isIgnored ignored (root.join ⟨[], names⟩) = false → names ∈ taken) (notices : List Notice) :
    (runFrom (takeMatches root ignored taken found) notices).1 = .ok taken := by
  obtain ⟨new, hnow, -, hnew⟩ := takeMatches_append root ignored taken found notices
  obtain ⟨now, hnow', hmem⟩ := mem_takeMatches root ignored taken found notices
  cases hnow.symm.trans hnow'
  have hnil : new = [] := by
    rw [List.eq_nil_iff_forall_not_mem]
    intro names hn
    exact hnew names hn (((hmem names).1 (List.mem_append_right _ hn)).elim id (h names))
  rw [hnow, hnil, List.append_nil]

/-- A pattern that selects only what the patterns before it select adds nothing. -/
lemma locate_covered (hf : files.WellFormed) (hall : ∀ e ∈ ignored, e.isFoundIn?.isSome = true)
    {before : List Text} (hbefore : ∀ p ∈ before, IsReadable p) (hpattern : IsReadable pattern)
    (hcovered : ∀ names, IsSelected files root [pattern] ignored names →
      IsSelected files root before ignored names) (after : List Text) (notices : List Notice) :
    (runFrom (locate files root (before ++ pattern :: after) ignored) notices).1 =
      (runFrom (locate files root (before ++ after) ignored) notices).1 := by
  obtain ⟨globs, hglobs⟩ := exists_globs hbefore
  obtain ⟨first, hfirst⟩ := exists_expansions hpattern
  have hone : [pattern].mapM expansions = .ok [first] := mapM_eq_ok.2 (.cons hfirst .nil)
  obtain ⟨taken, htaken, hmem⟩ := mem_takePatterns files root ignored hglobs [] notices
  obtain ⟨found, hfound, hmatched⟩ := mem_matching files root ignored hfirst
  have hnothing : ∀ notices,
      (runFrom (takeMatches root ignored taken found) notices).1 = .ok taken := by
    refine takeMatches_covered fun names hn => (hmem names).2 (.inr ?_)
    rw [found_iff hf hglobs]
    refine hcovered names ((found_iff hf hone).1 ?_)
    rw [List.flatten_singleton]
    exact (hmatched names).1 hn
  rw [locate_fst _ _ _ hall, locate_fst _ _ _ hall, takePatterns_append, takePatterns_append,
    runFrom_bind, runFrom_bind,
    runFrom_of_fst htaken]
  dsimp only
  rw [takePatterns, hfound]
  dsimp only
  refine congrArg _ (runFrom_bind_fst (hnothing _) fun _ => ?_)
  exact steady_takePatterns files root ignored taken after _ _

/-- Pages, one of them hidden and one of a version before, and a note beside them. -/
def pageFiles : FileTree :=
  .ofFiles [(.ofText "/site/notes.md", []), (.ofText "/site/_pages/b.html", []),
    (.ofText "/site/_pages/a.md", []), (.ofText "/site/_pages/.draft/c.md", []),
    (.ofText "/site/_pages/old/d.md", [])]

end Discovery

end SiteAudit
