import SiteAudit.Proofs.Discovery
import SiteAudit.Proofs.Matching
import SiteAudit.Proofs.Text
import SiteAudit.Proofs.WellFormed

/-!
# The sources of a site

With patterns that can be read the candidate files are the files below the root that are not hidden,
match one of the patterns and are not ruled out (`locate_of_expansions`). With the default settings
these are the sources of a site: its configuration and the files with the right endings in the
directories of templates, pages, posts and assets, except for minified scripts and whatever lies in
a directory of the distribution (`locate_default`).
-/

namespace SiteAudit

namespace Text

variable {w : Text} {names : List Text}

/-- A text that begins with a character that another one lacks does not begin in that one. -/
lemma infix_append_iff {c : Char} {t name : Text} (hc : c ∉ name) :
    c :: w <:+: name ++ t ↔ c :: w <:+: t := by
  induction name with
  | nil => rfl
  | cons d name ih =>
    obtain ⟨hd, hname⟩ := not_or.1 (mt List.mem_cons.2 hc)
    rw [List.cons_append, List.infix_cons_iff, ih hname]
    refine or_iff_right fun h => ?_
    exact hd (List.cons_prefix_cons.1 h).1

/-- A name between slashes is found on a path where it is the name of a directory. -/
lemma infix_join_iff (hw : '/' ∉ w) (hnames : ∀ name ∈ names, '/' ∉ name) :
    '/' :: (w ++ ['/']) <:+: '/' :: join ['/'] names ↔ w ∈ names.dropLast := by
  induction names with
  | nil => simp [join, List.infix_cons_iff]
  | cons name names ih =>
    obtain ⟨hname, hrest⟩ := List.forall_mem_cons.1 hnames
    rw [List.infix_cons_iff, List.cons_prefix_cons]
    cases names with
    | nil =>
      -- there is no second slash
      have hnot : ¬ w ++ ['/'] <+: name :=
        fun h => hname (h.subset (List.mem_append_right w (List.mem_singleton_self '/')))
      have hnil := infix_append_iff (w := w ++ ['/']) (t := []) hname
      rw [List.append_nil] at hnil
      simp [join, hnot, hnil]
    | cons next names =>
      have hjoin :
          join ['/'] (name :: next :: names) = name ++ '/' :: join ['/'] (next :: names) := by
        simp [join]
      have hprefix : w ++ ['/'] <+: name ++ '/' :: join ['/'] (next :: names) ↔ w = name := by
        constructor
        · rintro ⟨rest, e⟩
          rw [List.append_assoc] at e
          exact ((append_cons_inj hw hname).1 e).1
        · rintro rfl
          exact ⟨join ['/'] (next :: names), by simp⟩
      rw [hjoin, hprefix, infix_append_iff hname, ih hrest, List.dropLast_cons_cons, List.mem_cons]
      simp

/-- The last name on a path follows a slash. -/
lemma join_concat (names : List Text) (name : Text) :
    ∃ s, '/' :: join ['/'] (names ++ [name]) = s ++ '/' :: name := by
  induction names with
  | nil => exact ⟨[], rfl⟩
  | cons first names ih =>
    obtain ⟨s, hs⟩ := ih
    have hne : names ++ [name] ≠ [] := List.append_ne_nil_of_right_ne_nil _ (List.cons_ne_nil _ _)
    obtain ⟨next, rest, hrest⟩ := List.exists_cons_of_ne_nil hne
    refine ⟨'/' :: first ++ s, ?_⟩
    rw [List.cons_append, List.append_assoc, ← hs, hrest]
    simp [join]

/-- A path ends with a text without slashes where its last name does. -/
lemma suffix_join_iff {name : Text} (hw : '/' ∉ w) :
    w <:+ '/' :: join ['/'] (names ++ [name]) ↔ w <:+ name := by
  obtain ⟨s, hs⟩ := join_concat names name
  rw [hs]
  constructor
  · intro h
    rcases List.suffix_or_suffix_of_suffix h (List.suffix_append s ('/' :: name)) with h | h
    · rcases List.suffix_cons_iff.1 h with rfl | h
      · exact absurd (List.mem_cons_self ..) hw
      · exact h
    · exact absurd (h.subset (List.mem_cons_self ..)) hw
  · intro h
    exact (h.trans (List.suffix_cons '/' name)).trans (List.suffix_append s _)

end Text

namespace Discovery

variable {files : FileTree} {root : Path} {ignored : List Expression} {patterns : List Text}

/-! ### What is located -/

/-- What is taken from matches is what has been taken before and the files among them that are not
ruled out. -/
lemma mem_takeMatches (root : Path) (ignored : List Expression) (taken : List (List Text))
    (found : List (List Text × Entry)) (notices : List Notice) :
    ∃ result, (runFrom (takeMatches root ignored taken found) notices).1 = .ok result ∧
      ∀ names, names ∈ result ↔ names ∈ taken ∨
        (∃ content, (names, .file content) ∈ found) ∧
          isIgnored ignored (root.join ⟨[], names⟩) = false := by
  induction found generalizing taken notices with
  | nil => exact ⟨taken, rfl, fun names => by simp⟩
  | cons entry found ih =>
    obtain ⟨there, e⟩ := entry
    have hcons : ∀ names, (∃ content, (names, Entry.file content) ∈ (there, e) :: found) ↔
        (names = there ∧ ∃ content, e = .file content) ∨
          ∃ content, (names, Entry.file content) ∈ found := by
      intro names
      simp only [List.mem_cons, Prod.mk.injEq]
      grind
    rw [takeMatches]
    split
    · -- a directory, or nothing new
      rename_i hold
      obtain ⟨result, hrun, hmem⟩ := ih taken _
      refine ⟨result, hrun, fun names => ?_⟩
      have hpassed : names = there ∧ (∃ content, e = .file content) → names ∈ taken := by
        rintro ⟨rfl, content, rfl⟩
        simpa using hold
      rw [hmem, hcons]
      tauto
    · rename_i hnew
      have hfile : ∃ content, e = .file content := by
        cases e with
        | file content => exact ⟨content, rfl⟩
        | directory => simp at hnew
      split
      · -- ruled out
        rename_i hignored
        obtain ⟨result, hrun, hmem⟩ := ih taken _
        refine ⟨result, (by rw [runFrom_bind]; exact hrun), fun names => ?_⟩
        have hnot : isIgnored ignored (root.join ⟨[], names⟩) = false → names ≠ there := by
          rintro hshown rfl
          cases hignored.symm.trans hshown
        rw [hmem, hcons]
        tauto
      · rename_i hshown
        obtain ⟨result, hrun, hmem⟩ := ih (taken ++ [there]) notices
        refine ⟨result, hrun, fun names => ?_⟩
        have hhere : names = there → isIgnored ignored (root.join ⟨[], names⟩) = false := by
          rintro rfl
          exact Bool.not_eq_true _ ▸ hshown
        rw [hmem, hcons, List.mem_append, List.mem_singleton]
        tauto

/-- What is found below a root for patterns: files that are neither hidden nor ruled out. -/
structure Found (files : FileTree) (root : Path) (ignored : List Expression)
    (globs : List Glob.Pattern) (names : List Text) : Prop where
  file : ∃ content, (names, .file content) ∈ candidates files root
  shown : isHidden names = false
  matched : ∃ glob ∈ globs, glob.directories = false ∧ Glob.matchesNames glob.parts names = true
  kept : isIgnored ignored (root.join ⟨[], names⟩) = false

/-- What is found for several patterns is found for one of them. -/
lemma found_append {globs more : List Glob.Pattern} {names : List Text} :
    Found files root ignored (globs ++ more) names ↔
      Found files root ignored globs names ∨ Found files root ignored more names := by
  constructor
  · rintro ⟨hfile, hshown, ⟨glob, hmem, hglob⟩, hkept⟩
    rcases List.mem_append.1 hmem with hmem | hmem
    · exact .inl ⟨hfile, hshown, ⟨glob, hmem, hglob⟩, hkept⟩
    · exact .inr ⟨hfile, hshown, ⟨glob, hmem, hglob⟩, hkept⟩
  · rintro
      (⟨hfile, hshown, ⟨glob, hmem, hglob⟩, hkept⟩ | ⟨hfile, hshown, ⟨glob, hmem, hglob⟩, hkept⟩)
    · exact ⟨hfile, hshown, ⟨glob, List.mem_append_left _ hmem, hglob⟩, hkept⟩
    · exact ⟨hfile, hshown, ⟨glob, List.mem_append_right _ hmem, hglob⟩, hkept⟩

/-- A file is found if a pattern that is not for directories matches its names. -/
lemma matchesEntry_file {glob : Glob.Pattern} {names : List Text} {content : Bytes} :
    matchesEntry glob (names, .file content) = true ↔
      glob.directories = false ∧ Glob.matchesNames glob.parts names = true := by
  have hfile : (Entry.file content == Entry.directory) = false := by
    rw [beq_eq_false_iff_ne]
    exact fun h => by cases h
  unfold matchesEntry
  rw [Bool.and_eq_true, hfile, Bool.or_false, Bool.not_eq_true']
  exact and_comm

/-- A pattern with braces finds what it stands for. -/
lemma mem_matching (files : FileTree) (root : Path) (ignored : List Expression) {pattern : Text}
    {globs : List Glob.Pattern} (h : expansions pattern = .ok globs) :
    ∃ found, matching files root pattern = .ok found ∧ ∀ names,
      (∃ content, (names, .file content) ∈ found) ∧
          isIgnored ignored (root.join ⟨[], names⟩) = false ↔
        Found files root ignored globs names := by
  unfold matching
  rw [h]
  refine ⟨_, rfl, fun names => ?_⟩
  simp only [mem_sortBy, List.mem_filter, Bool.and_eq_true, Bool.not_eq_true', List.any_eq_true,
    matchesEntry_file]
  constructor
  · rintro ⟨⟨content, hmem, hshown, hglob⟩, hkept⟩
    exact ⟨⟨content, hmem⟩, hshown, hglob, hkept⟩
  · rintro ⟨⟨content, hmem⟩, hshown, hglob, hkept⟩
    exact ⟨⟨content, hmem, hshown, hglob⟩, hkept⟩

/-- What is taken for patterns is what is found for one of them, or was taken before. -/
lemma mem_takePatterns (files : FileTree) (root : Path) (ignored : List Expression)
    {globs : List (List Glob.Pattern)} (h : patterns.mapM expansions = .ok globs)
    (taken : List (List Text)) (notices : List Notice) :
    ∃ result, (runFrom (takePatterns files root ignored taken patterns) notices).1 = .ok result ∧
      ∀ names, names ∈ result ↔ names ∈ taken ∨ Found files root ignored globs.flatten names := by
  induction patterns generalizing taken notices globs with
  | nil =>
    cases h
    refine ⟨taken, rfl, fun names => (or_iff_left ?_).symm⟩
    rintro ⟨-, -, ⟨glob, hmem, -⟩, -⟩
    exact absurd hmem List.not_mem_nil
  | cons pattern patterns ih =>
    obtain ⟨first, rest, hfirst, hrest, rfl⟩ := List.forall₂_cons_left_iff.1 (mapM_eq_ok.1 h)
    obtain ⟨found, hmatching, hfound⟩ := mem_matching files root ignored hfirst
    obtain ⟨now, hnow, hmemNow⟩ := mem_takeMatches root ignored taken found notices
    obtain ⟨result, hresult, hmem⟩ := ih (mapM_eq_ok.2 hrest) now
      (runFrom (takeMatches root ignored taken found) notices).2
    refine ⟨result, ?_, fun names => ?_⟩
    · rw [takePatterns, hmatching]
      dsimp only
      rw [runFrom_bind, runFrom_of_fst hnow]
      exact hresult
    · rw [hmem, hmemNow, hfound, List.flatten_cons, found_append, or_assoc]

/-- The candidates are what is taken for the patterns one after the other. -/
lemma locate_fst (files : FileTree) (root : Path) (patterns : List Text)
    (hall : ∀ e ∈ ignored, e.isFoundIn?.isSome = true) (notices : List Notice) :
    (runFrom (locate files root patterns ignored) notices).1 =
      (runFrom (takePatterns files root ignored [] patterns) notices).1.map
        (·.map fun names => root.join ⟨[], names⟩) := by
  rw [locate_eq_collect hall]
  unfold collect
  rw [runFrom_bind]
  rcases runFrom (takePatterns files root ignored [] patterns) notices with ⟨e | taken, after⟩
  · rfl
  · rfl

/-- With patterns that can be read the candidates are what is found for them. -/
lemma locate_of_expansions (files : FileTree) (root : Path)
    (hall : ∀ e ∈ ignored, e.isFoundIn?.isSome = true) {globs : List (List Glob.Pattern)}
    (h : patterns.mapM expansions = .ok globs) (notices : List Notice) :
    ∃ taken : List (List Text),
      (runFrom (locate files root patterns ignored) notices).1 =
        .ok (taken.map fun names => root.join ⟨[], names⟩) ∧
      ∀ names, names ∈ taken ↔ Found files root ignored globs.flatten names := by
  obtain ⟨taken, htaken, hmem⟩ := mem_takePatterns files root ignored h [] notices
  refine ⟨taken, (by rw [locate_fst _ _ _ hall, htaken]; rfl), fun names => ?_⟩
  rw [hmem]
  exact or_iff_right List.not_mem_nil

/-! ### What lies below a root -/

/-- A file is not hidden if no name on its path begins with a dot. -/
lemma isHidden_eq_false {names : List Text} :
    isHidden names = false ↔ ∀ name ∈ names, name.head? ≠ some '.' := by
  unfold isHidden
  rw [List.any_eq_false]
  exact forall₂_congr fun name _ => by rw [beq_iff_eq]

/-- The files below a root are those at more names. -/
lemma mem_candidates (hf : files.WellFormed) {base names : List Text} {content : Bytes}
    (hup : Path.up ∉ base) :
    (names, .file content) ∈ candidates files (.ofNames base) ↔
      names ≠ [] ∧ files.entry? (base ++ names) = some (.file content) := by
  unfold candidates
  by_cases hroot : files.entry? base = some .directory
  · have hplace : files.place (.ofNames base) = .ok base := hf.walk hup hroot
    rw [hplace]
    dsimp only
    rw [if_pos hroot, List.mem_cons, ← hf.mem_below]
    exact or_iff_right fun h => by cases h
  · refine iff_of_false (fun hmem => ?_) fun h => hroot (hf.entry_above h.1 h.2)
    split at hmem
    · cases hmem
    · rename_i place hplace
      obtain rfl : place = base := FileTree.walk_eq_ok hup hplace
      rw [if_neg hroot] at hmem
      cases hmem

/-! ### The default settings -/

/-- The names lead into the directories, at any depth, to a name with one of the endings. -/
def LiesIn (directories endings names : List Text) : Prop :=
  ∃ inner name, names = directories ++ inner ++ [name] ∧ ∃ ending ∈ endings, ending <:+ name

/-- The names of a source of a site. -/
def IsSource (names : List Text) : Prop :=
  names = ["_config.yml"] ∨
  LiesIn ["_includes"] [".liquid", ".html"] names ∨
  LiesIn ["_layouts"] [".liquid", ".html"] names ∨
  LiesIn ["_pages"] [".md", ".markdown", ".liquid", ".html"] names ∨
  LiesIn ["_posts"] [".md", ".markdown", ".liquid", ".html"] names ∨
  (LiesIn ["assets", "js"] [".js"] names ∧ ¬ LiesIn ["assets", "js"] [".min.js"] names) ∨
  LiesIn ["assets", "css"] [".css"] names ∨
  LiesIn ["assets", "tailwind"] [".css"] names

/-- The pattern for names in directories, at any depth, that end so. -/
def globOf (directories : List Text) (ending : Text) : Glob.Pattern :=
  ⟨Glob.within directories [.anyDepth, .name (.many :: Glob.literal ending)], false⟩

/-- A pattern for directories of sources matches what lies in them with its ending. -/
lemma matchesNames_globOf {directories names : List Text} {ending : Text} :
    Glob.matchesNames (globOf directories ending).parts names = true ↔
      LiesIn directories [ending] names := by
  unfold globOf LiesIn
  rw [Glob.matchesNames_within]
  simp only [Glob.matchesNames_anyDepth, Glob.matchesName_star, List.mem_singleton, exists_eq_left]
  constructor
  · rintro ⟨_, rfl, inner, name, rfl, h⟩
    exact ⟨inner, name, (List.append_assoc ..).symm, h⟩
  · rintro ⟨inner, name, rfl, h⟩
    exact ⟨inner ++ [name], List.append_assoc .., inner, name, rfl, h⟩

/-- The pattern for the configuration matches its name only. -/
lemma matchesNames_config {names : List Text} :
    Glob.matchesNames (Glob.within [] [.name (Glob.literal "_config.yml")]) names = true ↔
      names = ["_config.yml"] := by
  rw [Glob.matchesNames_within]
  rcases names with _ | ⟨name, _ | ⟨next, names⟩⟩
  · simp [Glob.matchesNames]
  · simp [Glob.matchesNames, Glob.matchesName_literal]
  · simp [Glob.matchesNames]

/-- The default patterns without braces. -/
def defaultGlobs : List (List Glob.Pattern) :=
  [[⟨Glob.within [] [.name (Glob.literal "_config.yml")], false⟩],
    [globOf ["_includes"] ".liquid", globOf ["_includes"] ".html"],
    [globOf ["_layouts"] ".liquid", globOf ["_layouts"] ".html"],
    [globOf ["_pages"] ".md", globOf ["_pages"] ".markdown", globOf ["_pages"] ".liquid",
      globOf ["_pages"] ".html"],
    [globOf ["_posts"] ".md", globOf ["_posts"] ".markdown", globOf ["_posts"] ".liquid",
      globOf ["_posts"] ".html"],
    [globOf ["assets", "js"] ".js"],
    [globOf ["assets", "css"] ".css"],
    [globOf ["assets", "tailwind"] ".css"]]

/-- The usual patterns stand for these globs. -/
lemma expansions_default : Settings.defaultPatterns.mapM expansions = .ok defaultGlobs := by
  decide +kernel

/-- The expressions that rule out paths by default. -/
lemma expressions_default : Settings.ignoredTexts.map Regex.ofText? =
    [some (.literal "/distillpub/" []),
      some (.literal "/search/ninja-footer.min.js" [.stop]),
      some (.literal "/bootstrap.bundle.min.js" [.stop]),
      some (.literal "/bootstrap-toc.min.js" [.stop]),
      some (.literal ".min.js" [.stop]),
      some (.literal ".map" [.stop])] := by
  decide +kernel

/-- All of them are expressions. -/
lemma isSome_default : ∀ e ∈ Settings.defaultIgnored, e.isFoundIn?.isSome = true := by
  have hsome : ∀ r ∈ Settings.ignoredTexts.map Regex.ofText?, r.isSome = true := by
    rw [expressions_default]
    simp
  refine List.forall_mem_map.2 fun t ht => ?_
  rw [Expression.ofText, Option.isSome_map]
  exact hsome _ (List.mem_map_of_mem ht)

/-- The text ends so, where a last line feed does not count. -/
def EndsIn (ending t : Text) : Prop := ending <:+ t ∨ ending ++ ['\n'] <:+ t

/-- What ends in a text ends in each ending of that text. -/
lemma EndsIn.mono {ending longer t : Text} (hsub : ending <:+ longer) (h : EndsIn longer t) :
    EndsIn ending t := by
  obtain ⟨s, rfl⟩ := hsub
  rcases h with h | h
  · exact .inl ((List.suffix_append s ending).trans h)
  · rw [List.append_assoc] at h
    exact .inr ((List.suffix_append s _).trans h)

/-- By default paths are ruled out that lead through a directory of the distribution, or to a
minified script or a source map. -/
lemma isIgnored_default (path : Path) :
    isIgnored Settings.defaultIgnored path = true ↔ "/distillpub/".toList <:+: path.text ∨
      EndsIn ".min.js" path.text ∨ EndsIn ".map" path.text := by
  have hany : isIgnored Settings.defaultIgnored path =
      (Settings.ignoredTexts.map Regex.ofText?).any (·.any (·.search path.text)) := by
    unfold isIgnored Settings.defaultIgnored
    rw [List.any_map, List.any_map]
    refine List.any_congr rfl fun t => ?_
    exact Option.any_map
  rw [hany, expressions_default]
  simp only [List.any_cons, List.any_nil, Option.any_some, Bool.or_false, Bool.or_eq_true,
    Regex.search_literal, Regex.search_literal_stop]
  -- three of the expressions are for minified scripts of given names
  have hfooter : ".min.js".toList <:+ "/search/ninja-footer.min.js".toList := by decide
  have hbundle : ".min.js".toList <:+ "/bootstrap.bundle.min.js".toList := by decide
  have htoc : ".min.js".toList <:+ "/bootstrap-toc.min.js".toList := by decide
  constructor
  · rintro (h | h | h | h | h | h)
    · exact .inl h
    · exact .inr (.inl (EndsIn.mono hfooter h))
    · exact .inr (.inl (EndsIn.mono hbundle h))
    · exact .inr (.inl (EndsIn.mono htoc h))
    · exact .inr (.inl h)
    · exact .inr (.inr h)
  · rintro (h | h | h)
    · exact .inl h
    · exact .inr (.inr (.inr (.inr (.inl h))))
    · exact .inr (.inr (.inr (.inr (.inr h))))

/-- For a path with names that are names, it is the names that count. -/
lemma isIgnored_ofNames {names : List Text} {name : Text}
    (hnames : ∀ n ∈ names ++ [name], '/' ∉ n) :
    isIgnored Settings.defaultIgnored (.ofNames (names ++ [name])) = true ↔
      "distillpub".toList ∈ names ∨ EndsIn ".min.js" name ∨ EndsIn ".map" name := by
  have htext :
      Path.text (.ofNames (names ++ [name])) = '/' :: Text.join ['/'] (names ++ [name]) := by
    simp [Path.text, Path.ofNames]
  have hinfix := Text.infix_join_iff (w := "distillpub") (by decide) hnames
  rw [List.dropLast_concat] at hinfix
  rw [isIgnored_default, htext]
  refine or_congr hinfix (or_congr ?_ ?_)
  · exact or_congr (Text.suffix_join_iff (by decide)) (Text.suffix_join_iff (by decide))
  · exact or_congr (Text.suffix_join_iff (by decide)) (Text.suffix_join_iff (by decide))

/-- A name has at most one of two endings of which neither ends in the other. -/
lemma not_suffix {v w name : Text} (hvw : ¬ v <:+ w) (hwv : ¬ w <:+ v) (h : v <:+ name) :
    ¬ w <:+ name := by
  intro hw
  rcases List.suffix_or_suffix_of_suffix h hw with h | h
  · exact hvw h
  · exact hwv h

/-- The names that the default patterns match. -/
def IsSought (names : List Text) : Prop :=
  names = ["_config.yml"] ∨
  LiesIn ["_includes"] [".liquid", ".html"] names ∨
  LiesIn ["_layouts"] [".liquid", ".html"] names ∨
  LiesIn ["_pages"] [".md", ".markdown", ".liquid", ".html"] names ∨
  LiesIn ["_posts"] [".md", ".markdown", ".liquid", ".html"] names ∨
  LiesIn ["assets", "js"] [".js"] names ∨
  LiesIn ["assets", "css"] [".css"] names ∨
  LiesIn ["assets", "tailwind"] [".css"] names

/-- A file has one of the endings if it has the first one or one of the others. -/
lemma liesIn_cons {directories endings names : List Text} {ending next : Text} :
    LiesIn directories (ending :: next :: endings) names ↔
      LiesIn directories [ending] names ∨ LiesIn directories (next :: endings) names := by
  constructor
  · rintro ⟨inner, name, e, found, hmem, h⟩
    rcases List.mem_cons.1 hmem with rfl | hmem
    · exact .inl ⟨inner, name, e, found, List.mem_singleton_self _, h⟩
    · exact .inr ⟨inner, name, e, found, hmem, h⟩
  · rintro (⟨inner, name, e, found, hmem, h⟩ | ⟨inner, name, e, found, hmem, h⟩)
    · rw [List.mem_singleton.1 hmem] at h
      exact ⟨inner, name, e, ending, List.mem_cons_self .., h⟩
    · exact ⟨inner, name, e, found, List.mem_cons_of_mem ending hmem, h⟩

/-- The usual patterns match what is sought. -/
lemma matched_default {names : List Text} :
    (∃ glob ∈ defaultGlobs.flatten, glob.directories = false ∧
      Glob.matchesNames glob.parts names = true) ↔ IsSought names := by
  have hglob : ∀ directories ending, (globOf directories ending).directories = false :=
    fun _ _ => rfl
  unfold defaultGlobs IsSought
  simp only [List.flatten_cons, List.flatten_nil, List.cons_append, List.nil_append,
    List.append_nil, List.exists_mem_cons_iff, List.not_mem_nil, false_and, exists_false, or_false,
    hglob, true_and, matchesNames_globOf, matchesNames_config, liesIn_cons, or_assoc]

/-- The name is that of a minified script or of a source map. -/
def IsMade (name : Text) : Prop := EndsIn ".min.js" name ∨ EndsIn ".map" name

/-- A name in a place where none of the endings is one of what is made. -/
lemma not_isMade {directories endings names : List Text} {name : Text}
    (hendings : ∀ ending ∈ endings,
      ∀ made ∈ ([".min.js", ".min.js\n", ".map", ".map\n"] : List Text),
      ¬ ending <:+ made ∧ ¬ made <:+ ending)
    (h : LiesIn directories endings (names ++ [name])) : ¬ IsMade name := by
  obtain ⟨inner, last, e, ending, hmem, hending⟩ := h
  obtain ⟨-, elast⟩ := List.append_inj' e rfl
  cases elast
  have hnot : ∀ made ∈ ([".min.js", ".min.js\n", ".map", ".map\n"] : List Text),
      ¬ made <:+ name := by
    intro made hmade
    obtain ⟨h, h'⟩ := hendings ending hmem made hmade
    exact not_suffix h h' hending
  rintro ((h | h) | (h | h))
  · exact hnot _ (by simp) h
  · exact hnot _ (by simp) h
  · exact hnot _ (by simp) h
  · exact hnot _ (by simp) h

/-- Of the scripts those are made that end so. -/
lemma isMade_script {directories names : List Text} {name : Text}
    (h : LiesIn directories [".js"] (names ++ [name])) :
    IsMade name ↔ LiesIn directories [".min.js"] (names ++ [name]) := by
  obtain ⟨inner, last, e, ending, hmem, hending⟩ := h
  rw [List.mem_singleton.1 hmem] at hending
  obtain ⟨-, elast⟩ := List.append_inj' e rfl
  cases elast
  have hfeed : ¬ ".min.js\n".toList <:+ name := not_suffix (by decide) (by decide) hending
  have hmap : ¬ ".map".toList <:+ name := not_suffix (by decide) (by decide) hending
  have hmapFeed : ¬ ".map\n".toList <:+ name := not_suffix (by decide) (by decide) hending
  constructor
  · rintro ((h | h) | (h | h))
    · exact ⟨inner, name, e, _, List.mem_singleton_self _, h⟩
    · exact absurd h hfeed
    · exact absurd h hmap
    · exact absurd h hmapFeed
  · rintro ⟨inner', last, e', made, hmade, h⟩
    rw [List.mem_singleton.1 hmade] at h
    obtain ⟨-, elast⟩ := List.append_inj' e' rfl
    cases elast
    exact .inl (.inl h)

/-- The sources are what is sought, without what is made. -/
lemma isSource_iff {names : List Text} {name : Text} :
    IsSource (names ++ [name]) ↔ IsSought (names ++ [name]) ∧ ¬ IsMade name := by
  have hconfig : names ++ [name] = ["_config.yml"] → ¬ IsMade name := by
    intro h
    have h : names ++ [name] = [] ++ ["_config.yml".toList] := h
    obtain ⟨-, hname⟩ := List.append_inj' h rfl
    cases hname
    unfold IsMade EndsIn
    decide
  have htemplate : ∀ directories, LiesIn directories [".liquid", ".html"] (names ++ [name]) →
      ¬ IsMade name := fun _ => not_isMade (by decide)
  have hpage : ∀ directories, LiesIn directories [".md", ".markdown", ".liquid", ".html"]
      (names ++ [name]) → ¬ IsMade name := fun _ => not_isMade (by decide)
  have hstyle : ∀ directories, LiesIn directories [".css"] (names ++ [name]) → ¬ IsMade name :=
    fun _ => not_isMade (by decide)
  have hscript : LiesIn ["assets", "js"] [".js"] (names ++ [name]) →
      (IsMade name ↔ LiesIn ["assets", "js"] [".min.js"] (names ++ [name])) := isMade_script
  constructor
  · rintro (h | h | h | h | h | ⟨h, hnot⟩ | h | h)
    · exact ⟨.inl h, hconfig h⟩
    · exact ⟨.inr (.inl h), htemplate _ h⟩
    · exact ⟨.inr (.inr (.inl h)), htemplate _ h⟩
    · exact ⟨.inr (.inr (.inr (.inl h))), hpage _ h⟩
    · exact ⟨.inr (.inr (.inr (.inr (.inl h)))), hpage _ h⟩
    · exact ⟨.inr (.inr (.inr (.inr (.inr (.inl h))))), mt (hscript h).1 hnot⟩
    · exact ⟨.inr (.inr (.inr (.inr (.inr (.inr (.inl h)))))), hstyle _ h⟩
    · exact ⟨.inr (.inr (.inr (.inr (.inr (.inr (.inr h)))))), hstyle _ h⟩
  · rintro ⟨h | h | h | h | h | h | h | h, hnot⟩
    · exact .inl h
    · exact .inr (.inl h)
    · exact .inr (.inr (.inl h))
    · exact .inr (.inr (.inr (.inl h)))
    · exact .inr (.inr (.inr (.inr (.inl h))))
    · exact .inr (.inr (.inr (.inr (.inr (.inl ⟨h, mt (hscript h).2 hnot⟩)))))
    · exact .inr (.inr (.inr (.inr (.inr (.inr (.inl h))))))
    · exact .inr (.inr (.inr (.inr (.inr (.inr (.inr h))))))

/-- There is a name in the names of a source. -/
lemma not_isSource_nil : ¬ IsSource [] := by
  have hnil : ∀ directories endings, ¬ LiesIn directories endings [] := by
    rintro directories endings ⟨inner, name, e, -⟩
    simp at e
  unfold IsSource
  simp [hnil]

/-- What is found by default is a source outside of the distribution. -/
lemma found_default (hf : files.WellFormed) {base names : List Text} (hup : Path.up ∉ base)
    (hbase : "distillpub".toList ∉ base) :
    Found files (.ofNames base) Settings.defaultIgnored defaultGlobs.flatten names ↔
      files.isFile (.ofNames (base ++ names)) = true ∧ (∀ name ∈ names, name.head? ≠ some '.') ∧
        "distillpub".toList ∉ names.dropLast ∧ IsSource names := by
  rcases names.eq_nil_or_concat with rfl | ⟨inner, name, rfl⟩
  · -- the root itself is no file below it
    refine iff_of_false ?_ fun h => not_isSource_nil h.2.2.2
    rintro ⟨⟨content, hmem⟩, -⟩
    exact ((mem_candidates hf hup).1 hmem).1 rfl
  have hne : inner ++ [name] ≠ [] := List.append_ne_nil_of_right_ne_nil _ (List.cons_ne_nil _ _)
  have hkept : (∀ n ∈ base ++ (inner ++ [name]), '/' ∉ n) →
      (isIgnored Settings.defaultIgnored (.ofNames (base ++ (inner ++ [name]))) = false ↔
        "distillpub".toList ∉ inner ∧ ¬ IsMade name) := by
    intro hslash
    rw [← List.append_assoc] at hslash ⊢
    have hiff := isIgnored_ofNames hslash
    rw [List.mem_append, or_iff_right hbase] at hiff
    rw [← Bool.not_eq_true, hiff, not_or]
    rfl
  -- the names of what is there are names
  have hproper : ∀ content, files.entry? (base ++ (inner ++ [name])) = some (.file content) →
      ∀ n ∈ base ++ (inner ++ [name]), '/' ∉ n := by
    intro content he n hn
    rw [FileTree.entry_of_ne (FileTree.ne_nil_of_file he)] at he
    have hkey := List.mem_map_of_mem (f := Prod.fst) (FileTree.mem_of_lookup he)
    exact ((hf.proper _ hkey).2 n hn).no_slash
  have hpath : (Path.ofNames base).join ⟨[], inner ++ [name]⟩ =
      .ofNames (base ++ (inner ++ [name])) := rfl
  rw [List.concat_eq_append, List.dropLast_concat]
  constructor
  · rintro ⟨⟨content, hmem⟩, hshown, hmatched, hignored⟩
    obtain ⟨-, he⟩ := (mem_candidates hf hup).1 hmem
    have hdots : Path.up ∉ base ++ (inner ++ [name]) :=
      fun h => (List.mem_append.1 h).elim hup (not_dots_of_isHidden hshown)
    rw [hpath, hkept (hproper content he)] at hignored
    obtain ⟨hplace, hmade⟩ := hignored
    exact ⟨(hf.isFile_ofNames hdots).2 ⟨content, he⟩, isHidden_eq_false.1 hshown, hplace,
      isSource_iff.2 ⟨matched_default.1 hmatched, hmade⟩⟩
  · rintro ⟨hfile, hshown, hplace, hsource⟩
    rw [← isHidden_eq_false] at hshown
    have hdots : Path.up ∉ base ++ (inner ++ [name]) :=
      fun h => (List.mem_append.1 h).elim hup (not_dots_of_isHidden hshown)
    obtain ⟨content, he⟩ := (hf.isFile_ofNames hdots).1 hfile
    obtain ⟨hsought, hmade⟩ := isSource_iff.1 hsource
    refine ⟨⟨content, (mem_candidates hf hup).2 ⟨hne, he⟩⟩, hshown, matched_default.2 hsought, ?_⟩
    rw [hpath, hkept (hproper content he)]
    exact ⟨hplace, hmade⟩

/-- **By default exactly the sources of a site are located.** Below a root without a directory of
the distribution on the way to it these are the files without hidden names, outside of such
directories, that are the configuration or lie, at any depth, in one of the directories of sources
and have one of the endings there; minified scripts are none. -/
theorem locate_default (hf : files.WellFormed) {base : List Text} (hup : Path.up ∉ base)
    (hbase : "distillpub".toList ∉ base) (notices : List Notice) :
    ∃ paths, (runFrom (locate files (.ofNames base) Settings.default.patterns
        Settings.default.ignored) notices).1 = .ok paths ∧
      (∀ path ∈ paths, ∃ names, path = .ofNames (base ++ names)) ∧
      ∀ names, .ofNames (base ++ names) ∈ paths ↔
        files.isFile (.ofNames (base ++ names)) = true ∧ (∀ name ∈ names, name.head? ≠ some '.') ∧
          "distillpub".toList ∉ names.dropLast ∧ IsSource names := by
  obtain ⟨taken, htaken, hmem⟩ := locate_of_expansions files (.ofNames base)
    isSome_default expansions_default notices
  refine ⟨_, htaken, ?_, fun names => ?_⟩
  · intro path hpath
    obtain ⟨names, -, rfl⟩ := List.mem_map.1 hpath
    exact ⟨names, rfl⟩
  · rw [← found_default hf hup hbase, ← hmem, List.mem_map]
    constructor
    · rintro ⟨names', hnames', e⟩
      have e : base ++ names' = base ++ names := congrArg Path.names e
      rw [← List.append_cancel_left e]
      exact hnames'
    · intro hnames
      exact ⟨names, hnames, rfl⟩

/-- Files of a site: a template, a minified script and a script of the distribution. -/
def sampleFiles : FileTree :=
  .ofFiles [(.ofText "/site/_includes/x/a.html", []), (.ofText "/site/assets/js/a.min.js", []),
    (.ofText "/site/assets/js/distillpub/t.js", [])]

/-- Of the three files the template is located. -/
theorem locate_default_sample :
    sampleFiles.WellFormed ∧ Path.up ∉ ["site".toList] ∧ "distillpub".toList ∉ ["site".toList] ∧
      ∃ paths, (runFrom (locate sampleFiles (.ofNames ["site"]) Settings.default.patterns
          Settings.default.ignored) []).1 = .ok paths ∧
        .ofNames ["site", "_includes", "x", "a.html"] ∈ paths ∧
        .ofNames ["site", "assets", "js", "a.min.js"] ∉ paths ∧
        .ofNames ["site", "assets", "js", "distillpub", "t.js"] ∉ paths := by
  have hf : sampleFiles.WellFormed := by
    refine FileTree.wellFormed_ofFiles ?_
    simp [FileTree.names_ofText]
  have hup : Path.up ∉ ["site".toList] := by decide
  have hbase : "distillpub".toList ∉ ["site".toList] := by decide
  obtain ⟨paths, hpaths, -, hmem⟩ := locate_default hf hup hbase []
  refine ⟨hf, hup, hbase, paths, hpaths, (hmem ["_includes", "x", "a.html"]).2 ⟨?_, ?_, ?_, ?_⟩,
    mt (hmem ["assets", "js", "a.min.js"]).1 ?_,
    mt (hmem ["assets", "js", "distillpub", "t.js"]).1 ?_⟩
  · decide
  · decide
  · decide
  · exact .inr (.inl ⟨["x"], "a.html", rfl, ".html", by simp, ['a'], rfl⟩)
  · rintro ⟨-, -, -, hsource⟩
    have hmade : IsMade "a.min.js" := .inl (.inl (by decide))
    have hconcat : (["assets", "js", "a.min.js"] : List Text) =
        ["assets".toList, "js".toList] ++ ["a.min.js".toList] := rfl
    rw [hconcat, isSource_iff] at hsource
    exact hsource.2 hmade
  · rintro ⟨-, -, hplace, -⟩
    exact hplace (by decide)

end Discovery

end SiteAudit
