import SiteAudit.Proofs.Order

/-!
# Trees under other roots

Where there is the same below two roots (`FileTree.SameBelow`), the same candidate files are located
below them (`Discovery.locate_relocated`), if the same paths are ruled out there. By default this is
so for all roots that do not lead through a directory of the distribution
(`Discovery.isIgnored_relocated`): none of the expressions can begin in the root and end after it.
-/

namespace SiteAudit

/-! ### Absolute paths -/

namespace Path

/-- The path starts at the root of the file system, with one slash or two, and has no slash in its
names. -/
structure IsRooted (p : Path) : Prop where
  root : p.root = ['/'] ∨ p.root = ['/', '/']
  no_slash : ∀ name ∈ p.names, '/' ∉ name

/-- Names that are read from a text have no slash. -/
lemma no_slash_of_mem_namesOf {t name : Text} (h : name ∈ namesOf t) : '/' ∉ name :=
  Text.not_mem_of_mem_splitOn (List.mem_filter.1 h).1

/-- An absolute path that is read from a text is one. -/
lemma isRooted_ofText {t : Text} (h : (ofText t).isAbsolute = true) : (ofText t).IsRooted where
  root := by
    have hroot : rootOf t = [] ∨ rootOf t = ['/'] ∨ rootOf t = ['/', '/'] := by
      unfold rootOf
      split
      · exact .inl rfl
      · exact .inr (.inr rfl)
      · exact .inr (.inl rfl)
    refine hroot.resolve_left fun hnil => ?_
    unfold isAbsolute ofText at h
    rw [hnil] at h
    cases h
  no_slash _ := no_slash_of_mem_namesOf

end Path

/-! ### What is below a root -/

namespace FileTree

variable {files files' : FileTree} {root root' : Path} {names : List Text} {e : Entry}

/-- What is at the names below a root. -/
def entryBelow? (files : FileTree) (root : Path) (names : List Text) : Option Entry :=
  match files.place root with
  | .error _ => none
  | .ok place => files.entry? (place ++ names)

/-- In trees as file systems have them, there is the same below the roots. -/
structure SameBelow (root root' : Path) (files files' : FileTree) : Prop where
  wellFormed : files.WellFormed
  wellFormed' : files'.WellFormed
  same : ∀ names, files.entryBelow? root names = files'.entryBelow? root' names

/-- What is below a root is found from the place that the root leads to. -/
lemma entryBelow?_of_place {place : List Text} (h : files.place root = .ok place) :
    files.entryBelow? root names = files.entry? (place ++ names) := by
  unfold entryBelow?
  rw [h]

/-- Names below a root lead to what is there. -/
lemma WellFormed.find_join (hf : files.WellFormed) (hup : Path.up ∉ names) :
    files.find (root.join ⟨[], names⟩) = .ok e ↔ files.entryBelow? root names = some e := by
  have hplace : files.place (root.join ⟨[], names⟩) =
      (files.place root >>= fun there => files.walk there names) := files.walk_append [] _ _
  rw [find_eq_ok, hplace]
  cases hroot : files.place root with
  | error fault =>
    unfold entryBelow?
    rw [hroot]
    refine iff_of_false ?_ fun h => by cases h
    rintro ⟨_, h, -⟩
    cases h
  | ok place =>
    rw [entryBelow?_of_place hroot]
    constructor
    · rintro ⟨there, hthere, he⟩
      rwa [walk_eq_ok hup hthere] at he
    · exact fun he => ⟨place ++ names, hf.walk hup he, he⟩

/-- Below a root without double dots there is what is at more names. -/
lemma WellFormed.entryBelow?_eq (hf : files.WellFormed) (hup : Path.up ∉ root.names) :
    files.entryBelow? root names = files.entry? (root.names ++ names) := by
  cases hplace : files.place root with
  | ok place => rw [entryBelow?_of_place hplace, walk_eq_ok hup hplace, List.nil_append]
  | error fault =>
    -- otherwise the names of the root would lead to it
    have hnone : files.entry? (root.names ++ names) = none := by
      rw [Option.eq_none_iff_forall_ne_some]
      intro e he
      have hroot : ∃ e, files.entry? root.names = some e := by
        by_cases hne : names = []
        · exact ⟨e, by rwa [hne, List.append_nil] at he⟩
        · exact ⟨_, hf.entry_above hne he⟩
      obtain ⟨e', he'⟩ := hroot
      have hwalk : files.place root = .ok root.names := hf.walk hup he'
      cases hplace.symm.trans hwalk
    unfold entryBelow?
    rw [hplace, hnone]

/-- The names of what is below a place are different ones. -/
lemma WellFormed.nodup_below (hf : files.WellFormed) (place : List Text) :
    ((files.below place).map Prod.fst).Nodup := by
  have hkeys : (files.below place).map Prod.fst =
      (files.entries.map Prod.fst).filterMap fun names =>
        if place.isPrefixOf names && place.length < names.length then
          some (names.drop place.length)
        else none := by
    unfold below
    rw [List.map_filterMap, List.filterMap_map]
    refine List.filterMap_congr fun entry _ => ?_
    dsimp only [Function.comp]
    split
    · rfl
    · rfl
  rw [hkeys]
  refine List.Nodup.filterMap ?_ hf.isMap
  intro names names' rest hrest hrest'
  split at hrest
  · split at hrest'
    · rename_i hbelow hbelow'
      rw [Bool.and_eq_true, List.isPrefixOf_iff_prefix] at hbelow hbelow'
      obtain ⟨more, rfl⟩ := hbelow.1
      obtain ⟨more', rfl⟩ := hbelow'.1
      rw [List.drop_left] at hrest hrest'
      rw [Option.some.inj hrest, Option.some.inj hrest']
    · cases hrest'
  · cases hrest

end FileTree

namespace Discovery

variable {files files' : FileTree} {root root' : Path} {names : List Text} {name : Text}
  {e : Entry} {ignored : List Expression} {patterns : List Text}

/-! ### What is ruled out -/

/-- One more slash in front does not decide about a path. -/
lemma isIgnored_cons_slash {p q : Path} (hq : q.text = '/' :: p.text)
    (hp : p.text.head? = some '/') :
    isIgnored Settings.defaultIgnored q = true ↔ isIgnored Settings.defaultIgnored p = true := by
  obtain ⟨rest, hrest⟩ : ∃ rest, p.text = '/' :: rest := by
    cases htext : p.text with
    | nil =>
      rw [htext] at hp
      cases hp
    | cons c rest =>
      rw [htext] at hp
      exact ⟨rest, by rw [Option.some.inj hp]⟩
  have hends : ∀ ending : Text, '/' ∉ ending → (ending <:+ q.text ↔ ending <:+ p.text) := by
    intro ending hslash
    rw [hq, List.suffix_cons_iff]
    refine or_iff_right ?_
    rintro rfl
    exact hslash (List.mem_cons_self ..)
  rw [isIgnored_default, isIgnored_default]
  refine or_congr ?_ (or_congr ?_ ?_)
  · rw [hq, List.infix_cons_iff]
    refine or_iff_right fun h => ?_
    -- after the first slash there is another one
    rw [hrest] at h
    have h := List.cons_prefix_cons.1 (List.cons_prefix_cons.1 h).2
    cases h.1
  · exact or_congr (hends _ (by decide)) (hends _ (by decide))
  · exact or_congr (hends _ (by decide)) (hends _ (by decide))

/-- Whether a path below a root is ruled out is told by its names and those of the root. -/
lemma isIgnored_join (hroot : root.IsRooted) (hnames : ∀ n ∈ names ++ [name], '/' ∉ n) :
    isIgnored Settings.defaultIgnored (root.join ⟨[], names ++ [name]⟩) = true ↔
      "distillpub".toList ∈ root.names ++ names ∨ EndsIn ".min.js" name ∨ EndsIn ".map" name := by
  have hall : ∀ n ∈ (root.names ++ names) ++ [name], '/' ∉ n := by
    rw [List.append_assoc]
    exact List.forall_mem_append.2 ⟨hroot.no_slash, hnames⟩
  have hone : root.join ⟨[], names ++ [name]⟩ = ⟨root.root, (root.names ++ names) ++ [name]⟩ := by
    rw [List.append_assoc]
    rfl
  rw [← isIgnored_ofNames hall, hone]
  rcases hroot.root with h | h
  · rw [h]
    rfl
  · rw [h]
    have htext : Path.text ⟨['/', '/'], (root.names ++ names) ++ [name]⟩ =
        '/' :: Path.text (.ofNames ((root.names ++ names) ++ [name])) := by
      simp [Path.text, Path.ofNames]
    exact isIgnored_cons_slash htext (by simp [Path.text, Path.ofNames])

/-- Outside of the distribution it makes no difference which root a path is below. -/
lemma isIgnored_relocated (hroot : root.IsRooted) (hroot' : root'.IsRooted)
    (hout : "distillpub".toList ∉ root.names) (hout' : "distillpub".toList ∉ root'.names)
    (hne : names ≠ []) (hnames : ∀ n ∈ names, '/' ∉ n) :
    isIgnored Settings.defaultIgnored (root.join ⟨[], names⟩) =
      isIgnored Settings.defaultIgnored (root'.join ⟨[], names⟩) := by
  rcases names.eq_nil_or_concat with rfl | ⟨inner, name, rfl⟩
  · exact absurd rfl hne
  rw [List.concat_eq_append] at hnames ⊢
  rw [Bool.eq_iff_iff, isIgnored_join hroot hnames, isIgnored_join hroot' hnames,
    List.mem_append, List.mem_append, or_iff_right hout, or_iff_right hout']

/-! ### What is located -/

/-- The candidates are what is below a root that is a directory. -/
lemma mem_candidates_iff (hf : files.WellFormed) :
    (names, e) ∈ candidates files root ↔ files.entryBelow? root [] = some .directory ∧
      files.entryBelow? root names = some e := by
  unfold candidates
  cases hplace : files.place root with
  | error fault =>
    unfold FileTree.entryBelow?
    rw [hplace]
    exact iff_of_false List.not_mem_nil fun h => by cases h.1
  | ok place =>
    rw [FileTree.entryBelow?_of_place hplace, FileTree.entryBelow?_of_place hplace, List.append_nil]
    dsimp only
    by_cases hroot : files.entry? place = some .directory
    · rw [if_pos hroot, List.mem_cons, hf.mem_below, and_iff_right hroot]
      by_cases hne : names = []
      · subst hne
        rw [List.append_nil, hroot]
        simp [eq_comm]
      · rw [and_iff_right hne]
        refine or_iff_right fun h => hne ?_
        cases h
        rfl
    · rw [if_neg hroot]
      exact iff_of_false List.not_mem_nil fun h => hroot h.1

/-- No names are those of two candidates. -/
lemma nodup_candidates (hf : files.WellFormed) (root : Path) :
    ((candidates files root).map Prod.fst).Nodup := by
  unfold candidates
  split
  · exact List.nodup_nil
  · rename_i place _
    split
    · refine List.nodup_cons.2 ⟨fun hmem => ?_, hf.nodup_below place⟩
      obtain ⟨⟨names, e⟩, hmem, hnil⟩ := List.mem_map.1 hmem
      exact (hf.mem_below.1 hmem).1 hnil
    · exact List.nodup_nil

/-- Below both roots there are the same candidates. -/
lemma candidates_perm (h : FileTree.SameBelow root root' files files') :
    (candidates files root).Perm (candidates files' root') := by
  refine (List.perm_ext_iff_of_nodup (nodup_candidates h.wellFormed root).of_map
    (nodup_candidates h.wellFormed' root').of_map).2 fun ⟨names, e⟩ => ?_
  rw [mem_candidates_iff h.wellFormed, mem_candidates_iff h.wellFormed', h.same, h.same]

/-- A pattern matches the same, in the same order. -/
lemma matching_relocated (h : FileTree.SameBelow root root' files files') (pattern : Text) :
    matching files root pattern = matching files' root' pattern := by
  unfold matching
  cases expansions pattern with
  | error e => rfl
  | ok globs =>
    refine congrArg Except.ok ?_
    have hfound := (candidates_perm h).filter fun entry =>
      !isHidden entry.1 && globs.any (matchesEntry · entry)
    refine List.Perm.eq_of_pairwise (fun a b ha hb hab hba => ?_) (pairwise_sortBy _)
      (pairwise_sortBy _) ((sortBy_perm _).trans (hfound.trans (sortBy_perm _).symm))
    -- paths that stand in the same place have the same names
    have ha := List.mem_of_mem_filter (mem_sortBy.1 ha)
    have hb := (candidates_perm h).mem_iff.2 (List.mem_of_mem_filter (mem_sortBy.1 hb))
    have hnames : a.1 = b.1 := sortKey_inj (isName_of_mem_candidates h.wellFormed ha)
      (isName_of_mem_candidates h.wellFormed hb) (hab.antisymm hba)
    exact List.inj_on_of_nodup_map (nodup_candidates h.wellFormed root) ha hb hnames

/-- From matches the same is taken if the same of them are ruled out. -/
lemma takeMatches_relocated (taken : List (List Text)) {found : List (List Text × Entry)}
    (hignored : ∀ entry ∈ found, entry.2 ≠ .directory →
      isIgnored ignored (root.join ⟨[], entry.1⟩) = isIgnored ignored (root'.join ⟨[], entry.1⟩))
    (notices notices' : List Notice) :
    (runFrom (takeMatches root ignored taken found) notices).1 =
      (runFrom (takeMatches root' ignored taken found) notices').1 := by
  induction found generalizing taken notices notices' with
  | nil => rfl
  | cons entry found ih =>
    obtain ⟨names, e⟩ := entry
    obtain ⟨hentry, hfound⟩ := List.forall_mem_cons.1 hignored
    rw [takeMatches, takeMatches]
    split
    · exact ih taken hfound notices notices'
    · rename_i hnew
      have hfile : e ≠ .directory := by
        rintro rfl
        simp at hnew
      rw [← hentry hfile]
      split
      · rw [runFrom_bind, runFrom_bind]
        exact ih taken hfound _ _
      · exact ih _ hfound notices notices'

/-- For one pattern after the other the same is taken, or fails. -/
lemma takePatterns_relocated (h : FileTree.SameBelow root root' files files')
    (hignored : ∀ names, names ≠ [] → (∀ name ∈ names, '/' ∉ name) →
      isIgnored ignored (root.join ⟨[], names⟩) = isIgnored ignored (root'.join ⟨[], names⟩))
    (taken : List (List Text)) (notices notices' : List Notice) :
    (runFrom (takePatterns files root ignored taken patterns) notices).1 =
      (runFrom (takePatterns files' root' ignored taken patterns) notices').1 := by
  induction patterns generalizing taken notices notices' with
  | nil => rfl
  | cons pattern patterns ih =>
    rw [takePatterns, takePatterns, ← matching_relocated h]
    cases hfound : matching files root pattern with
    | error e => rfl
    | ok found =>
      dsimp only
      have hfiles : ∀ entry ∈ found, entry.2 ≠ .directory →
          isIgnored ignored (root.join ⟨[], entry.1⟩) =
            isIgnored ignored (root'.join ⟨[], entry.1⟩) := by
        intro entry hentry hfile
        obtain ⟨globs, -, hsort⟩ := bind_eq_ok.1 hfound
        cases hsort
        have hmem := List.mem_of_mem_filter (mem_sortBy.1 hentry)
        refine hignored entry.1 ?_ fun name hname =>
          (isName_of_mem_candidates h.wellFormed hmem name hname).no_slash
        -- the root is a directory
        intro hnil
        obtain ⟨hroot, hthere⟩ := (mem_candidates_iff h.wellFormed).1 hmem
        rw [hnil] at hthere
        exact hfile (Option.some.inj (hthere.symm.trans hroot))
      have hsame := takeMatches_relocated taken hfiles notices notices'
      obtain ⟨new, hnow, -⟩ := takeMatches_append root ignored taken found notices
      rw [runFrom_bind, runFrom_bind, runFrom_of_fst hnow, runFrom_of_fst (hsame.symm.trans hnow)]
      exact ih _ _ _

/-- The same is located below both roots, or looking for it fails alike. -/
lemma locate_relocated (h : FileTree.SameBelow root root' files files')
    (hignored : ∀ names, names ≠ [] → (∀ name ∈ names, '/' ∉ name) →
      isIgnored ignored (root.join ⟨[], names⟩) = isIgnored ignored (root'.join ⟨[], names⟩))
    (patterns : List Text) :
    ∃ taken : Except Failure (List (List Text)), ∀ notices,
      (runFrom (locate files root patterns ignored) notices).1 =
          taken.map (·.map fun names => root.join ⟨[], names⟩) ∧
        (runFrom (locate files' root' patterns ignored) notices).1 =
          taken.map (·.map fun names => root'.join ⟨[], names⟩) := by
  rcases expressions_cases ignored with ⟨e, hnot⟩ | hall
  · refine ⟨.error (.expression e.text), fun notices => ?_⟩
    rw [locate_of_not_expression hnot, locate_of_not_expression hnot]
    exact ⟨rfl, rfl⟩
  · refine ⟨(runFrom (takePatterns files root ignored [] patterns) []).1, fun notices => ⟨?_, ?_⟩⟩
    · rw [locate_fst _ _ _ hall, steady_takePatterns files root ignored [] patterns notices []]
    · rw [locate_fst _ _ _ hall, takePatterns_relocated h hignored [] [] notices]

end Discovery

end SiteAudit
