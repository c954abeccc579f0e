import SiteAudit.Discovery
import SiteAudit.Proofs.FileTree
import SiteAudit.Proofs.Sorting

/-!
# What candidates depend on

The candidate files lie at different places below the root, none of them hidden (`locate_eq_ok`).
Which files they are depends on where there are files, but not on what is in them (`locate_erase`),
nor on earlier notices (`steady_locate`).
-/

namespace SiteAudit

namespace Discovery

variable {files files' : FileTree} {root : Path} {ignored : List Expression}

/-- An entry by its names, without the content of a file. -/
def eraseEntry (entry : List Text × Entry) : List Text × Entry := (entry.1, entry.2.erase)

/-! ### Contents do not matter -/

/-- The candidates are the same without contents. -/
lemma candidates_erase (files : FileTree) (root : Path) :
    candidates files.erase root = (candidates files root).map eraseEntry := by
  unfold candidates
  rw [(FileTree.sameShape_erase files).place root]
  cases files.place root with
  | error fault => rfl
  | ok place =>
    dsimp only
    rw [FileTree.below_erase]
    by_cases hroot : files.entry? place = some .directory
    · rw [if_pos (((FileTree.sameShape_erase files).entry_directory place).2 hroot), if_pos hroot]
      rfl
    · rw [if_neg (mt ((FileTree.sameShape_erase files).entry_directory place).1 hroot),
        if_neg hroot]
      rfl

/-- A pattern matches the same without contents. -/
lemma matchesEntry_eraseEntry (p : Glob.Pattern) (entry : List Text × Entry) :
    matchesEntry p (eraseEntry entry) = matchesEntry p entry := by
  unfold matchesEntry eraseEntry
  rw [Entry.erase_beq_directory]

/-- A pattern with braces finds the same without contents. -/
lemma matching_erase (files : FileTree) (root : Path) (pattern : Text) :
    matching files.erase root pattern =
      (matching files root pattern).map (List.map eraseEntry) := by
  unfold matching
  cases expansions pattern with
  | error e => rfl
  | ok patterns =>
    have hfilter : ∀ entry, (!isHidden (eraseEntry entry).1 &&
        patterns.any (matchesEntry · (eraseEntry entry))) =
          (!isHidden entry.1 && patterns.any (matchesEntry · entry)) := by
      intro entry
      simp only [matchesEntry_eraseEntry]
      rfl
    dsimp only [bind, Except.bind, pure, Except.pure, Except.map]
    rw [candidates_erase, List.filter_map, sortBy_map]
    simp only [Function.comp_def, hfilter]
    rfl

/-- The same is taken from matches without contents. -/
lemma takeMatches_erase (root : Path) (ignored : List Expression) (taken : List (List Text))
    (found : List (List Text × Entry)) :
    takeMatches root ignored taken (found.map eraseEntry) =
      takeMatches root ignored taken found := by
  induction found generalizing taken with
  | nil => rfl
  | cons entry found ih =>
    obtain ⟨names, e⟩ := entry
    rw [List.map_cons, eraseEntry, takeMatches, takeMatches, Entry.erase_beq_directory]
    simp only [ih]

/-- The same is taken from a tree without contents. -/
lemma takePatterns_erase (files : FileTree) (root : Path) (ignored : List Expression)
    (taken : List (List Text)) (patterns : List Text) :
    takePatterns files.erase root ignored taken patterns =
      takePatterns files root ignored taken patterns := by
  induction patterns generalizing taken with
  | nil => rfl
  | cons pattern patterns ih =>
    rw [takePatterns, takePatterns, matching_erase]
    cases matching files root pattern with
    | error e => rfl
    | ok found =>
      dsimp only [Except.map]
      rw [takeMatches_erase]
      simp only [ih]

/-- With a text that is no expression nothing is looked for. -/
lemma locate_of_not_expression {patterns : List Text} {e : Expression}
    (h : ignored.find? (·.isFoundIn?.isNone) = some e) :
    locate files root patterns ignored = throw (.expression e.text) := by
  unfold locate
  rw [h]

/-- Without one the files are collected. -/
lemma locate_eq_collect {patterns : List Text} (h : ∀ e ∈ ignored, e.isFoundIn?.isSome = true) :
    locate files root patterns ignored = collect files root patterns ignored := by
  have hnone : ignored.find? (·.isFoundIn?.isNone) = none := by
    refine List.find?_eq_none.2 fun e he hnot => ?_
    rw [Option.isNone_iff_eq_none] at hnot
    simpa [hnot] using h e he
  unfold locate
  rw [hnone]

/-- One or the other is the case. -/
lemma expressions_cases (ignored : List Expression) :
    (∃ e, ignored.find? (·.isFoundIn?.isNone) = some e) ∨
      ∀ e ∈ ignored, e.isFoundIn?.isSome = true := by
  cases h : ignored.find? (·.isFoundIn?.isNone) with
  | some e => exact .inl ⟨e, rfl⟩
  | none =>
    refine .inr fun e he => ?_
    simpa [Option.isSome_iff_ne_none] using List.find?_eq_none.1 h e he

/-- Trees that differ only in the contents of files have the same candidates. -/
lemma locate_erase (files : FileTree) (root : Path) (patterns : List Text)
    (ignored : List Expression) :
    locate files.erase root patterns ignored = locate files root patterns ignored := by
  rcases expressions_cases ignored with ⟨e, h⟩ | h
  · rw [locate_of_not_expression h, locate_of_not_expression h]
  · rw [locate_eq_collect h, locate_eq_collect h]
    unfold collect
    rw [takePatterns_erase]

/-! ### Earlier notices do not matter -/

/-- What is taken from matches does not depend on notices. -/
lemma steady_takeMatches (root : Path) (ignored : List Expression) (taken : List (List Text))
    (found : List (List Text × Entry)) : Steady (takeMatches root ignored taken found) := by
  induction found generalizing taken with
  | nil => exact .pure taken
  | cons entry found ih =>
    rw [takeMatches]
    split
    · exact ih taken
    · split
      · exact (Steady.notice _).bind fun _ => ih taken
      · exact ih _

/-- What is taken for patterns does not depend on notices. -/
lemma steady_takePatterns (files : FileTree) (root : Path) (ignored : List Expression)
    (taken : List (List Text)) (patterns : List Text) :
    Steady (takePatterns files root ignored taken patterns) := by
  induction patterns generalizing taken with
  | nil => exact .pure taken
  | cons pattern patterns ih =>
    rw [takePatterns]
    split
    · exact .throw _
    · exact (steady_takeMatches root ignored taken _).bind ih

/-- Which files are candidates does not depend on notices. -/
lemma steady_locate (files : FileTree) (root : Path) (patterns : List Text)
    (ignored : List Expression) :
    Steady (locate files root patterns ignored) := by
  rcases expressions_cases ignored with ⟨e, h⟩ | h
  · rw [locate_of_not_expression h]
    exact .throw _
  · rw [locate_eq_collect h]
    exact (steady_takePatterns files root ignored [] patterns).bind fun _ =>
      (Steady.notice _).bind fun _ => .pure _

/-! ### What is located -/

/-- What is taken from matches has been taken before or is among them, and each only once. -/
lemma takeMatches_eq_ok {taken result : List (List Text)} {found : List (List Text × Entry)}
    {notices notices' : List Notice}
    (h : runFrom (takeMatches root ignored taken found) notices = (.ok result, notices')) :
    (taken.Nodup → result.Nodup) ∧
      ∀ names ∈ result, names ∈ taken ∨ names ∈ found.map Prod.fst := by
  induction found generalizing taken notices with
  | nil =>
    cases h
    exact ⟨id, fun names hn => .inl hn⟩
  | cons entry found ih =>
    -- an entry is passed over or taken, and only taken if it has not been before
    have later : ∀ names, names ∈ taken ∨ names ∈ found.map Prod.fst →
        names ∈ taken ∨ names ∈ (entry :: found).map Prod.fst :=
      fun names => Or.imp_right (List.mem_cons_of_mem entry.1)
    rw [takeMatches] at h
    split at h
    · obtain ⟨hnodup, hmem⟩ := ih h
      exact ⟨hnodup, fun names hn => later names (hmem names hn)⟩
    · rename_i hnew
      split at h
      · obtain ⟨_, _, _, h⟩ := runFrom_bind_eq_ok.1 h
        obtain ⟨hnodup, hmem⟩ := ih h
        exact ⟨hnodup, fun names hn => later names (hmem names hn)⟩
      · obtain ⟨hnodup, hmem⟩ := ih h
        have hnot : entry.1 ∉ taken := by
          intro hin
          refine hnew ?_
          rw [List.contains_iff_mem.2 hin]
          rfl
        refine ⟨fun ht => hnodup ?_, fun names hn => ?_⟩
        · refine List.nodup_append'.2 ⟨ht, List.nodup_singleton entry.1, ?_⟩
          exact List.disjoint_singleton.2 hnot
        · rcases hmem names hn with hn | hn
          · rcases List.mem_append.1 hn with hn | hn
            · exact .inl hn
            · rw [List.mem_singleton.1 hn]
              exact .inr (List.mem_cons_self ..)
          · exact later names (.inr hn)

/-- What a pattern matches is not hidden. -/
lemma not_isHidden_of_matching {pattern : Text} {found : List (List Text × Entry)}
    (h : matching files root pattern = .ok found) :
    ∀ names ∈ found.map Prod.fst, isHidden names = false := by
  obtain ⟨patterns, _, h⟩ := bind_eq_ok.1 h
  cases h
  intro names hn
  obtain ⟨entry, hentry, rfl⟩ := List.mem_map.1 hn
  have hfilter := (List.mem_filter.1 (mem_sortBy.1 hentry)).2
  rw [Bool.and_eq_true, Bool.not_eq_true'] at hfilter
  exact hfilter.1

/-- What is taken for patterns is not hidden, and each is taken only once. -/
lemma takePatterns_eq_ok {taken result : List (List Text)} {patterns : List Text}
    {notices notices' : List Notice}
    (h : runFrom (takePatterns files root ignored taken patterns) notices = (.ok result, notices'))
    (ht : taken.Nodup) (hshown : ∀ names ∈ taken, isHidden names = false) :
    result.Nodup ∧ ∀ names ∈ result, isHidden names = false := by
  induction patterns generalizing taken notices with
  | nil =>
    cases h
    exact ⟨ht, hshown⟩
  | cons pattern patterns ih =>
    rw [takePatterns] at h
    split at h
    · cases h
    · rename_i found hfound
      obtain ⟨taken', _, htaken, h⟩ := runFrom_bind_eq_ok.1 h
      obtain ⟨hnodup, hmem⟩ := takeMatches_eq_ok htaken
      refine ih h (hnodup ht) fun names hn => ?_
      rcases hmem names hn with hn | hn
      · exact hshown names hn
      · exact not_isHidden_of_matching hfound names hn

/-- The candidate files are those at different names below the root, none of them hidden. -/
lemma locate_eq_ok {patterns : List Text} {paths : List Path} {notices notices' : List Notice}
    (h : runFrom (locate files root patterns ignored) notices = (.ok paths, notices')) :
    ∃ taken : List (List Text), taken.Nodup ∧ (∀ names ∈ taken, isHidden names = false) ∧
      paths = taken.map fun names => root.join ⟨[], names⟩ := by
  rcases expressions_cases ignored with ⟨e, hnot⟩ | hall
  · rw [locate_of_not_expression hnot] at h
    cases h
  rw [locate_eq_collect hall] at h
  obtain ⟨taken, _, htaken, h⟩ := runFrom_bind_eq_ok.1 h
  obtain ⟨_, _, _, h⟩ := runFrom_bind_eq_ok.1 h
  cases h
  obtain ⟨hnodup, hshown⟩ :=
    takePatterns_eq_ok htaken List.nodup_nil fun _ hn => absurd hn List.not_mem_nil
  exact ⟨taken, hnodup, hshown, rfl⟩

/-- Double dots are hidden. -/
lemma not_dots_of_isHidden {names : List Text} (h : isHidden names = false) :
    ['.', '.'] ∉ names := by
  intro hmem
  have := List.any_eq_false.1 h _ hmem
  exact this rfl

end Discovery

end SiteAudit
