import Mathlib.Data.List.Induction
import SiteAudit.Proofs.FileTree

/-!
# Well-formed trees

A tree is as a file system has it if whatever is there lies in a directory and has a proper name
(`WellFormed`). Trees that are built from files are (`wellFormed_ofFiles`), and stay so when files
are rewritten (`WellFormed.of_sameShape`). In such a tree a path without double dots leads to what
is at its names (`WellFormed.find_ofNames`).
-/

namespace SiteAudit

/-- The double dots that lead from a directory to the one that it is in. -/
def Path.up : Text := ['.', '.']

/-- The name of a file or of a directory. -/
structure Path.IsName (name : Text) : Prop where
  ne_nil : name ≠ []
  no_slash : '/' ∉ name
  ne_dot : name ≠ ['.']
  ne_up : name ≠ Path.up

namespace Text

/-- The pieces between separators have no separator. -/
lemma not_mem_of_mem_splitOn {sep : Char} {t piece : Text} (h : piece ∈ splitOn sep t) :
    sep ∉ piece := by
  induction t generalizing piece with
  | nil =>
    rw [List.mem_singleton.1 h]
    exact List.not_mem_nil
  | cons c t ih =>
    rw [splitOn] at h
    split at h
    · rcases List.mem_cons.1 h with rfl | h
      · exact List.not_mem_nil
      · exact ih h
    · rename_i hc
      split at h
      · rw [List.mem_singleton.1 h]
        simpa using fun h => hc h.symm
      · rename_i first pieces hsplit
        rcases List.mem_cons.1 h with rfl | h
        · rw [List.mem_cons, not_or]
          exact ⟨fun h => hc h.symm, ih (hsplit ▸ List.mem_cons_self ..)⟩
        · exact ih (hsplit ▸ List.mem_cons_of_mem _ h)

end Text

/-- Names that are read from a text are names, or double dots. -/
lemma Path.isName_of_mem_namesOf {t name : Text} (h : name ∈ Path.namesOf t)
    (hup : name ≠ Path.up) : Path.IsName name := by
  obtain ⟨hsplit, hfilter⟩ := List.mem_filter.1 h
  rw [Bool.and_eq_true, Bool.not_eq_true', List.isEmpty_eq_false_iff, bne_iff_ne] at hfilter
  exact ⟨hfilter.1, Text.not_mem_of_mem_splitOn hsplit, hfilter.2, hup⟩

namespace FileTree

variable {t t' : FileTree} {p : Path} {place names : List Text} {e : Entry}

/-- A tree as a file system has it. -/
structure WellFormed (t : FileTree) : Prop where
  isMap : t.IsMap
  /-- Whatever is there is in a directory. -/
  parent : ∀ place e, t.entry? place = some e → t.entry? place.dropLast = some .directory
  /-- It has a name, and so have the directories above it. -/
  proper : ∀ place ∈ t.entries.map Prod.fst, place ≠ [] ∧ ∀ name ∈ place, Path.IsName name

/-- The empty tree is well-formed. -/
lemma wellFormed_empty : empty.WellFormed where
  isMap := List.nodup_nil
  parent place e h := by
    cases place with
    | nil => rfl
    | cons name names => cases h
  proper _ h := absurd h List.not_mem_nil

/-- New contents of files leave a tree as a file system has it. -/
lemma WellFormed.of_sameShape (h : t.WellFormed) (hshape : SameShape t' t)
    (hkeys : t'.entries.map Prod.fst = t.entries.map Prod.fst) : t'.WellFormed where
  isMap := by
    unfold IsMap
    rw [hkeys]
    exact h.isMap
  parent place e he := by
    have hplace := hshape place
    rw [he, Option.map_some] at hplace
    obtain ⟨e', he', _⟩ := Option.map_eq_some_iff.1 hplace.symm
    exact (hshape.entry_directory _).2 (h.parent place e' he')
  proper := by
    rw [hkeys]
    exact h.proper

/-- A new entry in a directory leaves a tree as a file system has it. -/
lemma WellFormed.put (h : t.WellFormed) (hplace : place ≠ [])
    (hproper : ∀ name ∈ place, Path.IsName name) (hnone : t.entry? place = none)
    (hparent : t.entry? place.dropLast = some .directory) (e : Entry) :
    (t.put place e).WellFormed where
  isMap := h.isMap.put place e
  parent q e' he := by
    -- nothing was below the place, where nothing was
    have hfree : ∀ q e', t.entry? q = some e' → q.dropLast ≠ place := by
      intro q e' he heq
      cases hnone.symm.trans (heq ▸ h.parent q e' he)
    have hdrop : place.dropLast ≠ place := by
      intro heq
      cases hnone.symm.trans (heq ▸ hparent)
    rw [entry_put hplace] at he ⊢
    by_cases hq : q = place
    · rw [hq, if_neg hdrop]
      exact hparent
    · rw [if_neg hq] at he
      rw [if_neg (hfree q e' he)]
      exact h.parent q e' he
  proper q hq := by
    rw [keys_put] at hq
    split at hq
    · exact h.proper q hq
    · rcases List.mem_append.1 hq with hq | hq
      · exact h.proper q hq
      · rw [List.mem_singleton.1 hq]
        exact ⟨hplace, hproper⟩

/-- A file may be put in the place of a file. -/
lemma WellFormed.put_over (h : t.WellFormed) {content : Bytes}
    (he : t.entry? place = some (.file content)) (new : Bytes) :
    (t.put place (.file new)).WellFormed := by
  refine h.of_sameShape (sameShape_put he new) ?_
  rw [keys_put, ← entry_of_ne (ne_nil_of_file he), he]
  rfl

/-! ### Trees that are built -/

/-- The names on a path are names, up to double dots. -/
def Names (names : List Text) : Prop := ∀ name ∈ names, name ≠ Path.up → Path.IsName name

/-- The names of a path that is read from a text hold no slash. -/
lemma names_ofText (t : Text) : Names (Path.ofText t).names :=
  fun _ => Path.isName_of_mem_namesOf

/-- Whoever walks by such names from a proper place comes to a proper one. -/
lemma isName_of_walk {place there names : List Text} (hnames : Names names)
    (hplace : ∀ name ∈ place, Path.IsName name) (h : t.walk place names = .ok there) :
    ∀ name ∈ there, Path.IsName name := by
  induction names generalizing place with
  | nil =>
    cases h
    exact hplace
  | cons name names ih =>
    obtain ⟨hname, hnames⟩ := List.forall_mem_cons.1 hnames
    rw [walk] at h
    split at h
    · cases h
    · cases h
    · refine ih hnames ?_ h
      split
      · exact fun name hmem => hplace name (List.dropLast_subset _ hmem)
      · rename_i hup
        exact List.forall_mem_append.2 ⟨hplace, List.forall_mem_singleton.2 (hname hup)⟩

/-- The root directory is always there. -/
lemma ne_nil_of_none (h : t.entry? place = none) : place ≠ [] := by
  rintro rfl
  cases h

/-- Writing a file leaves the tree well-formed. -/
lemma WellFormed.write {content : Bytes} (h : t.WellFormed) (hnames : Names p.names)
    (hw : t.write p content = .ok t') : t'.WellFormed := by
  unfold FileTree.write at hw
  split at hw
  · cases hw
  · rename_i place hplace
    have hproper := isName_of_walk hnames (fun _ h => absurd h List.not_mem_nil) hplace
    split at hw
    · cases hw
    · rename_i he
      cases hw
      exact h.put_over he content
    · rename_i hnone hparent
      cases hw
      exact h.put (ne_nil_of_none hnone) hproper hnone hparent _
    · cases hw
    · cases hw

/-- So does making a directory. -/
lemma WellFormed.makeDirectory (h : t.WellFormed) (hnames : Names p.names)
    (hm : t.makeDirectory p = .ok t') : t'.WellFormed := by
  unfold FileTree.makeDirectory at hm
  split at hm
  · cases hm
  · rename_i place hplace
    have hproper := isName_of_walk hnames (fun _ h => absurd h List.not_mem_nil) hplace
    split at hm
    · cases hm
      exact h
    · cases hm
    · rename_i hnone hparent
      cases hm
      exact h.put (ne_nil_of_none hnone) hproper hnone hparent _
    · cases hm
    · cases hm

/-- The tree of any files is as a file system has it. -/
theorem wellFormed_ofFiles {files : List (Path × Bytes)}
    (hnames : ∀ file ∈ files, Names file.1.names) : (ofFiles files).WellFormed :=
  ofFiles_keeps wellFormed_empty
    (fun file hfile _ _ _ h hm => h.makeDirectory
      (fun name hname => hnames file hfile name
        (List.dropLast_subset _ (List.mem_of_mem_take hname))) hm)
    fun file hfile _ _ h hw => h.write (hnames file hfile) hw

/-! ### What is at names -/

/-- What is looked up is one of the entries. -/
lemma mem_of_lookup {entries : List (List Text × Entry)} (h : entries.lookup place = some e) :
    (place, e) ∈ entries := by
  obtain ⟨before, after, heq, _⟩ := List.lookup_eq_some_iff.1 h
  rw [heq]
  exact List.mem_append_right _ (List.mem_cons_self ..)

/-- Above whatever is there are directories. -/
lemma WellFormed.entry_above (h : t.WellFormed) {more : List Text} (hmore : more ≠ [])
    (he : t.entry? (place ++ more) = some e) : t.entry? place = some .directory := by
  induction more using List.reverseRecOn generalizing e with
  | nil => exact absurd rfl hmore
  | append_singleton more name ih =>
    have hup := h.parent _ _ he
    rw [← List.append_assoc, List.dropLast_concat] at hup
    by_cases hnil : more = []
    · rwa [hnil, List.append_nil] at hup
    · exact ih hnil hup

/-- Names without double dots lead to the place of the same names. -/
lemma place_ofNames (hup : Path.up ∉ names) (h : t.place (.ofNames names) = .ok place) :
    place = names :=
  (walk_eq_ok hup h).trans (List.nil_append names)

/-- Names lead straight down to whatever is there. -/
lemma WellFormed.walk (h : t.WellFormed) (hup : Path.up ∉ names)
    (he : t.entry? (place ++ names) = some e) : t.walk place names = .ok (place ++ names) := by
  induction names generalizing place with
  | nil => rw [List.append_nil, FileTree.walk]
  | cons name names ih =>
    obtain ⟨hname, hnames⟩ := not_or.1 (mt List.mem_cons.2 hup)
    have hnext : place ++ name :: names = (place ++ [name]) ++ names := by simp
    rw [FileTree.walk, h.entry_above (List.cons_ne_nil name names) he,
      if_neg (fun hn => hname hn.symm), hnext]
    exact ih hnames (hnext ▸ he)

/-- A path without double dots leads to what is at its names. -/
lemma WellFormed.find_ofNames (h : t.WellFormed) (hup : Path.up ∉ names) :
    t.find (.ofNames names) = .ok e ↔ t.entry? names = some e := by
  rw [find_eq_ok]
  constructor
  · rintro ⟨place, hplace, he⟩
    rw [walk_eq_ok hup hplace, List.nil_append] at he
    exact he
  · intro he
    have hwalk : t.walk [] names = .ok names := h.walk hup he
    exact ⟨names, hwalk, he⟩

/-- A path without double dots leads to a file exactly if one is at its names. -/
lemma WellFormed.isFile_ofNames (h : t.WellFormed) (hup : Path.up ∉ names) :
    t.isFile (.ofNames names) = true ↔ ∃ content, t.entry? names = some (.file content) := by
  unfold isFile
  constructor
  · intro hfile
    split at hfile
    · rename_i content hfind
      exact ⟨content, (h.find_ofNames hup).1 hfind⟩
    · cases hfile
  · rintro ⟨content, he⟩
    rw [(h.find_ofNames hup).2 he]

/-- What is below a place is what is there at more names. -/
lemma WellFormed.mem_below (h : t.WellFormed) :
    (names, e) ∈ t.below place ↔ names ≠ [] ∧ t.entry? (place ++ names) = some e := by
  unfold below
  rw [List.mem_filterMap]
  constructor
  · rintro ⟨⟨there, e'⟩, hmem, hsome⟩
    dsimp only at hsome
    split at hsome
    · rename_i hbelow
      rw [Bool.and_eq_true, List.isPrefixOf_iff_prefix, decide_eq_true_eq] at hbelow
      obtain ⟨⟨more, rfl⟩, hlonger⟩ := hbelow
      cases hsome
      have hmore : more ≠ [] := by
        rintro rfl
        simp at hlonger
      rw [List.drop_left]
      refine ⟨hmore, ?_⟩
      rw [entry_of_ne (List.append_ne_nil_of_right_ne_nil _ hmore)]
      exact h.isMap.lookup_of_mem hmem
    · cases hsome
  · rintro ⟨hnames, he⟩
    rw [entry_of_ne (List.append_ne_nil_of_right_ne_nil _ hnames)] at he
    refine ⟨(place ++ names, e), mem_of_lookup he, ?_⟩
    have hlonger : place.length < (place ++ names).length := by
      have := List.length_pos_of_ne_nil hnames
      simp
      omega
    dsimp only
    rw [List.isPrefixOf_iff_prefix.2 (List.prefix_append place names), decide_eq_true hlonger,
      Bool.and_self, if_pos rfl, List.drop_left]

/-- The names that lead to it are names. -/
lemma WellFormed.isName_of_mem_below (h : t.WellFormed) (hmem : (names, e) ∈ t.below place) :
    ∀ name ∈ names, Path.IsName name := by
  obtain ⟨hne, he⟩ := h.mem_below.1 hmem
  rw [entry_of_ne (List.append_ne_nil_of_right_ne_nil _ hne)] at he
  obtain ⟨-, hnames⟩ := h.proper _ (List.mem_map_of_mem (mem_of_lookup he))
  exact fun name hname => hnames name (List.mem_append_right _ hname)

end FileTree

end SiteAudit
