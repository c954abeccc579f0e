import Mathlib.Data.List.Basic
import Mathlib.Data.List.Nodup
import SiteAudit.FileTree
import SiteAudit.Proofs.Run

/-!
# File trees under writes

A write over a file puts the new content in its place (`write_over`) and changes no other entry
(`entry_put`). Where paths lead and what is below a directory does not depend on what is in the
files (`SameShape.place`, `below_erase`), so that it stays as it is under such writes.
-/

namespace SiteAudit

/-- The entry without the content of a file. -/
def Entry.erase : Entry → Entry
  | .file _ => .file []
  | .directory => .directory

/-- An entry is a directory with or without contents. -/
@[simp] lemma Entry.erase_beq_directory (e : Entry) :
    (e.erase == .directory) = (e == .directory) := by
  cases e with
  | file _ => rfl
  | directory => rfl

namespace FileTree

variable {t t' : FileTree} {p q : Path}

/-! ### Entries -/

/-- No place has two entries. -/
def IsMap (t : FileTree) : Prop := (t.entries.map Prod.fst).Nodup

instance (t : FileTree) : Decidable t.IsMap := inferInstanceAs (Decidable (List.Nodup _))

/-- The tree with the contents of the files taken away. -/
def erase (t : FileTree) : FileTree := ⟨t.entries.map fun entry => (entry.1, entry.2.erase)⟩

/-- A lookup among changed values is the changed lookup. -/
lemma lookup_map (f : Entry → Entry) (entries : List (List Text × Entry)) (place : List Text) :
    (entries.map fun entry => (entry.1, f entry.2)).lookup place =
      (entries.lookup place).map f := by
  induction entries with
  | nil => rfl
  | cons entry entries ih =>
    rw [List.map_cons, List.lookup_cons, List.lookup_cons, ih]
    cases place == entry.1 with
    | true => rfl
    | false => rfl

/-- A lookup among entries of which those at one place are put anew. -/
lemma lookup_put (entries : List (List Text × Entry)) (place q : List Text) (e : Entry) :
    (entries.map fun entry => if entry.1 = place then (place, e) else entry).lookup q =
      if q = place then (entries.lookup place).map fun _ => e else entries.lookup q := by
  induction entries with
  | nil => split <;> rfl
  | cons entry entries ih =>
    rw [List.map_cons, List.lookup_cons, List.lookup_cons, List.lookup_cons, ih]
    by_cases hentry : entry.1 = place
    · by_cases hq : q = place
      · simp [hentry, hq]
      · have : (q == place) = false := by simpa using hq
        simp [hentry, hq, this]
    · by_cases hq : q = place
      · have : (place == entry.1) = false := by simpa using fun h => hentry h.symm
        simp [hentry, hq, this]
      · simp [hentry, hq]

/-- What is at a place below the root is found among the entries. -/
lemma entry_of_ne {place : List Text} (h : place ≠ []) :
    t.entry? place = t.entries.lookup place := by
  obtain ⟨name, names, rfl⟩ := List.exists_cons_of_ne_nil h
  rfl

/-- A file is not at the root. -/
lemma ne_nil_of_file {place : List Text} {content : Bytes}
    (he : t.entry? place = some (.file content)) : place ≠ [] := by
  rintro rfl
  cases he

/-- An entry of a map is the one that is found at its place. -/
lemma IsMap.lookup_of_mem (h : t.IsMap) {place : List Text} {e : Entry}
    (hmem : (place, e) ∈ t.entries) : t.entries.lookup place = some e := by
  obtain ⟨entries⟩ := t
  dsimp only at hmem ⊢
  induction entries with
  | nil => cases hmem
  | cons entry entries ih =>
    obtain ⟨hnot, hrest⟩ := List.nodup_cons.1 h
    rw [List.lookup_cons]
    rcases List.mem_cons.1 hmem with rfl | hmem
    · rw [beq_self_eq_true]
    · have hne : (place == entry.1) = false := by
        rw [beq_eq_false_iff_ne]
        rintro rfl
        exact hnot (List.mem_map.2 ⟨_, hmem, rfl⟩)
      rw [hne]
      exact ih hrest hmem

/-- After a put there is the entry at its place, and at other places what was there. -/
lemma entry_put {place : List Text} (hplace : place ≠ []) (q : List Text) (e : Entry) :
    FileTree.entry? (t.put place e) q = if q = place then some e else t.entry? q := by
  by_cases hroot : q = []
  · rw [hroot, if_neg (fun h => hplace h.symm)]
    rfl
  rw [entry_of_ne hroot, entry_of_ne hroot]
  unfold put
  split
  · rename_i h
    obtain ⟨e', he⟩ := Option.isSome_iff_exists.1 h
    dsimp only
    rw [lookup_put, he]
    rfl
  · rename_i h
    have hnone := Option.not_isSome_iff_eq_none.1 h
    dsimp only
    rw [List.lookup_append]
    by_cases hq : q = place
    · rw [hq, hnone, if_pos rfl, List.lookup_cons, beq_self_eq_true]
      rfl
    · have hne : (q == place) = false := beq_eq_false_iff_ne.2 hq
      rw [if_neg hq, List.lookup_cons, hne, List.lookup_nil, Option.or_none]

/-- A put adds at most the place. -/
lemma keys_put (t : FileTree) (place : List Text) (e : Entry) :
    (t.put place e).entries.map Prod.fst =
      if (t.entries.lookup place).isSome then t.entries.map Prod.fst
      else t.entries.map Prod.fst ++ [place] := by
  unfold FileTree.put
  split
  · rw [List.map_map]
    refine List.map_congr_left fun entry _ => ?_
    dsimp only [Function.comp]
    split
    · rename_i h
      exact h.symm
    · rfl
  · rw [List.map_append]
    rfl

/-- A put leaves a map. -/
lemma IsMap.put (h : t.IsMap) (place : List Text) (e : Entry) : (t.put place e).IsMap := by
  unfold IsMap
  rw [keys_put]
  split
  · exact h
  · rename_i hnone
    have hmem : place ∉ t.entries.map Prod.fst := by
      intro hmem
      obtain ⟨entry, hentry, rfl⟩ := List.mem_map.1 hmem
      refine hnone (List.lookup_isSome_iff.2 ⟨entry, hentry, ?_⟩)
      exact beq_self_eq_true entry.1
    exact List.nodup_append'.2 ⟨h, List.nodup_singleton place, by simpa using hmem⟩

/-! ### Trees without contents -/

/-- Without contents there is at each place what was there without its content. -/
lemma entry_erase (t : FileTree) (place : List Text) :
    t.erase.entry? place = Entry.erase <$> t.entry? place := by
  cases place with
  | nil => rfl
  | cons name names => exact lookup_map Entry.erase t.entries (name :: names)

/-- At each place both trees have a file, or both a directory, or neither anything. -/
def SameShape (t' t : FileTree) : Prop :=
  ∀ place, ( t'.entry? place).map Entry.erase = ( t.entry? place).map Entry.erase

/-- Trees of one shape with another one have one shape. -/
lemma SameShape.trans {t'' : FileTree} (h' : SameShape t'' t') (h : SameShape t' t) :
    SameShape t'' t :=
  fun place => (h' place).trans (h place)

/-- Names lead to the same place in trees of the same shape. -/
lemma SameShape.walk (h : SameShape t' t) (place names : List Text) :
    t'.walk place names = t.walk place names := by
  induction names generalizing place with
  | nil => rfl
  | cons name names ih =>
    have hplace := h place
    rw [FileTree.walk, FileTree.walk]
    cases he : t.entry? place with
    | none =>
      rw [he, Option.map_none, Option.map_eq_none_iff] at hplace
      rw [hplace]
    | some e =>
      rw [he] at hplace
      obtain ⟨e', he', heq⟩ := Option.map_eq_some_iff.1 hplace
      rw [he']
      cases e with
      | file _ =>
        cases e' with
        | file _ => rfl
        | directory => cases heq
      | directory =>
        cases e' with
        | file _ => cases heq
        | directory => exact ih _

/-- So do paths. -/
lemma SameShape.place (h : SameShape t' t) (p : Path) : t'.place p = t.place p :=
  h.walk [] p.names

/-- A tree keeps its shape without the contents. -/
lemma sameShape_erase (t : FileTree) : SameShape t.erase t := by
  intro place
  rw [entry_erase]
  rcases t.entry? place with _ | ⟨_ | _⟩ <;> rfl

/-- A path leads to an entry if it leads to a place with that entry. -/
lemma find_eq_ok {e : Entry} :
    t.find p = .ok e ↔ ∃ place, t.place p = .ok place ∧ t.entry? place = some e := by
  unfold find
  rw [bind_eq_ok]
  refine exists_congr fun place => and_congr_right fun _ => ?_
  cases t.entry? place with
  | none => exact ⟨fun h => (by cases h), fun h => (by cases h)⟩
  | some e' => exact ⟨fun h => (by cases h; rfl), fun h => (by cases h; rfl)⟩

/-- A path leads to a directory if the entry it leads to is one. -/
lemma isDirectory_iff : t.isDirectory p = true ↔ t.find p = .ok .directory := by
  unfold isDirectory
  split
  · rename_i h
    exact iff_of_true rfl h
  · rename_i h
    exact iff_of_false (by simp) h

/-- In trees of the same shape directories are at the same places. -/
lemma SameShape.entry_directory (h : SameShape t' t) (place : List Text) :
    t'.entry? place = some .directory ↔ t.entry? place = some .directory := by
  have herase : ∀ o : Option Entry, o.map Entry.erase = some .directory ↔ o = some .directory := by
    rintro (_ | _ | _)
    · exact iff_of_false (fun h => by cases h) fun h => by cases h
    · exact iff_of_false (fun h => by cases h) fun h => by cases h
    · exact Iff.rfl
  rw [← herase, h place, herase]

/-- The same paths lead to directories. -/
lemma SameShape.isDirectory (h : SameShape t' t) (p : Path) :
    t'.isDirectory p = t.isDirectory p := by
  rw [Bool.eq_iff_iff, isDirectory_iff, isDirectory_iff, find_eq_ok, find_eq_ok, h.place p]
  exact exists_congr fun place => and_congr_right fun _ => h.entry_directory place

/-- Below a place there is the same without contents. -/
lemma below_erase (t : FileTree) (place : List Text) :
    t.erase.below place = (t.below place).map fun entry => (entry.1, entry.2.erase) := by
  unfold below erase
  rw [List.filterMap_map, List.map_filterMap]
  refine List.filterMap_congr fun entry _ => ?_
  dsimp only [Function.comp]
  split
  · rfl
  · rfl

/-! ### Reading and writing -/

/-- What is read is the content of the file that the path leads to. -/
lemma read_eq_ok {content : Bytes} :
    t.read p = .ok content ↔ ∃ place, t.place p = .ok place ∧
      t.entry? place = some (.file content) := by
  unfold read
  rw [bind_eq_ok, ← find_eq_ok]
  constructor
  · rintro ⟨e, he, h⟩
    cases e with
    | file content' =>
      cases h
      exact he
    | directory => cases h
  · intro h
    exact ⟨.file content, h, rfl⟩

/-- The same is read where a path leads to the same place with the same entry. -/
lemma read_congr (hp : t'.place q = t.place q)
    (he : ∀ place, t.place q = .ok place → t'.entry? place = t.entry? place) :
    t'.read q = t.read q := by
  unfold read find
  rw [hp]
  cases hplace : t.place q with
  | error fault => rfl
  | ok place =>
    dsimp only [bind, Except.bind]
    rw [he place hplace]

/-- The same is read at paths that lead to the same place. -/
lemma read_of_place (h : t.place q = t.place p) : t.read q = t.read p := by
  unfold read find
  rw [h]

/-- New contents of files do not change the rest. -/
lemma erase_put {place : List Text} {content : Bytes} (h : t.IsMap) (hplace : place ≠ [])
    (he : t.entry? place = some (.file content)) (new : Bytes) :
    (t.put place (.file new)).erase = t.erase := by
  rw [entry_of_ne hplace] at he
  unfold put
  rw [if_pos (by rw [he]; rfl), erase, erase, List.map_map]
  congr 1
  refine List.map_congr_left fun entry hentry => ?_
  dsimp only [Function.comp]
  split
  · -- in a map this is the entry that is found, a file
    rename_i heq
    have hlookup := h.lookup_of_mem hentry
    rw [heq, he] at hlookup
    rw [← Option.some.inj hlookup, heq]
    rfl
  · rfl

/-- New content of a file leaves the shape of the tree. -/
lemma sameShape_put {place : List Text} {content : Bytes}
    (he : t.entry? place = some (.file content)) (new : Bytes) :
    SameShape (t.put place (.file new)) t := by
  have hplace := ne_nil_of_file he
  intro q
  rw [entry_put hplace]
  by_cases hq : q = place
  · rw [if_pos hq, hq, he]
    rfl
  · rw [if_neg hq]

/-- A write over a file puts the new content in its place. -/
lemma write_over {place : List Text} {content : Bytes} (hp : t.place p = .ok place)
    (he : t.entry? place = some (.file content)) (new : Bytes) :
    t.write p new = .ok (t.put place (.file new)) := by
  unfold write
  rw [hp]
  dsimp only
  rw [he]

/-! ### Trees that are built -/

/-- What making one directory keeps, making several of them keeps, also as far as they are made
before a failure. -/
lemma makeDirectoriesUp_keeps {P : FileTree → Prop}
    (hone : ∀ t t' size, P t → t.makeDirectory ⟨p.root, p.names.take size⟩ = .ok t' → P t')
    (h : P t) (size : Nat) : P (t.makeDirectoriesUp p size).1 := by
  induction size with
  | zero => exact h
  | succ size ih =>
    rw [FileTree.makeDirectoriesUp]
    split
    · rename_i hmade
      exact hone _ _ _ h hmade
    · split
      · exact h
      · split
        · rename_i hup
          rw [hup] at ih
          exact ih
        · rename_i hup
          rw [hup] at ih
          split
          · rename_i hmade
            exact hone _ _ _ ih hmade
          · exact ih

/-- What making a directory and writing a file keep holds of the tree of any files. -/
lemma ofFiles_keeps {P : FileTree → Prop} {files : List (Path × Bytes)} (hempty : P empty)
    (hmake : ∀ file ∈ files, ∀ t t' size, P t →
      t.makeDirectory ⟨file.1.root, file.1.parent.names.take size⟩ = .ok t' → P t')
    (hwrite : ∀ file ∈ files, ∀ t t', P t → t.write file.1 file.2 = .ok t' → P t') :
    P (ofFiles files) := by
  -- the files are written one after the other, each into what the ones before have left
  suffices ∀ t : FileTree, P t → P (files.foldl _ t) from this empty hempty
  induction files with
  | nil => exact fun _ h => h
  | cons file files ih =>
    obtain ⟨hmakeFile, hmake⟩ := List.forall_mem_cons.1 hmake
    obtain ⟨hwriteFile, hwrite⟩ := List.forall_mem_cons.1 hwrite
    intro t h
    refine ih hmake hwrite _ ?_
    have hmade := makeDirectoriesUp_keeps (p := file.1.parent) hmakeFile h
      file.1.parent.names.length
    dsimp only
    split
    · rename_i hw
      exact hwriteFile _ _ hmade hw
    · exact hmade

/-! ### Places below a directory -/

/-- Names are walked one after the other. -/
lemma walk_append (t : FileTree) (place names more : List Text) :
    t.walk place (names ++ more) = (t.walk place names >>= fun there => t.walk there more) := by
  induction names generalizing place with
  | nil => rfl
  | cons name names ih =>
    rw [List.cons_append, walk, walk]
    cases t.entry? place with
    | none => rfl
    | some e =>
      cases e with
      | file _ => rfl
      | directory => exact ih _

/-- Names without double dots lead straight down. -/
lemma walk_eq_ok {place names there : List Text} (hdots : ['.', '.'] ∉ names)
    (h : t.walk place names = .ok there) : there = place ++ names := by
  induction names generalizing place with
  | nil =>
    cases h
    exact (List.append_nil _).symm
  | cons name names ih =>
    obtain ⟨hname, hnames⟩ := not_or.1 (mt List.mem_cons.2 hdots)
    rw [walk, if_neg (fun h => hname h.symm)] at h
    cases he : t.entry? place with
    | none =>
      rw [he] at h
      cases h
    | some e =>
      rw [he] at h
      cases e with
      | file _ => cases h
      | directory =>
        rw [ih hnames h, List.append_assoc]
        rfl

/-- Different names below a directory lead to different places, if they lead anywhere. -/
lemma place_join_ne {root : Path} {names names' : List Text} (hdots : ['.', '.'] ∉ names)
    (hdots' : ['.', '.'] ∉ names') (hne : names ≠ names') {place : List Text}
    (h : t.place (root.join ⟨[], names⟩) = .ok place) :
    t.place (root.join ⟨[], names'⟩) ≠ .ok place := by
  intro h'
  change t.walk [] (root.names ++ names) = .ok place at h
  change t.walk [] (root.names ++ names') = .ok place at h'
  rw [walk_append] at h h'
  obtain ⟨base, hb, h⟩ := bind_eq_ok.1 h
  obtain ⟨base', hb', h'⟩ := bind_eq_ok.1 h'
  obtain rfl : base = base' := Except.ok.inj (hb.symm.trans hb')
  rw [walk_eq_ok hdots h] at h'
  exact hne (List.append_cancel_left (walk_eq_ok hdots' h'))

end FileTree

end SiteAudit
