import Mathlib.Data.List.Sort
import SiteAudit.Proofs.Linewise
import SiteAudit.Proofs.Preview
import SiteAudit.Proofs.Sources

/-!
# The order of candidates

The candidate files are ordered by the first pattern that matches them, and then by their paths
(`locate_ordered`). Names that are names can be read off a path again (`Path.ofText_text`), so that
nothing is left open by this order: it makes one list of the same names (`eq_of_ordered`).
-/

namespace SiteAudit

/-! ### Names on paths -/

namespace Path

variable {names : List Text}

/-- Proper names are read back from their text. -/
lemma namesOf_join (h : ∀ name ∈ names, IsName name) :
    namesOf (Text.join ['/'] names) = names := by
  cases names with
  | nil => rfl
  | cons name names =>
    unfold namesOf
    rw [Text.splitOn_join (List.cons_ne_nil name names) fun n hn => (h n hn).no_slash,
      List.filter_eq_self]
    intro n hn
    simp [(h n hn).ne_nil, (h n hn).ne_dot]

/-- The names of a relative path can be read off its text. -/
lemma ofText_text (h : ∀ name ∈ names, IsName name) : ofText (text ⟨[], names⟩) = ⟨[], names⟩ := by
  cases names with
  | nil => rfl
  | cons name names =>
    have htext : text ⟨[], name :: names⟩ = Text.join ['/'] (name :: names) := by
      simp [text]
    have hname := h name (List.mem_cons_self ..)
    obtain ⟨c, rest, rfl⟩ := List.exists_cons_of_ne_nil hname.ne_nil
    -- there is no slash at the beginning
    have hc : (c == '/') = false := by
      rw [beq_eq_false_iff_ne]
      intro e
      exact hname.no_slash (e ▸ List.mem_cons_self ..)
    have hroot : rootOf (Text.join ['/'] ((c :: rest) :: names)) = [] := by
      cases names with
      | nil => simp [rootOf, Text.join, hc]
      | cons next names => simp [rootOf, Text.join, hc]
    unfold ofText
    rw [htext, hroot, namesOf_join h]

end Path

/-! ### Sorting by a text -/

/-- The text does not stand behind the other one. -/
def Text.Precedes (s t : Text) : Prop := before t s = false

namespace Text.Precedes

variable {s t u : Text}

/-- A text precedes those that are not smaller. -/
lemma iff_not_lt : s.Precedes t ↔ ¬ t < s := decide_eq_false_iff_not

/-- So precedes goes on from text to text. -/
lemma trans (h : s.Precedes t) (h' : t.Precedes u) : s.Precedes u :=
  iff_not_lt.2 <| List.not_lt.2 <|
    List.le_trans (List.not_lt.1 (iff_not_lt.1 h)) (List.not_lt.1 (iff_not_lt.1 h'))

/-- Two texts that precede each other are the same. -/
lemma antisymm (h : s.Precedes t) (h' : t.Precedes s) : s = t :=
  List.le_antisymm (List.not_lt.1 (iff_not_lt.1 h)) (List.not_lt.1 (iff_not_lt.1 h'))

/-- A text that stands before another one precedes it. -/
lemma of_before (h : before s t = true) : s.Precedes t :=
  iff_not_lt.2 (List.not_lt.2 (List.le_of_lt (of_decide_eq_true h)))

end Text.Precedes

section Sorting
variable {α : Type} {key : α → Text}

/-- What is inserted by its text stands in order. -/
lemma pairwise_insertBy (x : α) {l : List α} (h : l.Pairwise fun a b => (key a).Precedes (key b)) :
    (insertBy (fun a b => Text.before (key a) (key b)) x l).Pairwise
      fun a b => (key a).Precedes (key b) := by
  induction l with
  | nil => exact List.pairwise_singleton _ x
  | cons y l ih =>
    obtain ⟨hy, hl⟩ := List.pairwise_cons.1 h
    rw [insertBy]
    split
    · rename_i hbefore
      refine List.pairwise_cons.2 ⟨fun z hz => ?_, ih hl⟩
      rcases mem_insertBy.1 hz with rfl | hz
      · exact .of_before hbefore
      · exact hy z hz
    · rename_i hbefore
      have hx : (key x).Precedes (key y) := Bool.eq_false_iff.2 hbefore
      refine List.pairwise_cons.2 ⟨List.forall_mem_cons.2 ⟨hx, fun z hz => ?_⟩, h⟩
      exact hx.trans (hy z hz)

/-- What is sorted by a text stands in its order. -/
lemma pairwise_sortBy (l : List α) :
    (sortBy (fun a b => Text.before (key a) (key b)) l).Pairwise
      fun a b => (key a).Precedes (key b) := by
  induction l with
  | nil => exact .nil
  | cons x l ih => exact pairwise_insertBy x ih

end Sorting

namespace Discovery

variable {files : FileTree} {root : Path} {ignored : List Expression} {patterns : List Text}
  {globs : List (List Glob.Pattern)} {taken taken' : List (List Text)} {notices : List Notice}

/-- Names can be read off the text that they are ordered by. -/
lemma sortKey_inj {a b : List Text} (ha : ∀ name ∈ a, Path.IsName name)
    (hb : ∀ name ∈ b, Path.IsName name) (h : sortKey a = sortKey b) : a = b := by
  rw [← Path.namesOf_join ha, ← Path.namesOf_join hb]
  exact congrArg Path.namesOf h

/-! ### Ranks -/

/-- One of the patterns matches a file with these names. -/
def matchesFile (globs : List Glob.Pattern) (names : List Text) : Bool :=
  globs.any fun glob => !glob.directories && Glob.matchesNames glob.parts names

/-- A pattern for directories matches no file. -/
lemma matchesFile_iff {globs : List Glob.Pattern} {names : List Text} :
    matchesFile globs names = true ↔
      ∃ glob ∈ globs, glob.directories = false ∧ Glob.matchesNames glob.parts names = true := by
  unfold matchesFile
  simp only [List.any_eq_true, Bool.and_eq_true, Bool.not_eq_true']

/-- The number of patterns with braces before the first one that matches. -/
def rank (globs : List (List Glob.Pattern)) (names : List Text) : Nat :=
  globs.findIdx (matchesFile · names)

/-- The names are matched by an earlier pattern, or by the same one and their path does not stand
behind the other one. -/
def Ordered (globs : List (List Glob.Pattern)) (a b : List Text) : Prop :=
  rank globs a < rank globs b ∨ rank globs a = rank globs b ∧ Text.Precedes (sortKey a) (sortKey b)

/-- What is ordered first has no higher rank. -/
lemma Ordered.rank_le {a b : List Text} (h : Ordered globs a b) : rank globs a ≤ rank globs b := by
  rcases h with h | ⟨h, -⟩
  · exact Nat.le_of_lt h
  · exact Nat.le_of_eq h

/-- Different names are ordered in one way only. -/
lemma Ordered.antisymm {a b : List Text} (ha : ∀ name ∈ a, Path.IsName name)
    (hb : ∀ name ∈ b, Path.IsName name) (h : Ordered globs a b) (h' : Ordered globs b a) :
    a = b := by
  have hrank := Nat.le_antisymm h.rank_le h'.rank_le
  have hle : ∀ {x y}, Ordered globs x y → rank globs x = rank globs y →
      Text.Precedes (sortKey x) (sortKey y) := by
    rintro x y (hlt | ⟨-, hle⟩) heq
    · exact absurd heq (Nat.ne_of_lt hlt)
    · exact hle
  exact sortKey_inj ha hb ((hle h hrank).antisymm (hle h' hrank.symm))

/-- The order makes one list of the same names. -/
lemma eq_of_ordered (hnames : ∀ names ∈ taken, ∀ name ∈ names, Path.IsName name)
    (hnodup : taken.Nodup) (hnodup' : taken'.Nodup) (hord : taken.Pairwise (Ordered globs))
    (hord' : taken'.Pairwise (Ordered globs)) (hmem : ∀ names, names ∈ taken ↔ names ∈ taken') :
    taken = taken' := by
  refine List.Perm.eq_of_pairwise (fun a b ha hb => ?_) hord hord'
    ((List.perm_ext_iff_of_nodup hnodup hnodup').2 hmem)
  exact Ordered.antisymm (hnames a ha) (hnames b ((hmem b).2 hb))

/-! ### What is taken -/

/-- From matches some are taken in their order, none of them for a second time. -/
lemma takeMatches_append (root : Path) (ignored : List Expression) (taken : List (List Text))
    (found : List (List Text × Entry)) (notices : List Notice) :
    ∃ new, (runFrom (takeMatches root ignored taken found) notices).1 = .ok (taken ++ new) ∧
      new.Sublist (found.map Prod.fst) ∧ ∀ names ∈ new, names ∉ taken := by
  induction found generalizing taken notices with
  | nil => exact ⟨[], congrArg Except.ok (List.append_nil taken).symm, .slnil, by simp⟩
  | cons entry found ih =>
    rw [takeMatches]
    split
    · obtain ⟨new, hrun, hsub, hnew⟩ := ih taken notices
      exact ⟨new, hrun, hsub.cons entry.1, hnew⟩
    · rename_i hfirst
      split
      · obtain ⟨new, hrun, hsub, hnew⟩ := ih taken _
        exact ⟨new, (by rw [runFrom_bind]; exact hrun), hsub.cons entry.1, hnew⟩
      · obtain ⟨new, hrun, hsub, hnew⟩ := ih (taken ++ [entry.1]) notices
        rw [List.append_assoc] at hrun
        refine ⟨entry.1 :: new, hrun, hsub.cons_cons entry.1, List.forall_mem_cons.2 ⟨?_, ?_⟩⟩
        · intro hmem
          exact hfirst (by simp [hmem])
        · intro names hmem htaken
          exact hnew names hmem (List.mem_append_left _ htaken)

/-- Everything that the patterns find has been taken, in order, and nothing of later ranks. -/
structure TakenFor (files : FileTree) (root : Path) (ignored : List Expression)
    (done rest : List (List Glob.Pattern)) (taken : List (List Text)) : Prop where
  ordered : taken.Pairwise (Ordered (done ++ rest))
  early : ∀ names ∈ taken, rank (done ++ rest) names < done.length
  all : ∀ names, Found files root ignored done.flatten names → names ∈ taken

/-- What is new for a pattern has the rank of the pattern. -/
lemma rank_of_new {done rest : List (List Glob.Pattern)} {first : List Glob.Pattern}
    (h : TakenFor files root ignored done (first :: rest) taken) {names : List Text}
    (hnot : names ∉ taken) (hfound : Found files root ignored first names) :
    rank (done ++ first :: rest) names = done.length := by
  have hearlier : ∀ globs ∈ done, matchesFile globs names = false := by
    intro globs hglobs
    rw [Bool.eq_false_iff]
    intro hmatch
    obtain ⟨glob, hmem, hglob⟩ := matchesFile_iff.1 hmatch
    refine hnot (h.all names ⟨hfound.file, hfound.shown, ?_, hfound.kept⟩)
    exact ⟨glob, List.mem_flatten_of_mem hglobs hmem, hglob⟩
  have hdone : done.findIdx (matchesFile · names) = done.length :=
    List.findIdx_eq_length.2 hearlier
  have hhere : matchesFile first names = true := matchesFile_iff.2 hfound.matched
  unfold rank
  rw [List.findIdx_append, if_neg (by rw [hdone]; exact Nat.lt_irrefl _), List.findIdx_cons, hhere]
  exact Nat.zero_add _

/-- One pattern after the other takes what it finds. -/
lemma TakenFor.step {done rest : List (List Glob.Pattern)} {first : List Glob.Pattern}
    {pattern : Text} {found : List (List Text × Entry)}
    (h : TakenFor files root ignored done (first :: rest) taken)
    (hfirst : expansions pattern = .ok first) (hfound : matching files root pattern = .ok found)
    (notices : List Notice) :
    ∃ now, (runFrom (takeMatches root ignored taken found) notices).1 = .ok now ∧
      TakenFor files root ignored (done ++ [first]) rest now := by
  obtain ⟨new, hnow, hsub, hnew⟩ := takeMatches_append root ignored taken found notices
  obtain ⟨now, hnow', hmem⟩ := mem_takeMatches root ignored taken found notices
  cases hnow.symm.trans hnow'
  obtain ⟨found', hfound', hmatched⟩ := mem_matching files root ignored hfirst
  cases hfound.symm.trans hfound'
  have hrank : ∀ names ∈ new, rank (done ++ first :: rest) names = done.length := by
    intro names hn
    refine rank_of_new h (hnew names hn) ((hmatched names).1 ?_)
    exact ((hmem names).1 (List.mem_append_right _ hn)).resolve_left (hnew names hn)
  refine ⟨_, hnow, ?_, ?_, ?_⟩
  · rw [List.append_assoc, List.singleton_append, List.pairwise_append]
    refine ⟨h.ordered, ?_, fun a ha b hb => .inl ?_⟩
    · -- what is new stands in the order of the matches
      have hsorted : (found.map Prod.fst).Pairwise
          fun a b => Text.Precedes (sortKey a) (sortKey b) := by
        obtain ⟨globs, -, hsort⟩ := bind_eq_ok.1 hfound
        cases hsort
        exact List.pairwise_map.2 (pairwise_sortBy _)
      refine (hsorted.sublist hsub).imp_of_mem fun ha hb hle => .inr ⟨?_, hle⟩
      rw [hrank _ ha, hrank _ hb]
    · rw [hrank b hb]
      exact h.early a ha
  · rw [List.append_assoc, List.singleton_append, List.length_append, List.length_singleton]
    intro names hn
    rcases List.mem_append.1 hn with hn | hn
    · exact Nat.lt_succ_of_lt (h.early names hn)
    · rw [hrank names hn]
      exact Nat.lt_succ_self _
  · intro names hn
    rw [List.flatten_append, List.flatten_singleton, found_append] at hn
    rcases hn with hn | hn
    · exact List.mem_append_left _ (h.all names hn)
    · exact (hmem names).2 (.inr ((hmatched names).2 hn))

/-- What later patterns take comes after what earlier ones have taken. -/
lemma takePatterns_ordered {done : List (List Glob.Pattern)}
    (h : patterns.mapM expansions = .ok globs)
    (htaken : TakenFor files root ignored done globs taken)
    (hrun : (runFrom (takePatterns files root ignored taken patterns) notices).1 = .ok taken') :
    taken'.Pairwise (Ordered (done ++ globs)) := by
  induction patterns generalizing done globs taken notices with
  | nil =>
    cases h
    cases hrun
    exact htaken.ordered
  | cons pattern patterns ih =>
    obtain ⟨first, rest, hfirst, hrest, rfl⟩ := List.forall₂_cons_left_iff.1 (mapM_eq_ok.1 h)
    obtain ⟨found, hfound, -⟩ := mem_matching files root ignored hfirst
    obtain ⟨now, hnow, hstep⟩ := htaken.step hfirst hfound notices
    rw [takePatterns, hfound] at hrun
    dsimp only at hrun
    rw [runFrom_bind, runFrom_of_fst hnow] at hrun
    have hordered := ih (mapM_eq_ok.2 hrest) hstep hrun
    rwa [List.append_assoc, List.singleton_append] at hordered

/-- The candidate files are ordered by the first pattern that matches them, and then by their paths;
none of them comes twice. -/
lemma locate_ordered (files : FileTree) (root : Path)
    (hall : ∀ e ∈ ignored, e.isFoundIn?.isSome = true)
    (h : patterns.mapM expansions = .ok globs) (notices : List Notice) :
    ∃ taken : List (List Text),
      (runFrom (locate files root patterns ignored) notices).1 =
        .ok (taken.map fun names => root.join ⟨[], names⟩) ∧
      (∀ names, names ∈ taken ↔ Found files root ignored globs.flatten names) ∧
      taken.Nodup ∧ taken.Pairwise (Ordered globs) := by
  obtain ⟨taken, htaken, hmem⟩ := mem_takePatterns files root ignored h [] notices
  have hstart : TakenFor files root ignored [] globs [] :=
    ⟨.nil, fun _ hn => absurd hn List.not_mem_nil, fun _ hn => by
      obtain ⟨glob, hglob, -⟩ := hn.matched
      exact absurd hglob List.not_mem_nil⟩
  refine ⟨taken, (by rw [locate_fst _ _ _ hall, htaken]; rfl), fun names => ?_, ?_,
    takePatterns_ordered h hstart htaken⟩
  · rw [hmem]
    exact or_iff_right List.not_mem_nil
  · obtain ⟨hnodup, -⟩ := takePatterns_eq_ok (runFrom_of_fst htaken) List.nodup_nil
      fun _ hn => absurd hn List.not_mem_nil
    exact hnodup

/-- The names below a root are names. -/
lemma isName_of_mem_candidates (hf : files.WellFormed) {names : List Text} {e : Entry}
    (h : (names, e) ∈ candidates files root) : ∀ name ∈ names, Path.IsName name := by
  unfold candidates at h
  split at h
  · cases h
  · split at h
    · rcases List.mem_cons.1 h with h | h
      · cases h
        exact fun name hname => absurd hname List.not_mem_nil
      · exact hf.isName_of_mem_below h
    · cases h

end Discovery

/-- The candidate files of a site with the usual settings: the sources of the site, in their
order. -/
lemma Site.candidatesOf_ordered {site : Site} (hdefault : site.settings = .default)
    (files : FileTree) :
    ∃ taken : List (List Text),
      site.candidatesOf files = .ok (taken.map fun names => site.root.join ⟨[], names⟩) ∧
      (∀ names, names ∈ taken ↔ Discovery.Found files site.root Settings.defaultIgnored
        Discovery.defaultGlobs.flatten names) ∧
      taken.Nodup ∧ taken.Pairwise (Discovery.Ordered Discovery.defaultGlobs) := by
  unfold candidatesOf candidates
  rw [hdefault]
  exact Discovery.locate_ordered files site.root Discovery.isSome_default
    Discovery.expansions_default []

end SiteAudit
