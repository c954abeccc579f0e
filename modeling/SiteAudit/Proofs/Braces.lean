import Mathlib.Data.List.Basic
import SiteAudit.Braces
import SiteAudit.Proofs.Text

/-!
# Expansion of braces

A pattern has a group if a brace opens somewhere in it and one closes later (`HasGroup`); then its
first group without a brace inside is found (`group?_append`). Expansion puts each alternative of
that group in its place and goes on with what comes of it (`expand_group`), until there are no
groups (`not_hasGroup_of_mem_expand`). So the patterns that an append stands for are the ordered
product of those of its parts, if each brace of the first part is closed in it (`expand_append`).
-/

namespace SiteAudit.Braces

/-! ### Groups -/

/-- There are no braces in the text. -/
def IsBare (t : Text) : Prop := '\x7b' ∉ t ∧ '\x7d' ∉ t

/-- Somewhere in the text a brace opens, and later one closes. -/
def HasGroup (t : Text) : Prop := ∃ x y z, t = x ++ '\x7b' :: (y ++ '\x7d' :: z)

/-- How many braces are open after the text, if so many were open before it. A closing brace closes
one, if there is one to close. -/
def leftOpen : Nat → Text → Nat
  | depth, [] => depth
  | depth, c :: t =>
    leftOpen (if c = '\x7b' then depth + 1 else if c = '\x7d' then depth - 1 else depth) t

/-- Every brace that opens in the text is closed in it. -/
def IsClosed (t : Text) : Prop := leftOpen 0 t = 0

instance (t : Text) : Decidable (IsBare t) := inferInstanceAs (Decidable (_ ∧ _))

instance (t : Text) : Decidable (IsClosed t) := inferInstanceAs (Decidable (_ = _))

variable {p q s t x y z : Text} {g : Group}

/-- A group begins at the first character or after it. -/
lemma hasGroup_cons {c : Char} :
    HasGroup (c :: t) ↔ c = '\x7b' ∧ '\x7d' ∈ t ∨ HasGroup t := by
  constructor
  · rintro ⟨x, y, z, e⟩
    cases x with
    | nil =>
      obtain ⟨rfl, rfl⟩ := List.cons.inj e
      exact .inl ⟨rfl, List.mem_append_right _ List.mem_cons_self⟩
    | cons d x =>
      obtain ⟨rfl, rfl⟩ := List.cons.inj e
      exact .inr ⟨x, y, z, rfl⟩
  · rintro (⟨rfl, hclose⟩ | ⟨x, y, z, rfl⟩)
    · obtain ⟨y, z, rfl⟩ := List.append_of_mem hclose
      exact ⟨[], y, z, rfl⟩
    · exact ⟨c :: x, y, z, rfl⟩

/-- Without an opening brace there is no group. -/
lemma not_hasGroup_of_not_mem (h : '\x7b' ∉ t) : ¬ HasGroup t := by
  rintro ⟨x, y, z, rfl⟩
  exact h (List.mem_append_right _ List.mem_cons_self)

/-- A text without an opening brace adds no group to what follows. -/
lemma hasGroup_append_iff (h : '\x7b' ∉ s) : HasGroup (s ++ t) ↔ HasGroup t := by
  induction s with
  | nil => rfl
  | cons c s ih =>
    obtain ⟨hc, hs⟩ := not_or.1 (mt List.mem_cons.2 h)
    rw [List.cons_append, hasGroup_cons, ih hs, or_iff_right fun h => hc h.1.symm]

/-- The rest of a group without a brace inside is found. -/
lemma closing?_append (h : IsBare x) (z : Text) : closing? (x ++ '\x7d' :: z) = some (x, z) := by
  induction x with
  | nil => rfl
  | cons c x ih =>
    obtain ⟨hopen, hx⟩ := not_or.1 (mt List.mem_cons.2 h.1)
    obtain ⟨hclose, hx'⟩ := not_or.1 (mt List.mem_cons.2 h.2)
    rw [List.cons_append, closing?, if_neg (Ne.symm hclose), if_neg (Ne.symm hopen), ih ⟨hx, hx'⟩]
    rfl

/-- Nothing else is found. -/
lemma eq_of_closing? (h : closing? t = some (x, z)) : t = x ++ '\x7d' :: z ∧ IsBare x := by
  induction t generalizing x with
  | nil => cases h
  | cons c t ih =>
    rw [closing?] at h
    split at h
    · rename_i hclose
      cases h
      rw [hclose]
      exact ⟨rfl, List.not_mem_nil, List.not_mem_nil⟩
    · rename_i hclose
      split at h
      · cases h
      · rename_i hopen
        obtain ⟨⟨inside, after⟩, hrest, e⟩ := Option.map_eq_some_iff.1 h
        cases e
        obtain ⟨rfl, hbare⟩ := ih hrest
        refine ⟨rfl, ?_, ?_⟩
        · exact mt List.mem_cons.1 (not_or.2 ⟨Ne.symm hopen, hbare.1⟩)
        · exact mt List.mem_cons.1 (not_or.2 ⟨Ne.symm hclose, hbare.2⟩)

/-- No rest of a group is found where a brace opens before one closes. -/
lemma closing?_of_open (h : '\x7d' ∉ x) (t : Text) : closing? (x ++ '\x7b' :: t) = none := by
  induction x with
  | nil => rfl
  | cons c x ih =>
    obtain ⟨hc, hx⟩ := not_or.1 (mt List.mem_cons.2 h)
    rw [List.cons_append, closing?, if_neg (Ne.symm hc), ih hx]
    split <;> rfl

/-- Without a group no brace opens before the first one that closes. -/
lemma exists_isBare (h : ¬ HasGroup t) (hclose : '\x7d' ∈ t) :
    ∃ x z, t = x ++ '\x7d' :: z ∧ IsBare x := by
  obtain ⟨x, z, rfl, hx⟩ := List.eq_append_cons_of_mem hclose
  refine ⟨x, z, rfl, fun hopen => h ?_, hx⟩
  obtain ⟨u, v, rfl⟩ := List.append_of_mem hopen
  exact ⟨u, v, z, by simp⟩

/-- The first group without a brace inside is found. -/
lemma group?_append (hx : ¬ HasGroup x) (hy : IsBare y) (z : Text) :
    group? (x ++ '\x7b' :: (y ++ '\x7d' :: z)) = some ⟨x, y, z⟩ := by
  induction x with
  | nil => rw [List.nil_append, group?, if_pos rfl, closing?_append hy]
  | cons c x ih =>
    rw [hasGroup_cons, not_or, not_and] at hx
    obtain ⟨hclose, hx⟩ := hx
    have hnone : (if c = '\x7b' then closing? (x ++ '\x7b' :: (y ++ '\x7d' :: z)) else none) =
        none := by
      split
      · exact closing?_of_open (hclose ‹_›) _
      · rfl
    rw [List.cons_append, group?, hnone, ih hx]
    rfl

/-- Nothing else is found. -/
lemma eq_of_group? (h : group? t = some g) :
    t = g.before ++ '\x7b' :: (g.inside ++ '\x7d' :: g.after) ∧ IsBare g.inside ∧
      ¬ HasGroup g.before := by
  induction t generalizing g with
  | nil => cases h
  | cons c t ih =>
    rw [group?] at h
    split at h
    · rename_i inside after hhere
      cases h
      split at hhere
      · rename_i hc
        obtain ⟨rfl, hbare⟩ := eq_of_closing? hhere
        exact ⟨by rw [hc]; rfl, hbare, not_hasGroup_of_not_mem List.not_mem_nil⟩
      · cases hhere
    · rename_i hnone
      obtain ⟨g, hlater, rfl⟩ := Option.map_eq_some_iff.1 h
      obtain ⟨rfl, hbare, hbefore⟩ := ih hlater
      refine ⟨rfl, hbare, ?_⟩
      -- a brace that opens here and is closed before the group would have been found
      rw [hasGroup_cons, not_or]
      refine ⟨?_, hbefore⟩
      rintro ⟨hc, hclose⟩
      obtain ⟨x, z, hx, hbare'⟩ := exists_isBare hbefore hclose
      rw [if_pos hc, hx, List.append_assoc, List.cons_append, closing?_append hbare'] at hnone
      cases hnone

/-- In a text with a group one is found. -/
lemma exists_group? (h : HasGroup t) : ∃ g, group? t = some g := by
  induction t with
  | nil => exact absurd h (not_hasGroup_of_not_mem List.not_mem_nil)
  | cons c t ih =>
    rw [group?]
    split
    · exact ⟨_, rfl⟩
    · rename_i hnone
      have hlater : HasGroup t := by
        by_contra hnot
        obtain ⟨hc, hclose⟩ := (hasGroup_cons.1 h).resolve_right hnot
        obtain ⟨x, z, rfl, hbare⟩ := exists_isBare hnot hclose
        rw [if_pos hc, closing?_append hbare] at hnone
        cases hnone
      obtain ⟨g, hg⟩ := ih hlater
      exact ⟨_, congrArg (Option.map _) hg⟩

/-- No group is found where there is none. -/
lemma group?_eq_none : group? t = none ↔ ¬ HasGroup t := by
  constructor
  · intro h hgroup
    obtain ⟨g, hg⟩ := exists_group? hgroup
    cases h.symm.trans hg
  · intro h
    refine Option.eq_none_iff_forall_ne_some.2 fun g hg => h ?_
    exact ⟨_, _, _, (eq_of_group? hg).1⟩

instance (t : Text) : Decidable (HasGroup t) :=
  decidable_of_iff (group? t ≠ none) (not_iff_comm.1 group?_eq_none.symm)

/-! ### Alternatives -/

/-- An alternative in the place of its group takes one opening brace away. -/
lemma count_alternative (hy : IsBare y) {option : Text} (ho : option ∈ Text.splitOn ',' y) :
    (x ++ option ++ z).count '\x7b' + 1 = (x ++ '\x7b' :: (y ++ '\x7d' :: z)).count '\x7b' := by
  have hoption : option.count '\x7b' = 0 :=
    List.count_eq_zero.2 fun hmem => hy.1 (Text.mem_of_mem_splitOn ho hmem)
  have hinside : y.count '\x7b' = 0 := List.count_eq_zero.2 hy.1
  simp [hoption, hinside]
  omega

/-- A text without groups stands for itself. -/
lemma expandWithin_of_none (h : group? t = none) (bound : Nat) : expandWithin bound t = [t] := by
  cases bound with
  | zero => rfl
  | succ bound => rw [expandWithin, h]

/-- Bounds that suffice for the groups give the same. -/
lemma expandWithin_congr {m n : Nat} (hm : t.count '\x7b' ≤ m) (hn : t.count '\x7b' ≤ n) :
    expandWithin m t = expandWithin n t := by
  induction m generalizing n t with
  | zero =>
    have hnone : group? t = none := group?_eq_none.2 <|
      not_hasGroup_of_not_mem (List.count_eq_zero.1 (Nat.le_zero.1 hm))
    rw [expandWithin_of_none hnone, expandWithin_of_none hnone]
  | succ m ih =>
    cases hgroup : group? t with
    | none => rw [expandWithin_of_none hgroup, expandWithin_of_none hgroup]
    | some g =>
      obtain ⟨rfl, hbare, -⟩ := eq_of_group? hgroup
      cases n with
      | zero => simp at hn
      | succ n =>
        rw [expandWithin, expandWithin, hgroup]
        apply List.flatMap_congr
        intro option ho
        have hcount := count_alternative (x := g.before) (z := g.after) hbare ho
        exact ih (by omega) (by omega)

/-- A pattern without a group stands for itself. -/
lemma expand_of_not_hasGroup (h : ¬ HasGroup t) : expand t = [t] :=
  expandWithin_of_none (group?_eq_none.2 h) _

/-- The first group without a brace inside is expanded first. -/
lemma expand_group (hx : ¬ HasGroup x) (hy : IsBare y) (z : Text) :
    expand (x ++ '\x7b' :: (y ++ '\x7d' :: z)) =
      (Text.splitOn ',' y).flatMap fun option => expand (x ++ option ++ z) := by
  have hpos : (x ++ '\x7b' :: (y ++ '\x7d' :: z)).count '\x7b' ≠ 0 := by simp
  obtain ⟨bound, hbound⟩ := Nat.exists_eq_succ_of_ne_zero hpos
  rw [expand, hbound, expandWithin, group?_append hx hy]
  apply List.flatMap_congr
  intro option ho
  have hcount := count_alternative (x := x) (z := z) hy ho
  refine expandWithin_congr ?_ (Nat.le_refl _)
  show (x ++ option ++ z).count '\x7b' ≤ bound
  omega

/-- Induction on the expansion of a pattern. -/
@[elab_as_elim]
lemma inductionOnGroups {motive : Text → Prop} (t : Text)
    (plain : ∀ t, ¬ HasGroup t → motive t)
    (group : ∀ x y z, ¬ HasGroup x → IsBare y →
      (∀ option ∈ Text.splitOn ',' y, motive (x ++ option ++ z)) →
        motive (x ++ '\x7b' :: (y ++ '\x7d' :: z))) : motive t := by
  induction hn : t.count '\x7b' using Nat.strongRecOn generalizing t with
  | ind n ih =>
    subst hn
    cases hgroup : group? t with
    | none => exact plain t (group?_eq_none.1 hgroup)
    | some g =>
      obtain ⟨rfl, hbare, hbefore⟩ := eq_of_group? hgroup
      refine group _ _ _ hbefore hbare fun option ho => ih _ ?_ _ rfl
      exact Nat.lt_of_succ_le (Nat.le_of_eq (count_alternative hbare ho))

/-- No pattern that a pattern stands for has a group. -/
lemma not_hasGroup_of_mem_expand (h : s ∈ expand t) : ¬ HasGroup s := by
  induction t using inductionOnGroups with
  | plain t ht =>
    rw [expand_of_not_hasGroup ht, List.mem_singleton] at h
    exact h ▸ ht
  | group x y z hx hy ih =>
    rw [expand_group hx hy] at h
    obtain ⟨option, ho, h⟩ := List.mem_flatMap.1 h
    exact ih option ho h

/-! ### Products -/

/-- Braces are left open by one text after the other. -/
lemma leftOpen_append (depth : Nat) (s t : Text) :
    leftOpen depth (s ++ t) = leftOpen (leftOpen depth s) t := by
  induction s generalizing depth with
  | nil => rfl
  | cons c s ih => exact ih _

/-- A text without braces leaves none open, and closes none. -/
lemma leftOpen_of_isBare (h : IsBare t) (depth : Nat) : leftOpen depth t = depth := by
  induction t with
  | nil => rfl
  | cons c t ih =>
    obtain ⟨hopen, ht⟩ := not_or.1 (mt List.mem_cons.2 h.1)
    obtain ⟨hclose, ht'⟩ := not_or.1 (mt List.mem_cons.2 h.2)
    rw [leftOpen, if_neg (Ne.symm hopen), if_neg (Ne.symm hclose), ih ⟨ht, ht'⟩]

/-- Where no brace closes, no open brace is closed. -/
lemma le_leftOpen (h : '\x7d' ∉ t) (depth : Nat) : depth ≤ leftOpen depth t := by
  induction t generalizing depth with
  | nil => exact Nat.le_refl depth
  | cons c t ih =>
    obtain ⟨hclose, ht⟩ := not_or.1 (mt List.mem_cons.2 h)
    rw [leftOpen, if_neg (Ne.symm hclose)]
    refine Nat.le_trans ?_ (ih ht _)
    split <;> omega

/-- What is closed stays so with an alternative in the place of a group. -/
lemma IsClosed.alternative (h : IsClosed (x ++ '\x7b' :: (y ++ '\x7d' :: z))) (hy : IsBare y)
    {option : Text} (ho : option ∈ Text.splitOn ',' y) : IsClosed (x ++ option ++ z) := by
  have hoption : IsBare option :=
    ⟨fun hc => hy.1 (Text.mem_of_mem_splitOn ho hc), fun hc => hy.2 (Text.mem_of_mem_splitOn ho hc)⟩
  have hgroup : ∀ depth, leftOpen depth ('\x7b' :: (y ++ '\x7d' :: z)) = leftOpen depth z := by
    intro depth
    rw [leftOpen, if_pos rfl, leftOpen_append, leftOpen_of_isBare hy, leftOpen,
      if_neg (by decide), if_pos rfl, Nat.add_sub_cancel]
  unfold IsClosed at h ⊢
  rw [leftOpen_append, hgroup] at h
  rw [List.append_assoc, leftOpen_append, leftOpen_append, leftOpen_of_isBare hoption, h]

/-- In a closed text without a group no brace opens. -/
lemma IsClosed.not_mem (h : IsClosed t) (hgroup : ¬ HasGroup t) : '\x7b' ∉ t := by
  intro hopen
  obtain ⟨x, z, rfl⟩ := List.append_of_mem hopen
  have hclose : '\x7d' ∉ z := fun hmem => hgroup <| by
    obtain ⟨y, z, rfl⟩ := List.append_of_mem hmem
    exact ⟨x, y, z, rfl⟩
  unfold IsClosed at h
  rw [leftOpen_append, leftOpen, if_pos rfl] at h
  have hle := le_leftOpen hclose (leftOpen 0 x + 1)
  omega

/-- Where no brace opens the text stands before all patterns of what follows. -/
lemma expand_append_of_not_mem (hp : '\x7b' ∉ p) (q : Text) :
    expand (p ++ q) = (expand q).map (p ++ ·) := by
  induction q using inductionOnGroups with
  | plain q hq =>
    rw [expand_of_not_hasGroup hq, expand_of_not_hasGroup (mt (hasGroup_append_iff hp).1 hq)]
    rfl
  | group x y z hx hy ih =>
    rw [← List.append_assoc, expand_group (mt (hasGroup_append_iff hp).1 hx) hy,
      expand_group hx hy, List.map_flatMap]
    apply List.flatMap_congr
    intro option ho
    rw [← ih option ho]
    simp only [List.append_assoc]

/-- An append stands for the ordered product of the patterns of its parts, if each brace of the
first part is closed in it. -/
lemma expand_append (hp : IsClosed p) (q : Text) :
    expand (p ++ q) = (expand p).flatMap fun a => (expand q).map (a ++ ·) := by
  induction p using inductionOnGroups with
  | plain p hgroup =>
    rw [expand_of_not_hasGroup hgroup, List.flatMap_singleton,
      expand_append_of_not_mem (hp.not_mem hgroup)]
  | group x y z hx hy ih =>
    have happend : x ++ '\x7b' :: (y ++ '\x7d' :: z) ++ q =
        x ++ '\x7b' :: (y ++ '\x7d' :: (z ++ q)) := by simp
    rw [happend, expand_group hx hy, expand_group hx hy, List.flatMap_assoc]
    apply List.flatMap_congr
    intro option ho
    rw [← ih option ho (hp.alternative hy ho), List.append_assoc _ z q]

/-- **Expansion is the ordered product of alternatives.** If each brace of the first part of a
pattern is closed in it, the pattern stands for the patterns of the first part followed by those of
the second one, the first part varying slowest. A pattern without a group stands for itself, and a
group without braces inside for what is between its commas. The first such group is expanded first,
so that groups are expanded from the inside out, and no group is left. -/
theorem expand_is_product :
    (∀ p q, IsClosed p → expand (p ++ q) = (expand p).flatMap fun a => (expand q).map (a ++ ·)) ∧
    (∀ t, ¬ HasGroup t → expand t = [t]) ∧
    (∀ options : List Text, options ≠ [] → (∀ option ∈ options, ',' ∉ option ∧ IsBare option) →
      expand ('\x7b' :: (Text.join [','] options ++ ['\x7d'])) = options) ∧
    (∀ x y z, ¬ HasGroup x → IsBare y → expand (x ++ '\x7b' :: (y ++ '\x7d' :: z)) =
      (Text.splitOn ',' y).flatMap fun option => expand (x ++ option ++ z)) ∧
    ∀ t, ∀ s ∈ expand t, ¬ HasGroup s := by
  refine ⟨fun p q hp => expand_append hp q, fun t => expand_of_not_hasGroup,
    fun options hne hoptions => ?_, fun x y z hx hy => expand_group hx hy z,
    fun t s => not_hasGroup_of_mem_expand⟩
  -- a brace between the commas would be one of an alternative
  have hbare : IsBare (Text.join [','] options) := by
    have hnot : ∀ c, c ≠ ',' → (∀ option ∈ options, c ∉ option) → c ∉ Text.join [','] options := by
      intro c hc hall hmem
      rcases Text.mem_join hmem with hsep | ⟨option, ho, hmem⟩
      · exact hc (List.mem_singleton.1 hsep)
      · exact hall option ho hmem
    exact ⟨hnot _ (by decide) fun option ho => (hoptions option ho).2.1,
      hnot _ (by decide) fun option ho => (hoptions option ho).2.2⟩
  have hself : ∀ option ∈ options, expand ([] ++ option ++ []) = [option] := by
    intro option ho
    rw [List.nil_append, List.append_nil]
    exact expand_of_not_hasGroup (not_hasGroup_of_not_mem (hoptions option ho).2.1)
  have hgroup := expand_group (not_hasGroup_of_not_mem List.not_mem_nil) hbare []
  rw [Text.splitOn_join hne fun option ho => (hoptions option ho).1, List.flatMap_congr hself,
    List.flatMap_singleton'] at hgroup
  exact hgroup

/-- A group inside another one, with an empty alternative. -/
def nestedPattern : Text := "\x7ba,\x7bb,\x7d\x7d"

/-- A group between braces of which none closes another one. -/
def strayPattern : Text := "\x7d\x7bc,d\x7d\x7b"

/-- The inner group is expanded before the outer one, and stray braces stay. -/
theorem expand_is_product_nested :
    IsClosed nestedPattern ∧
      expand (nestedPattern ++ strayPattern) =
        (["a\x7dc\x7b", "a\x7dd\x7b", "b\x7dc\x7b", "b\x7dd\x7b", "a\x7dc\x7b", "a\x7dd\x7b",
          "\x7dc\x7b", "\x7dd\x7b"].map String.toList) ∧
      (∀ s ∈ expand (nestedPattern ++ strayPattern), ¬ HasGroup s) ∧
      expand "\x7d\x7b" = ["\x7d\x7b".toList] ∧
      expand "\x7bmd,html\x7d" = ["md".toList, "html".toList] := by
  obtain ⟨hproduct, hplain, hsingle, hfirst, hnone⟩ := expand_is_product
  have hclosed : IsClosed nestedPattern := by decide
  have hinner := hfirst "\x7ba," "b," "\x7d" (by decide) (by decide)
  have hnested : expand nestedPattern = ["a", "b", "a", ""].map String.toList :=
    hinner.trans (by decide)
  have hstray : expand strayPattern = ["\x7dc\x7b", "\x7dd\x7b"].map String.toList := by decide
  refine ⟨hclosed, ?_, hnone _, hplain _ (by decide), ?_⟩
  · rw [hproduct _ strayPattern hclosed, hnested, hstray]
    decide
  · exact hsingle ["md".toList, "html".toList] (by decide) (by decide)

end SiteAudit.Braces
