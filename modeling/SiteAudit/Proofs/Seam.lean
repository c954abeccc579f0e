import SiteAudit.Proofs.Pass

/-!
# What passes leave

A text is free if no target occurs in it. Replacements leave a free text as it is
(`applyAll_of_isFree`). What a pass leaves is free unless there was a seam
(`Compatible.isFree_iff`): a word stood directly before a target that began with a character of a
word, and what has been put there begins with none. What occurs in the text that is left stands
where there was a seam, and divides the pass into two (`Pass.seam_of_occursAt`,
`Pass.occursAt_of_seam`). Whether a text is free can be decided on both sides of a separator
(`isFree_separator`).
-/

namespace SiteAudit.Replacement

variable {rules : List Replacement}

/-! ### Texts without targets -/

/-- Does the target of no rule occur anywhere in the text after the given character? -/
def isFree (rules : List Replacement) : Option Char → Text → Bool
  | _, [] => true
  | before, c :: t => rules.all (!·.occursAt before (c :: t)) && isFree rules (some c) t

/-- A text is free if no target occurs at its start or later. -/
lemma isFree_cons {b c t} :
    isFree rules b (c :: t) = true ↔
      (∀ r ∈ rules, r.occursAt b (c :: t) = false) ∧ isFree rules (some c) t = true := by
  simp [isFree]

/-- What is free of all targets is free of some of them. -/
lemma isFree_mono {some_ : List Replacement} (hsub : some_ ⊆ rules) {b t}
    (h : isFree rules b t = true) : isFree some_ b t = true := by
  induction t generalizing b with
  | nil => rfl
  | cons c t ih =>
    obtain ⟨hnow, hlater⟩ := isFree_cons.1 h
    exact isFree_cons.2 ⟨fun r hr => hnow r (hsub hr), ih hlater⟩

/-- A text is free if no target occurs at any place of it. -/
lemma isFree_iff_occursAt (hne : ∀ r ∈ rules, r.target ≠ []) {b t} :
    isFree rules b t = true ↔
      ∀ r ∈ rules, ∀ x y, t = x ++ y → r.occursAt (lastOr b x) y = false := by
  induction t generalizing b with
  | nil =>
    refine iff_of_true rfl fun r hr x y e => ?_
    obtain ⟨rfl, rfl⟩ := List.append_eq_nil_iff.1 e.symm
    rw [← Bool.not_eq_true, occursAt_iff]
    rintro ⟨after, e', -⟩
    exact hne r hr (List.append_eq_nil_iff.1 e'.symm).1
  | cons c t ih =>
    rw [isFree_cons, ih]
    constructor
    · rintro ⟨hnow, hlater⟩ r hr x y e
      cases x with
      | nil =>
        obtain rfl : c :: t = y := e
        exact hnow r hr
      | cons d x =>
        obtain ⟨rfl, htail⟩ := List.cons.inj e
        exact hlater r hr x y htail
    · intro h
      exact ⟨fun r hr => h r hr [] (c :: t) rfl,
        fun r hr x y e => h r hr (c :: x) y (by rw [e]; rfl)⟩

/-- In a text that goes on with a target which need not be a word, that target occurs. -/
lemma not_isFree_of_plain {r : Replacement} (hplain : r.wholeWord = false) (hne : r.target ≠ [])
    (b : Option Char) (x y : Text) : isFree [r] b (x ++ (r.target ++ y)) = false := by
  have here : r.occursAt (lastOr b x) (r.target ++ y) = true :=
    occursAt_iff.2 ⟨y, rfl, fun hword => by cases hplain.symm.trans hword⟩
  rw [← Bool.not_eq_true, isFree_iff_occursAt (List.forall_mem_singleton.2 hne)]
  intro h
  cases (h r (List.mem_singleton_self r) x _ rfl).symm.trans here

/-- Only the edge before a text matters for whether it is free. -/
lemma isFree_congr {b b'} (h : isEdge b = isEdge b') (t : Text) :
    isFree rules b t = isFree rules b' t := by
  cases t with
  | nil => rfl
  | cons c t =>
    simp only [isFree]
    congr 2
    funext r
    rw [occursAt_congr h]

/-- A replacement leaves a free text as it is. -/
lemma apply_of_isFree {r : Replacement} {t : Text} (hr : r ∈ rules)
    (h : isFree rules none t = true) : r.apply t = t := by
  suffices ∀ b, isFree rules b t = true → r.applyFrom 0 b t = t from this none h
  clear h
  induction t with
  | nil => exact fun _ _ => rfl
  | cons c t ih =>
    intro b h
    obtain ⟨hnow, hlater⟩ := isFree_cons.1 h
    rw [applyFrom, hnow r hr, ih _ hlater]
    rfl

/-- Replacements leave a free text as it is, and none of them changes it. -/
lemma applyAll_of_isFree {t : Text} (h : isFree rules none t = true) :
    applyAll rules t = (t, []) := by
  suffices ∀ some_ ⊆ rules, applyAll some_ t = (t, []) from this rules (List.Subset.refl rules)
  intro some_ hsub
  induction some_ with
  | nil => rfl
  | cons r some_ ih =>
    obtain ⟨hr, hsub⟩ := List.cons_subset.1 hsub
    simp only [applyAll, apply_of_isFree hr h, ih hsub, if_true]

/-- A pass that leaves a text as it is has found nothing in it. -/
lemma Pass.isFree_of_eq {b t t'} (hp : ∀ r ∈ rules, r.Proper) (p : Pass rules b t t')
    (h : t' = t) : isFree rules b t = true := by
  induction p with
  | nil => rfl
  | keep fresh _ ih => exact isFree_cons.2 ⟨fresh, ih (List.cons.inj h).2⟩
  | swap hr _ _ _ => exact absurd h (not_append_of_mayBegin (hp _ hr).differ)

/-- What has fired is told replacement by replacement. -/
lemma fired_cons (r : Replacement) (rules : List Replacement) (t : Text) :
    (applyAll (r :: rules) t).2 =
      if r.apply t = t then (applyAll rules (r.apply t)).2
      else r.id :: (applyAll rules (r.apply t)).2 := rfl

/-- If no replacement is told to have changed a text, then none has. -/
lemma applyAll_of_fired_eq_nil {t : Text} (h : (applyAll rules t).2 = []) :
    (applyAll rules t).1 = t := by
  induction rules generalizing t with
  | nil => rfl
  | cons r rules ih =>
    rw [fired_cons] at h
    split at h
    · rename_i hsame
      exact (ih h).trans hsame
    · cases h

/-! ### Seams -/

/-- A target of `r` directly after one of `u` is not at an edge of a word, but its substitute is. -/
def Joins (u r : Replacement) : Prop :=
  u.wholeWord = true ∧ isEdge r.target.head? = false ∧ isEdge r.substitute.head? = true

instance (u r : Replacement) : Decidable (Joins u r) := inferInstanceAs (Decidable (_ ∧ _ ∧ _))

/-- Somewhere in the text a target begins as a word and goes on with another target that is replaced
by something that does not go on with the word. -/
def HasSeam (rules : List Replacement) (b : Option Char) (t : Text) : Prop :=
  ∃ u ∈ rules, ∃ r ∈ rules, Joins u r ∧
    ∃ x y, t = x ++ (u.target ++ y) ∧ isEdge (lastOr b x) = true ∧
      r.occursAt (lastOr b (x ++ u.target)) y = true

/-- No target can begin at a seam of `u` and `r` but that of `r`, and none reaches into it. -/
structure Intact (rules : List Replacement) (u r : Replacement) : Prop where
  inside : ∀ q ∈ rules, mayBeginIn q.target q.wholeWord false r.target u.target = false
  rival : ∀ q ∈ rules, isEdge q.substitute.head? = true ∨
    mayBegin q.target q.wholeWord false r.target = false
  across : ∀ q ∈ rules, mayBeginIn (u.target ++ r.target) false false [] q.target.tail = false

/-- Replacements that make one pass when they are applied in their order, and disturb one another
only at seams. -/
structure Compatible (rules : List Replacement) : Prop where
  proper : ∀ r ∈ rules, r.Proper
  spares : ∀ r ∈ rules, ∀ u ∈ rules, Spares r u
  ordered : rules.Pairwise Precedes
  intact : ∀ u ∈ rules, ∀ r ∈ rules, Joins u r → Intact rules u r
  distinct : Distinct rules
  /-- What must be a word ends as one. -/
  ends : ∀ r ∈ rules, r.wholeWord = true → isEdge (lastOr none r.target) = false

/-- A target that occurs in a text that ends at an edge occurs when more text follows. -/
lemma Compatible.occursAt_append {r : Replacement} {b x y} (h : Compatible rules) (hr : r ∈ rules)
    (hx : isEdge (lastOr b x) = true) (here : r.occursAt b x = true) :
    r.occursAt b (x ++ y) = true := by
  obtain ⟨after, rfl, hw⟩ := occursAt_iff.1 here
  refine occursAt_iff.2 ⟨after ++ y, by rw [List.append_assoc], fun hword => ⟨(hw hword).1, ?_⟩⟩
  cases after with
  | nil =>
    -- the word would end with the text, and not at an edge
    rw [List.append_nil, lastOr_of_ne (h.proper r hr).target_ne, h.ends r hr hword] at hx
    cases hx
  | cons c after => exact (hw hword).2

/-- A target that occurs occurs when less text follows. -/
lemma occursAt_of_append {r : Replacement} {b x y}
    (here : r.occursAt b (r.target ++ (x ++ y)) = true) : r.occursAt b (r.target ++ x) = true := by
  obtain ⟨after, e, hw⟩ := occursAt_iff.1 here
  obtain rfl := List.append_cancel_left e
  refine occursAt_iff.2 ⟨x, rfl, fun hword => ⟨(hw hword).1, ?_⟩⟩
  cases x with
  | nil => rfl
  | cons c x => exact (hw hword).2

/-- A substitute that a word must not go on after stands before an edge. -/
lemma isEdge_of_swap {r : Replacement} {b s s'} (hp : ∀ r ∈ rules, r.Proper)
    (here : r.occursAt b (r.target ++ s) = true) (p : Pass rules (lastOr b r.target) s s') :
    r.wholeWord = true → isEdge s'.head? = true := by
  intro hword
  obtain ⟨after, e, hw⟩ := occursAt_iff.1 here
  obtain rfl := List.append_cancel_left e
  exact p.isEdge_head hp (hw hword).2

/-- What occurs after a pass stood in the text before it, at a seam: the pass is one of what stood
before the seam, and one of what follows. -/
lemma Pass.seam_of_occursAt (h : Compatible rules) {u : Replacement} (hu : u ∈ rules) {b t x' s'}
    (p : Pass rules b t (x' ++ s')) (ho : u.occursAt (lastOr b x') s' = true) :
    ∃ x s, t = x ++ (u.target ++ s) ∧ Pass rules b x x' ∧
      Pass rules (lastOr b x) (u.target ++ s) s' ∧ isEdge (lastOr b x) = true ∧
      ∃ r ∈ rules, Joins u r ∧ r.occursAt (lastOr b (x ++ u.target)) s = true := by
  generalize e : x' ++ s' = t' at p
  induction p generalizing x' with
  | nil =>
    obtain ⟨after, e', -⟩ := occursAt_iff.1 ho
    rw [(List.append_eq_nil_iff.1 e).2] at e'
    exact absurd (List.append_eq_nil_iff.1 e'.symm).1 (h.proper u hu).target_ne
  | @keep b c t t' fresh tail ih =>
    cases x' with
    | nil =>
      -- it did not occur here before the pass, so that it has only become a word by it
      obtain rfl : s' = c :: t' := e
      have whole := Pass.keep fresh tail
      have hpart : ∀ r ∈ rules, _ := fun r hr => (h.spares r hr u hu).noPart
      rcases whole.occursAt_inv h.proper hpart ho with
        ho | ⟨hword, hb, r, hr, ht, hs, s, e, here⟩
      · cases (fresh u hu).symm.trans ho
      · rw [e] at whole
        exact ⟨[], s, e, .nil, whole, hb, r, hr, ⟨hword, ht, hs⟩, here⟩
    | cons d x' =>
      obtain ⟨rfl, htail⟩ := List.cons.inj e
      obtain ⟨x, s, rfl, before, after, hb, hseam⟩ := ih ho htail
      refine ⟨d :: x, s, rfl, .keep (fun q hq => ?_) before, after, hb, hseam⟩
      rw [← Bool.not_eq_true]
      intro hq'
      cases (fresh q hq).symm.trans (h.occursAt_append (x := d :: x) hq hb hq')
  | @swap b q s₀ s₀' hq here tail ih =>
    -- it lies after what has been written, since it cannot begin there
    have hafter : ∃ z, x' = q.substitute ++ z ∧ s₀' = z ++ s' := by
      rcases List.append_eq_append_iff.1 e with ⟨z, hz, hs⟩ | hlater
      · cases z with
        | nil => exact ⟨[], by simpa using hz.symm, hs.symm⟩
        | cons c z =>
          exfalso
          have hstart := (h.spares q hq u hu).noStart
          rw [hz] at hstart
          have hnot := mayBegin_of_mayBeginIn hstart (List.cons_ne_nil c z)
          rw [List.append_nil] at hnot
          rw [hs, occursAt_of_mayBegin hnot (isEdge_of_swap h.proper here tail)] at ho
          cases ho
      · exact hlater
    obtain ⟨z, rfl, hz⟩ := hafter
    have hedge := isEdge_lastOr_congr ((h.proper q hq).isEdge_lastOr b b) z
    rw [lastOr_append, ← occursAt_congr hedge] at ho
    obtain ⟨x, s, rfl, before, after, hb, hseam⟩ := ih ho hz.symm
    rw [← lastOr_append] at after hb
    refine ⟨q.target ++ x, s, by rw [List.append_assoc],
      .swap hq (occursAt_of_append here) before, after, hb, ?_⟩
    rw [List.append_assoc, lastOr_append]
    exact hseam

/-- At a seam a pass is one of what stands before, and one of what follows. -/
lemma Pass.split_seam (h : Compatible rules) {u r : Replacement} (hu : u ∈ rules) (hr : r ∈ rules)
    (hj : Joins u r) {b x y t'} (p : Pass rules b (x ++ (u.target ++ y)) t')
    (hb : isEdge (lastOr b x) = true) (here : r.occursAt (lastOr b (x ++ u.target)) y = true) :
    ∃ x' s', t' = x' ++ s' ∧ Pass rules b x x' ∧ Pass rules (lastOr b x) (u.target ++ y) s' := by
  have hi := h.intact u hu r hr hj
  generalize e : x ++ (u.target ++ y) = t at p
  induction p generalizing x with
  | nil =>
    have h' := (List.append_eq_nil_iff.1 (List.append_eq_nil_iff.1 e).2).1
    exact absurd h' (h.proper u hu).target_ne
  | @keep b c t t' fresh tail ih =>
    cases x with
    | nil =>
      have whole := Pass.keep fresh tail
      rw [← e] at whole
      exact ⟨[], c :: t', rfl, .nil, whole⟩
    | cons d x =>
      obtain ⟨rfl, rfl⟩ := List.cons.inj e
      obtain ⟨x', s', rfl, before, after⟩ := ih hb here rfl
      refine ⟨d :: x', s', rfl, .keep (fun q hq => ?_) before, after⟩
      rw [← Bool.not_eq_true]
      intro hq'
      cases (fresh q hq).symm.trans (h.occursAt_append (x := d :: x) hq hb hq')
  | @swap b q s s' hq there tail ih =>
    obtain ⟨w, hw, _⟩ := occursAt_iff.1 here
    -- the seam lies after what has been replaced, since no target reaches into it
    have hafter : ∃ z, x = q.target ++ z ∧ s = z ++ (u.target ++ y) := by
      rcases List.append_eq_append_iff.1 e with ⟨z, hz, hs⟩ | hlater
      · cases z with
        | nil => exact ⟨[], by simpa using hz.symm, hs.symm⟩
        | cons d z =>
          exfalso
          cases x with
          | nil =>
            -- it would begin where the seam does
            have hnot := mayBegin_of_mayBeginIn (t := []) (hi.inside q hq) (h.proper u hu).target_ne
            have ho := occursAt_of_mayBegin (u := w) hnot (by simp) b
            rw [List.append_assoc, ← hw, show u.target ++ y = q.target ++ s from e] at ho
            cases ho.symm.trans there
          | cons c x =>
            -- the two targets of the seam would go on with the end of it
            have hacross := hi.across q hq
            rw [hz, List.cons_append, List.tail_cons] at hacross
            have hnot := mayBegin_of_mayBeginIn hacross (List.cons_ne_nil d z)
            rw [List.append_nil] at hnot
            refine not_append_of_mayBegin hnot (u := s) (v := w) ?_
            rw [← hs, hw, List.append_assoc]
      · exact hlater
    obtain ⟨z, rfl, rfl⟩ := hafter
    rw [lastOr_append] at hb
    rw [List.append_assoc, lastOr_append] at here
    obtain ⟨x', s', rfl, before, after⟩ := ih hb here rfl
    rw [← lastOr_append] at after
    exact ⟨q.substitute ++ x', s', by rw [List.append_assoc],
      .swap hq (occursAt_of_append there) before, after⟩

/-- A pass turns a seam at the start of a text into an occurrence. -/
lemma Pass.occursAt_head_of_seam {u r : Replacement} {b y t'} (hp : ∀ r ∈ rules, r.Proper)
    (hi : Intact rules u r) (hr : r ∈ rules) (hb : isEdge b = true)
    (here : r.occursAt (lastOr b u.target) y = true) (p : Pass rules b (u.target ++ y) t') :
    u.occursAt b t' = true := by
  obtain ⟨z, rfl, _⟩ := occursAt_iff.1 here
  -- the first target of the seam is left alone, and what stands behind it now begins no word
  obtain ⟨t'', rfl, q⟩ := p.keep_append hi.inside (by simp)
  refine occursAt_iff.2 ⟨t'', rfl, fun _ => ⟨hb, ?_⟩⟩
  obtain ⟨c, s, hc⟩ := List.exists_cons_of_ne_nil (hp r hr).target_ne
  rw [hc] at q here
  rcases q.cons_inv with ⟨_, _, fresh, _⟩ | ⟨v, hv, _, s', _, rfl, there, _⟩
  · cases (fresh r hr).symm.trans here
  · rcases hi.rival v hv with he | hnone
    · rw [isEdge_head_append (hp v hv).substitute_ne]
      exact he
    · rw [hc] at hnone
      cases (occursAt_of_mayBegin hnone (by simp) _).symm.trans there

/-- A pass turns a seam anywhere in a text into an occurrence. -/
lemma Pass.occursAt_of_seam (h : Compatible rules) {u r : Replacement} (hu : u ∈ rules)
    (hr : r ∈ rules) (hj : Joins u r) {b x y t'} (p : Pass rules b (x ++ (u.target ++ y)) t')
    (hb : isEdge (lastOr b x) = true) (here : r.occursAt (lastOr b (x ++ u.target)) y = true) :
    ∃ x' s', t' = x' ++ s' ∧ Pass rules b x x' ∧ Pass rules (lastOr b x) (u.target ++ y) s' ∧
      u.occursAt (lastOr b x') s' = true := by
  obtain ⟨x', s', rfl, before, after⟩ := p.split_seam h hu hr hj hb here
  refine ⟨x', s', rfl, before, after, ?_⟩
  rw [← occursAt_congr (before.isEdge_lastOr h.proper rfl)]
  rw [lastOr_append] at here
  exact after.occursAt_head_of_seam h.proper (h.intact u hu r hr hj) hr hb here

/-- What compatible replacements leave is free of all targets exactly if there was no seam. -/
theorem Compatible.isFree_iff (h : Compatible rules) (t : Text) :
    isFree rules none (applyAll rules t).1 = true ↔ ¬ HasSeam rules none t := by
  have p := pass_applyAll h.proper h.ordered t
  rw [isFree_iff_occursAt fun r hr => (h.proper r hr).target_ne]
  constructor
  · rintro hfree ⟨u, hu, r, hr, hj, x, y, rfl, hb, here⟩
    obtain ⟨x', s', e, -, -, ho⟩ := p.occursAt_of_seam h hu hr hj hb here
    cases (hfree u hu x' s' e).symm.trans ho
  · intro hseam u hu x' s' e
    rw [← Bool.not_eq_true]
    intro ho
    rw [e] at p
    obtain ⟨x, s, e, -, -, hb, r, hr, hj, here⟩ := p.seam_of_occursAt h hu ho
    exact hseam ⟨u, hu, r, hr, hj, x, s, e, hb, here⟩

/-- Nothing is left of a target that need not be a word. -/
lemma Compatible.isFree_of_plain (h : Compatible rules) {u : Replacement} (hu : u ∈ rules)
    (hplain : u.wholeWord = false) (t : Text) : isFree [u] none (applyAll rules t).1 = true := by
  have hone : ∀ r ∈ [u], r.target ≠ [] := List.forall_mem_singleton.2 (h.proper u hu).target_ne
  rw [isFree_iff_occursAt hone]
  refine List.forall_mem_singleton.2 fun x' s' e => ?_
  rw [← Bool.not_eq_true]
  intro ho
  have p := pass_applyAll h.proper h.ordered t
  rw [e] at p
  obtain ⟨-, -, -, -, -, -, r, -, ⟨hword, -, -⟩, -⟩ := p.seam_of_occursAt h hu ho
  cases hplain.symm.trans hword

/-! ### Separators -/

/-- The character belongs neither to a word nor to a target. -/
def IsSeparator (rules : List Replacement) (c : Char) : Prop :=
  Text.isWordChar c = false ∧ ∀ r ∈ rules, c ∉ r.target

instance (c : Char) : Decidable (IsSeparator rules c) := inferInstanceAs (Decidable (_ ∧ _))

/-- Beside a separator there is an edge. -/
lemma IsSeparator.isEdge {c : Char} (h : IsSeparator rules c) :
    isEdge (some c) = isEdge none := by
  simp [Replacement.isEdge, h.1]

/-- What occurs before a separator occurs without what follows. -/
lemma occursAt_separator {r : Replacement} {c : Char} (hr : r ∈ rules)
    (hc : IsSeparator rules c) (b : Option Char) (x y : Text) :
    r.occursAt b (x ++ c :: y) = r.occursAt b x := by
  rw [Bool.eq_iff_iff, occursAt_iff, occursAt_iff]
  constructor
  · rintro ⟨after, e, hw⟩
    -- a target that went on beyond the separator would hold it
    rcases List.append_eq_append_iff.1 e with ⟨z, hx, hz⟩ | ⟨z, hx, hz⟩
    · cases z with
      | nil => exact ⟨[], by simp [hx], fun h => ⟨(hw h).1, rfl⟩⟩
      | cons d z =>
        obtain ⟨rfl, _⟩ := List.cons.inj hz
        refine absurd ?_ (hc.2 r hr)
        rw [hx]
        exact List.mem_append_right x (List.mem_cons_self ..)
    · refine ⟨z, hx, fun h => ⟨(hw h).1, ?_⟩⟩
      cases z with
      | nil => rfl
      | cons d z =>
        rw [hz] at hw
        exact (hw h).2
  · rintro ⟨after, rfl, hw⟩
    refine ⟨after ++ c :: y, by rw [List.append_assoc], fun h => ⟨(hw h).1, ?_⟩⟩
    cases after with
    | nil => exact hc.isEdge
    | cons d after => exact (hw h).2

/-- A text with a separator is free exactly if both sides are. -/
lemma isFree_separator {c : Char} (hp : ∀ r ∈ rules, r.Proper) (hc : IsSeparator rules c)
    (b : Option Char) (x y : Text) :
    isFree rules b (x ++ c :: y) = (isFree rules b x && isFree rules none y) := by
  induction x generalizing b with
  | nil =>
    have hall : rules.all (!·.occursAt b (c :: y)) = true := by
      refine List.all_eq_true.2 fun r hr => ?_
      have h := occursAt_separator hr hc b [] y
      have hnil : r.occursAt b [] = false := by
        rw [← Bool.not_eq_true, occursAt_iff]
        rintro ⟨after, e, _⟩
        exact (hp r hr).target_ne (List.append_eq_nil_iff.1 e.symm).1
      rw [show c :: y = [] ++ c :: y from rfl, h, hnil]
      rfl
    simp only [List.nil_append, isFree, hall, Bool.true_and]
    exact isFree_congr hc.isEdge y
  | cons d x ih =>
    have hall : rules.all (!·.occursAt b (d :: (x ++ c :: y))) =
        rules.all (!·.occursAt b (d :: x)) := by
      rw [Bool.eq_iff_iff, List.all_eq_true, List.all_eq_true]
      refine forall₂_congr fun r hr => ?_
      rw [← List.cons_append, occursAt_separator hr hc]
    rw [List.cons_append, isFree, hall, ih (some d), isFree, Bool.and_assoc]

end SiteAudit.Replacement
