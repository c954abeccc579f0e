import Mathlib.Data.List.Basic
import Mathlib.Tactic.Common
import SiteAudit.Proofs.Text
import SiteAudit.Replacement

/-!
# Passes of replacements

`Pass rules before t t'` says that one walk over `t` from left to right puts the substitutes of
`rules` for their targets and keeps all other characters. A replacement by itself makes such a pass
(`pass_apply`), and so do replacements that are made one after the other, as long as an earlier one
neither makes nor breaks a target of a later one (`Pass.comp`, `pass_applyAll`).

Whether a text can begin inside another one is decided by comparing the two (`mayBeginIn`), so that
the conditions on the replacements can be evaluated.
-/

namespace SiteAudit.Replacement

/-! ### Places in a text -/

/-- The character before the place after `t`, given the one before `t`. -/
def lastOr : Option Char → Text → Option Char
  | before, [] => before
  | _, c :: t => lastOr (some c) t

/-- Before the empty text stands what stands before it. -/
@[simp] lemma lastOr_nil (before : Option Char) : lastOr before [] = before := rfl

/-- The first character stands before what follows it. -/
@[simp] lemma lastOr_cons (before : Option Char) (c : Char) (t : Text) :
    lastOr before (c :: t) = lastOr (some c) t := rfl

/-- Of two texts the last character of the second one counts, if it has one. -/
@[simp] lemma lastOr_append (before : Option Char) (s t : Text) :
    lastOr before (s ++ t) = lastOr (lastOr before s) t := by
  induction s generalizing before with
  | nil => rfl
  | cons c s ih => exact ih (some c)

/-- After a character it does not matter what stood before. -/
lemma lastOr_of_ne {t : Text} (h : t ≠ []) (before : Option Char) :
    lastOr before t = lastOr none t := by
  cases t with
  | nil => exact absurd rfl h
  | cons c t => rfl

/-- The character before the place after `t` is the last one of `t`. -/
lemma lastOr_none (t : Text) : lastOr none t = t.getLast? := by
  rcases t.eq_nil_or_concat with rfl | ⟨s, c, rfl⟩
  · rfl
  · simp

/-- The end of a text is an edge. -/
@[simp] lemma isEdge_none : isEdge none = true := rfl

/-- The head of an append is an edge only if the head of a non-empty first part is one. -/
lemma isEdge_head_append {s t : Text} (h : s ≠ []) :
    isEdge (s ++ t).head? = isEdge s.head? := by
  cases s with
  | nil => exact absurd rfl h
  | cons c s => rfl

/-- A target occurs where the text goes on with it, between edges if it must be a word. -/
lemma occursAt_iff {r : Replacement} {before : Option Char} {t : Text} :
    r.occursAt before t = true ↔
      ∃ after, t = r.target ++ after ∧
        (r.wholeWord = true → isEdge before = true ∧ isEdge after.head? = true) := by
  unfold occursAt
  cases h : Text.dropPrefix? r.target t with
  | none =>
    constructor
    · intro hf
      cases hf
    · rintro ⟨after, e, _⟩
      rw [Text.dropPrefix?_eq_some.2 e] at h
      cases h
  | some after =>
    have e := Text.dropPrefix?_eq_some.1 h
    constructor
    · intro ho
      refine ⟨after, e, fun hw => ?_⟩
      simpa [hw] using ho
    · rintro ⟨after', e', ho⟩
      obtain rfl : after = after' := List.append_cancel_left (e.symm.trans e')
      cases hw : r.wholeWord with
      | false => rfl
      | true => simpa [hw] using ho hw

/-- Only the edge before a text matters for the edge after it. -/
lemma isEdge_lastOr_congr {b b' : Option Char} (h : isEdge b = isEdge b') (t : Text) :
    isEdge (lastOr b t) = isEdge (lastOr b' t) := by
  cases t with
  | nil => exact h
  | cons c t => rfl

/-- Only the edge before a place matters for what occurs there. -/
lemma occursAt_congr {r : Replacement} {b b' : Option Char} (h : isEdge b = isEdge b') (t : Text) :
    r.occursAt b t = r.occursAt b' t := by
  unfold occursAt
  rw [h]

/-! ### Where a text may begin -/

/-- May `s` begin where `t` begins, when more text follows `t`? If `s` must be a word, then not
before a character that goes on with it; and if `t` is `closed`, no word goes on after it. -/
def mayBegin (s : Text) (word closed : Bool) (t : Text) : Bool :=
  (s.isPrefixOf t && (!word || isEdge (t.drop s.length).head?))
    || (t.isPrefixOf s && (!closed || isEdge (s.drop t.length).head?))

/-- May `s` begin at some character of `t`, when `next` and more text follow `t`? -/
def mayBeginIn (s : Text) (word closed : Bool) (next : Text) : Text → Bool
  | [] => false
  | c :: t => mayBegin s word closed (c :: t ++ next) || mayBeginIn s word closed next t

/-- Where `s` cannot begin it does not occur, unless it must be a word and does not end as one. -/
lemma word_of_mayBegin {s t u after : Text} {word closed : Bool}
    (h : mayBegin s word closed t = false) (hc : closed = true → isEdge u.head? = true)
    (e : t ++ u = s ++ after) : word = true ∧ isEdge after.head? = false := by
  simp only [mayBegin, Bool.or_eq_false_iff, Bool.and_eq_false_iff, Bool.not_eq_false'] at h
  obtain ⟨h1, h2⟩ := h
  rcases List.append_eq_append_iff.1 e with ⟨z, hs, hu⟩ | ⟨z, ht, ha⟩
  · -- `s` reaches beyond `t`
    exfalso
    rcases h2 with h2 | h2
    · rw [List.isPrefixOf_iff_prefix.2 ⟨z, hs.symm⟩] at h2
      cases h2
    · have hz : isEdge z.head? = false := by simpa [hs] using h2.2
      have hu' := hc h2.1
      cases z with
      | nil => cases hz
      | cons c z =>
        rw [hu, isEdge_head_append (by simp), hz] at hu'
        cases hu'
  · rcases h1 with h1 | h1
    · rw [List.isPrefixOf_iff_prefix.2 ⟨z, ht.symm⟩] at h1
      cases h1
    · have hz : isEdge z.head? = false := by simpa [ht] using h1.2
      refine ⟨h1.1, ?_⟩
      cases z with
      | nil => cases hz
      | cons c z => rw [ha, isEdge_head_append (by simp), hz]

/-- A text that need not be a word does not occur where it cannot begin. -/
lemma not_append_of_mayBegin {s t u v : Text} (h : mayBegin s false false t = false) :
    t ++ u ≠ s ++ v := by
  intro e
  cases (word_of_mayBegin h (by simp) e).1

/-- A target does not occur where it cannot begin. -/
lemma occursAt_of_mayBegin {r : Replacement} {closed : Bool} {t u : Text}
    (h : mayBegin r.target r.wholeWord closed t = false)
    (hc : closed = true → isEdge u.head? = true) (before : Option Char) :
    r.occursAt before (t ++ u) = false := by
  rw [← Bool.not_eq_true]
  intro ho
  obtain ⟨after, e, hw⟩ := occursAt_iff.1 ho
  obtain ⟨hword, hend⟩ := word_of_mayBegin h hc e
  rw [(hw hword).2] at hend
  cases hend

/-- A text begins nowhere in another one if neither at its first character nor later. -/
lemma mayBeginIn_cons {s next t : Text} {word closed : Bool} {c : Char} :
    mayBeginIn s word closed next (c :: t) = false ↔
      mayBegin s word closed (c :: t ++ next) = false ∧
        mayBeginIn s word closed next t = false := by
  simp [mayBeginIn]

/-- What cannot begin in a text cannot begin at an end of it. -/
lemma mayBegin_of_mayBeginIn {s next t v : Text} {word closed : Bool}
    (h : mayBeginIn s word closed next (t ++ v) = false) (hv : v ≠ []) :
    mayBegin s word closed (v ++ next) = false := by
  induction t with
  | nil =>
    cases v with
    | nil => exact absurd rfl hv
    | cons c v => exact (mayBeginIn_cons.1 h).1
  | cons c t ih => exact ih (mayBeginIn_cons.1 h).2

/-! ### Passes -/

/-- One walk over a text that puts the substitutes of the rules for their targets. -/
inductive Pass (rules : List Replacement) : Option Char → Text → Text → Prop where
  | nil {before} :
    Pass rules before [] []
  | keep {before c t t'} :
    (∀ r ∈ rules, r.occursAt before (c :: t) = false) →
    Pass rules (some c) t t' →
    Pass rules before (c :: t) (c :: t')
  | swap {before r t t'} :
    r ∈ rules →
    r.occursAt before (r.target ++ t) = true →
    Pass rules (lastOr before r.target) t t' →
    Pass rules before (r.target ++ t) (r.substitute ++ t')

variable {rules : List Replacement}

/-- Only the edge before a text matters for a pass. -/
lemma Pass.before_congr {b b' t t'} (p : Pass rules b t t') (h : isEdge b = isEdge b') :
    Pass rules b' t t' := by
  induction p generalizing b' with
  | nil => exact .nil
  | keep fresh tail _ =>
    refine .keep (fun r hr => ?_) tail
    rw [← occursAt_congr h]
    exact fresh r hr
  | @swap b r t t' hr here tail ih =>
    refine .swap hr (by rw [← occursAt_congr h]; exact here) (ih ?_)
    cases r.target with
    | nil => exact h
    | cons c s => rfl

/-- What can become of a text that is not empty. -/
lemma Pass.cons_inv {b c t t'} (p : Pass rules b (c :: t) t') :
    (∃ t'', t' = c :: t'' ∧ (∀ r ∈ rules, r.occursAt b (c :: t) = false) ∧
        Pass rules (some c) t t'') ∨
      ∃ r ∈ rules, ∃ s s', c :: t = r.target ++ s ∧ t' = r.substitute ++ s' ∧
        r.occursAt b (c :: t) = true ∧ Pass rules (lastOr b r.target) s s' := by
  generalize e : c :: t = u at p
  cases p with
  | nil => cases e
  | keep fresh tail =>
    cases e
    exact .inl ⟨_, rfl, fresh, tail⟩
  | swap hr here tail => exact .inr ⟨_, hr, _, _, rfl, rfl, here, tail⟩

/-- A text of which no substitute can be a part was there before the pass. -/
lemma Pass.of_append {b x t t'}
    (hx : ∀ r ∈ rules, mayBeginIn r.substitute false false [] x = false)
    (p : Pass rules b t (x ++ t')) : ∃ s, t = x ++ s ∧ Pass rules (lastOr b x) s t' := by
  induction x generalizing b t with
  | nil => exact ⟨t, rfl, p⟩
  | cons c x ih =>
    generalize e : c :: x ++ t' = u at p
    cases p with
    | nil => cases e
    | keep fresh tail =>
      cases e
      obtain ⟨s, rfl, q⟩ := ih (fun r hr => (mayBeginIn_cons.1 (hx r hr)).2) tail
      exact ⟨s, rfl, q⟩
    | swap hr here tail =>
      -- the substitute would overlap the text
      have h := (mayBeginIn_cons.1 (hx _ hr)).1
      rw [List.append_nil] at h
      exact absurd e (not_append_of_mayBegin h)

/-- A text in which no target can begin stays there. -/
lemma Pass.keep_append {b x m s t'} {closed : Bool}
    (hx : ∀ r ∈ rules, mayBeginIn r.target r.wholeWord closed m x = false)
    (hc : closed = true → isEdge s.head? = true) (p : Pass rules b (x ++ (m ++ s)) t') :
    ∃ t'', t' = x ++ t'' ∧ Pass rules (lastOr b x) (m ++ s) t'' := by
  induction x generalizing b t' with
  | nil => exact ⟨t', rfl, p⟩
  | cons c x ih =>
    rcases p.cons_inv with ⟨t'', rfl, _, tail⟩ | ⟨r, hr, _, _, _, _, here, _⟩
    · obtain ⟨u, rfl, q⟩ := ih (fun r hr => (mayBeginIn_cons.1 (hx r hr)).2) tail
      exact ⟨u, rfl, q⟩
    · have h := occursAt_of_mayBegin (mayBeginIn_cons.1 (hx r hr)).1 hc b
      rw [List.append_assoc] at h
      cases h.symm.trans here

/-- What a replacement looks for and what it writes differ, and a word that goes on after the one
goes on after the other. -/
structure Proper (r : Replacement) : Prop where
  target_ne : r.target ≠ []
  substitute_ne : r.substitute ≠ []
  differ : mayBegin r.target false false r.substitute = false
  last : isEdge (lastOr none r.target) = isEdge (lastOr none r.substitute)
  head : isEdge r.target.head? = true → isEdge r.substitute.head? = true

/-- After the target there is an edge exactly if there is one after the substitute. -/
lemma Proper.isEdge_lastOr {r : Replacement} (h : r.Proper) (b b' : Option Char) :
    isEdge (lastOr b r.target) = isEdge (lastOr b' r.substitute) := by
  rw [lastOr_of_ne h.target_ne, lastOr_of_ne h.substitute_ne]
  exact h.last

/-- Nothing comes of nothing. -/
lemma Pass.nil_inv {b t'} (hp : ∀ r ∈ rules, r.Proper) (p : Pass rules b [] t') : t' = [] := by
  generalize e : ([] : Text) = t at p
  cases p with
  | nil => rfl
  | keep _ _ => cases e
  | swap hr _ _ => exact absurd (List.append_eq_nil_iff.1 e.symm).1 (hp _ hr).target_ne

/-- A pass leaves an edge at the start of a text. -/
lemma Pass.isEdge_head {b t t'} (hp : ∀ r ∈ rules, r.Proper) (p : Pass rules b t t')
    (h : isEdge t.head? = true) : isEdge t'.head? = true := by
  cases p with
  | nil => exact h
  | keep _ _ => exact h
  | swap hr _ _ =>
    rw [isEdge_head_append (hp _ hr).target_ne] at h
    rw [isEdge_head_append (hp _ hr).substitute_ne]
    exact (hp _ hr).head h

/-- A pass makes an edge at the start of a text only by a replacement there. -/
lemma Pass.isEdge_head_inv {b t t'} (hp : ∀ r ∈ rules, r.Proper) (p : Pass rules b t t')
    (h : isEdge t'.head? = true) :
    isEdge t.head? = true ∨
      ∃ r ∈ rules, isEdge r.target.head? = false ∧ isEdge r.substitute.head? = true ∧
        r.occursAt b t = true := by
  cases p with
  | nil => exact .inl h
  | keep _ _ => exact .inl h
  | @swap _ r _ _ hr here _ =>
    rw [isEdge_head_append (hp _ hr).substitute_ne] at h
    rw [isEdge_head_append (hp _ hr).target_ne]
    cases ht : isEdge r.target.head? with
    | true => exact .inl rfl
    | false => exact .inr ⟨r, hr, ht, h, here⟩

/-- A pass keeps the edge after a text. -/
lemma Pass.isEdge_lastOr {b b' t t'} (hp : ∀ r ∈ rules, r.Proper) (p : Pass rules b t t')
    (h : isEdge b = isEdge b') : isEdge (lastOr b t) = isEdge (lastOr b' t') := by
  induction p generalizing b' with
  | nil => exact h
  | keep _ _ ih => exact ih rfl
  | swap hr _ _ ih =>
    rw [lastOr_append, lastOr_append]
    exact ih ((hp _ hr).isEdge_lastOr _ _)

/-! ### One result -/

/-- No two targets begin at one place. -/
def Distinct (rules : List Replacement) : Prop :=
  ∀ r ∈ rules, ∀ u ∈ rules, r ≠ u → mayBegin r.target false false u.target = false

instance (rules : List Replacement) : Decidable (Distinct rules) :=
  inferInstanceAs (Decidable (∀ r ∈ rules, ∀ u ∈ rules, r ≠ u → _))

/-- What becomes of a text that begins with a target that occurs there. -/
lemma Pass.swap_inv {r : Replacement} {b t t'} (hp : ∀ r ∈ rules, r.Proper) (hd : Distinct rules)
    (hr : r ∈ rules) (here : r.occursAt b (r.target ++ t) = true)
    (p : Pass rules b (r.target ++ t) t') :
    ∃ t'', t' = r.substitute ++ t'' ∧ Pass rules (lastOr b r.target) t t'' := by
  generalize e : r.target ++ t = s at p
  cases p with
  | nil => exact absurd (List.append_eq_nil_iff.1 e).1 (hp r hr).target_ne
  | keep fresh _ =>
    rw [e] at here
    cases (fresh r hr).symm.trans here
  | @swap _ u t₀ t'' hu _ tail =>
    by_cases hru : r = u
    · subst hru
      obtain rfl := List.append_cancel_left e
      exact ⟨t'', rfl, tail⟩
    · exact absurd e.symm (not_append_of_mayBegin (hd r hr u hu hru))

/-- A pass has one result only. -/
lemma Pass.unique {b t t₁ t₂} (hp : ∀ r ∈ rules, r.Proper) (hd : Distinct rules)
    (p : Pass rules b t t₁) (q : Pass rules b t t₂) : t₁ = t₂ := by
  induction p generalizing t₂ with
  | nil => exact (q.nil_inv hp).symm
  | keep fresh tail ih =>
    rcases q.cons_inv with ⟨t'', rfl, -, tail'⟩ | ⟨r, hr, -, -, -, -, here, -⟩
    · rw [ih tail']
    · cases (fresh r hr).symm.trans here
  | swap hr here tail ih =>
    obtain ⟨t'', rfl, tail'⟩ := q.swap_inv hp hd hr here
    rw [ih tail']

/-! ### A single replacement -/

/-- Characters that are to be skipped are only walked over. -/
lemma applyFrom_skip (r : Replacement) (before : Option Char) (x t : Text) :
    r.applyFrom x.length before (x ++ t) = r.applyFrom 0 (lastOr before x) t := by
  induction x generalizing before with
  | nil => rfl
  | cons c x ih => exact ih (some c)

/-- A replacement makes a pass by itself. -/
lemma pass_applyFrom {r : Replacement} (h : r.target ≠ []) (before : Option Char) (t : Text) :
    Pass [r] before t (r.applyFrom 0 before t) := by
  -- after a match the function only counts down, which is the step of a pass all at once
  induction hn : t.length using Nat.strongRecOn generalizing before t with
  | ind n ih =>
    cases t with
    | nil => exact .nil
    | cons c t =>
      subst hn
      unfold applyFrom
      split
      · rename_i here
        obtain ⟨after, e, _⟩ := occursAt_iff.1 here
        obtain ⟨d, x, hx⟩ := List.exists_cons_of_ne_nil h
        rw [hx, List.cons_append, List.cons.injEq] at e
        obtain ⟨rfl, rfl⟩ := e
        have hskip : r.target.length - 1 = x.length := by simp [hx]
        have hshort : after.length < (c :: (x ++ after)).length := by
          rw [List.length_cons, List.length_append]
          omega
        have tail := ih after.length hshort (lastOr (some c) x) after rfl
        rw [hskip, applyFrom_skip]
        have e : c :: (x ++ after) = r.target ++ after := by rw [hx]; rfl
        rw [e] at here ⊢
        refine .swap (List.mem_singleton_self r) here ?_
        rw [hx]
        exact tail
      · rename_i here
        refine .keep (fun q hq => ?_) (ih t.length (by simp) (some c) t rfl)
        rw [List.mem_singleton.1 hq]
        exact Bool.eq_false_iff.2 here

/-- A replacement makes a pass by itself. -/
lemma pass_apply {r : Replacement} (h : r.target ≠ []) (t : Text) : Pass [r] none t (r.apply t) :=
  pass_applyFrom h none t

/-! ### Occurrences before and after a pass -/

/-- A target in which none of the rules can begin its own occurs after the pass as before. -/
lemma Pass.occursAt {u : Replacement} {b t t'} (hp : ∀ r ∈ rules, r.Proper)
    (hu : ∀ r ∈ rules, mayBeginIn r.target r.wholeWord false [] u.target = false)
    (p : Pass rules b t t') (h : u.occursAt b t = true) : u.occursAt b t' = true := by
  obtain ⟨after, rfl, hw⟩ := occursAt_iff.1 h
  obtain ⟨after', rfl, q⟩ := Pass.keep_append (m := []) hu (by simp) p
  refine occursAt_iff.2 ⟨after', rfl, fun hword => ?_⟩
  exact ⟨(hw hword).1, q.isEdge_head hp (hw hword).2⟩

/-- A target of which no substitute can be a part occurred before the pass, unless it was not a
word there and the text after it has been replaced. -/
lemma Pass.occursAt_inv {u : Replacement} {b t t'} (hp : ∀ r ∈ rules, r.Proper)
    (hu : ∀ r ∈ rules, mayBeginIn r.substitute false false [] u.target = false)
    (p : Pass rules b t t') (h : u.occursAt b t' = true) :
    u.occursAt b t = true ∨
      u.wholeWord = true ∧ isEdge b = true ∧
        ∃ r ∈ rules, isEdge r.target.head? = false ∧ isEdge r.substitute.head? = true ∧
          ∃ s, t = u.target ++ s ∧ r.occursAt (lastOr b u.target) s = true := by
  obtain ⟨after', rfl, hw⟩ := occursAt_iff.1 h
  obtain ⟨after, rfl, q⟩ := Pass.of_append hu p
  cases hword : u.wholeWord with
  | false =>
    refine .inl (occursAt_iff.2 ⟨after, rfl, fun hf => ?_⟩)
    rw [hword] at hf
    cases hf
  | true =>
    obtain ⟨hb, ha⟩ := hw hword
    rcases q.isEdge_head_inv hp ha with ha | ⟨r, hr, ht, hs, here⟩
    · exact .inl (occursAt_iff.2 ⟨after, rfl, fun _ => ⟨hb, ha⟩⟩)
    · exact .inr ⟨rfl, hb, r, hr, ht, hs, after, rfl, here⟩

/-! ### One replacement after another -/

/-- What `r` writes neither is a part of the target of `u` nor begins one. -/
structure Spares (r u : Replacement) : Prop where
  noPart : mayBeginIn r.substitute false false [] u.target = false
  noStart : mayBeginIn u.target u.wholeWord r.wholeWord [] r.substitute = false

/-- The target of `u` occurs after `r` has been replaced exactly where it occurred before. -/
structure Precedes (r u : Replacement) : Prop extends Spares r u where
  noTarget : mayBeginIn r.target r.wholeWord false [] u.target = false
  head : u.wholeWord = true → isEdge r.target.head? = isEdge r.substitute.head?

/-- Two passes one after the other are one pass. -/
lemma Pass.comp {r : Replacement} {b t m t'} (hr : r.Proper) (hp : ∀ u ∈ rules, u.Proper)
    (hu : ∀ u ∈ rules, Precedes r u) (p : Pass [r] b t m) (q : Pass rules b m t') :
    Pass (r :: rules) b t t' := by
  have hone : ∀ u ∈ [r], u.Proper := by simpa using hr
  -- a replacement takes its whole target at once, so the induction is on the length of the text
  induction hn : t.length using Nat.strongRecOn generalizing b t m t' with
  | ind n ih =>
    subst hn
    cases p with
    | nil =>
      rw [q.nil_inv hp]
      exact .nil
    | @keep _ c t m fresh tail =>
      have whole : Pass [r] b (c :: t) (c :: m) := .keep fresh tail
      rcases q.cons_inv with ⟨t'', rfl, fresh', tail'⟩ | ⟨u, mem, s, s', e, rfl, here, tail'⟩
      · refine .keep (fun u mem => ?_) (ih t.length (by simp) tail tail' rfl)
        rcases List.mem_cons.1 mem with rfl | mem
        · exact fresh u (List.mem_singleton_self u)
        · -- an occurrence before the first pass would be there after it
          rw [← Bool.not_eq_true]
          intro ho
          have ho' := whole.occursAt hone (by simpa using (hu u mem).noTarget) ho
          rw [fresh' u mem] at ho'
          cases ho'
      · rcases whole.occursAt_inv hone (by simpa using (hu u mem).noPart) here with
          ho | ⟨hword, _, v, hv, ht, hs, _⟩
        · -- the target of `u` stood in the text already, and `r` has left it alone
          rw [e] at whole
          obtain ⟨s₀, e₀, p₀⟩ := Pass.of_append (by simpa using (hu u mem).noPart) whole
          rw [e₀] at ho ⊢
          refine .swap (List.mem_cons_of_mem r mem) ho (ih s₀.length ?_ p₀ tail' rfl)
          rw [e₀, List.length_append]
          exact Nat.lt_add_of_pos_left (List.length_pos_of_ne_nil (hp u mem).target_ne)
        · -- `u` has not become a word by what `r` did to the text behind it
          obtain rfl := List.mem_singleton.1 hv
          rw [(hu u mem).head hword, hs] at ht
          cases ht
    | @swap _ v s m mem here tail =>
      -- no later rule can begin in what has been written, so that the second pass walks over it
      obtain rfl := List.mem_singleton.1 mem
      have hclosed : v.wholeWord = true → isEdge m.head? = true := by
        intro hword
        obtain ⟨after, e, hw⟩ := occursAt_iff.1 here
        rw [List.append_cancel_left e] at tail
        exact tail.isEdge_head hone (hw hword).2
      obtain ⟨t'', rfl, q'⟩ :=
        Pass.keep_append (m := []) (fun u mem => (hu u mem).noStart) hclosed q
      refine .swap (List.mem_cons_self ..) here (ih s.length ?_ tail ?_ rfl)
      · rw [List.length_append]
        exact Nat.lt_add_of_pos_left (List.length_pos_of_ne_nil hr.target_ne)
      · exact q'.before_congr (hr.isEdge_lastOr b b).symm

/-- A pass without rules keeps the text. -/
lemma pass_nil (before : Option Char) (t : Text) : Pass [] before t t := by
  induction t generalizing before with
  | nil => exact .nil
  | cons c t ih => exact .keep (fun _ h => absurd h List.not_mem_nil) (ih (some c))

/-- Replacements none of which disturbs a later one make one pass together. -/
theorem pass_applyAll (hp : ∀ r ∈ rules, r.Proper) (ho : rules.Pairwise Precedes) (t : Text) :
    Pass rules none t (applyAll rules t).1 := by
  induction rules generalizing t with
  | nil => exact pass_nil none t
  | cons r rules ih =>
    obtain ⟨hr, hp⟩ := List.forall_mem_cons.1 hp
    obtain ⟨hu, ho⟩ := List.pairwise_cons.1 ho
    exact Pass.comp hr hp hu (pass_apply hr.target_ne t) (ih hp ho (r.apply t))

end SiteAudit.Replacement
