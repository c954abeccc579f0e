import SiteAudit.Proofs.Matching

/-!
# The languages of expressions

An expression that does not look around has a language (`IsWord`), and from a place it leads over
the words of this language (`mem_reach_iff`). Between a caret and a dollar sign it is found in its
words, where a line feed at the end does not count (`search_whole`).
-/

namespace SiteAudit.Regex

variable {r : Regex} {p q m : Place} {u v w : Text}

/-! ### Places -/

/-- The text leads from the first place to the second one. -/
def Place.Leads (p : Place) (w : Text) (q : Place) : Prop :=
  p.rest = w ++ q.rest ∧ q.before = after p.before w

/-- What stands before a place is the last character before it. -/
lemma after_append (before : Option Char) (u v : Text) :
    after before (u ++ v) = after (after before u) v := by
  induction u generalizing before with
  | nil => rfl
  | cons c u ih => rw [List.cons_append, after_cons, ih, ← after_cons]

/-- The empty text leads nowhere else. -/
lemma leads_nil : p.Leads [] q ↔ q = p := by
  constructor
  · rintro ⟨hrest, hbefore⟩
    exact Place.mk.injEq .. ▸ ⟨hbefore, hrest.symm⟩
  · rintro rfl
    exact ⟨rfl, rfl⟩

/-- Two texts lead from place to place one after the other. -/
lemma leads_append : p.Leads (u ++ v) q ↔ ∃ m, p.Leads u m ∧ m.Leads v q := by
  constructor
  · rintro ⟨hrest, hbefore⟩
    rw [List.append_assoc] at hrest
    rw [after_append] at hbefore
    exact ⟨⟨after p.before u, v ++ q.rest⟩, ⟨hrest, rfl⟩, rfl, hbefore⟩
  · rintro ⟨m, ⟨hrest, hbefore⟩, hrest', hbefore'⟩
    refine ⟨?_, ?_⟩
    · rw [hrest, hrest', List.append_assoc]
    · rw [hbefore', hbefore, after_append]

/-- A step leads over one character that satisfies the condition. -/
lemma mem_step {condition : Char → Bool} :
    q ∈ p.step condition ↔ ∃ c, condition c = true ∧ p.Leads [c] q := by
  obtain ⟨before, rest⟩ := p
  cases rest with
  | nil =>
    refine iff_of_false List.not_mem_nil ?_
    rintro ⟨c, -, hrest, -⟩
    cases hrest
  | cons d rest =>
    have hstep : Place.step ⟨before, d :: rest⟩ condition =
        if condition d then [⟨some d, rest⟩] else [] := rfl
    rw [hstep, List.mem_ite_nil_right, List.mem_singleton]
    constructor
    · rintro ⟨hd, rfl⟩
      exact ⟨d, hd, rfl, rfl⟩
    · rintro ⟨c, hc, hrest, hbefore⟩
      cases hrest
      exact ⟨hc, Place.mk.injEq .. ▸ ⟨hbefore, rfl⟩⟩

/-! ### Words -/

/-- The expression does not ask what stands around a place. -/
def IsPlain : Regex → Bool
  | start | stop | finish | edge _ => false
  | both first second | either first second => first.IsPlain && second.IsPlain
  | many part => part.IsPlain
  | nothing | char _ | any | oneOf .. => true

/-- Does the class between brackets admit the character? -/
def admits (negated : Bool) (ranges : List (Char × Char)) (classes : List Char) (c : Char) : Bool :=
  (ranges.any (fun range => range.1 ≤ c && c ≤ range.2) || classes.any (inClass · c)) != negated

/-- The text is a word of the language of the expression. -/
def IsWord : Regex → Text → Prop
  | nothing, w => w = []
  | char c, w => w = [c]
  | any, w => ∃ c, w = [c] ∧ c ≠ '\n'
  | oneOf negated ranges classes, w => ∃ c, w = [c] ∧ admits negated ranges classes c = true
  | both first second, w => ∃ u v, w = u ++ v ∧ first.IsWord u ∧ second.IsWord v
  | either first second, w => first.IsWord w ∨ second.IsWord w
  | many part, w => ∃ pieces : List Text, w = pieces.flatten ∧ ∀ piece ∈ pieces, part.IsWord piece
  | start, _ | stop, _ | finish, _ | edge _, _ => False

/-- A repetition may be empty. -/
lemma mem_repeated_self (part : Place → List Place) (fuel : Nat) (p : Place) :
    p ∈ repeated part fuel p := by
  cases fuel with
  | zero => exact List.mem_singleton_self p
  | succ fuel => exact List.mem_cons_self

section Repetition

variable {part : Place → List Place} {IsPiece : Text → Prop}

/-- A repetition leads over pieces, one after the other. -/
lemma leads_of_mem_repeated (hpart : ∀ p q, q ∈ part p → ∃ w, IsPiece w ∧ p.Leads w q)
    {fuel : Nat} (h : q ∈ repeated part fuel p) :
    ∃ pieces : List Text, (∀ piece ∈ pieces, IsPiece piece) ∧ p.Leads pieces.flatten q := by
  induction fuel generalizing p with
  | zero => exact ⟨[], by simp, leads_nil.2 (List.mem_singleton.1 h)⟩
  | succ fuel ih =>
    rcases List.mem_cons.1 h with h | h
    · exact ⟨[], by simp, leads_nil.2 h⟩
    · obtain ⟨m, hm, hq⟩ := List.mem_flatMap.1 h
      obtain ⟨w, hw, hpm⟩ := hpart p m (List.mem_filter.1 hm).1
      obtain ⟨pieces, hpieces, hmq⟩ := ih hq
      refine ⟨w :: pieces, List.forall_mem_cons.2 ⟨hw, hpieces⟩, ?_⟩
      exact List.flatten_cons ▸ leads_append.2 ⟨m, hpm, hmq⟩

/-- A repetition gives up on parts that lead nowhere, and these are not missed. -/
lemma mem_repeated_of_leads (hpart : ∀ p w q, IsPiece w → p.Leads w q → q ∈ part p)
    {pieces : List Text} (hpieces : ∀ piece ∈ pieces, IsPiece piece)
    (h : p.Leads pieces.flatten q) {fuel : Nat} (hfuel : p.rest.length ≤ fuel) :
    q ∈ repeated part fuel p := by
  induction pieces generalizing p fuel with
  | nil => exact leads_nil.1 h ▸ mem_repeated_self part fuel p
  | cons w pieces ih =>
    obtain ⟨hw, hrest⟩ := List.forall_mem_cons.1 hpieces
    rw [List.flatten_cons] at h
    obtain ⟨m, hpm, hmq⟩ := leads_append.1 h
    cases w with
    | nil => exact ih hrest (leads_nil.1 hpm ▸ hmq) hfuel
    | cons c w =>
      have hshorter : m.rest.length < p.rest.length := by
        rw [hpm.1]
        simp only [List.length_append, List.length_cons]
        omega
      cases fuel with
      | zero => omega
      | succ fuel =>
        have hm : m ∈ (part p).filter (fun q => q.rest.length < p.rest.length) :=
          List.mem_filter.2 ⟨hpart p (c :: w) m hw hpm, decide_eq_true hshorter⟩
        exact List.mem_cons_of_mem _ (List.mem_flatMap.2 ⟨m, hm, ih hrest hmq (by omega)⟩)

end Repetition

/-- From a place an expression leads over the words of its language. -/
lemma mem_reach_iff (hr : r.IsPlain = true) :
    q ∈ r.reach p ↔ ∃ w, r.IsWord w ∧ p.Leads w q := by
  induction r generalizing p q with
  | nothing =>
    rw [reach, List.mem_singleton]
    simp [IsWord, leads_nil]
  | char c =>
    rw [reach, mem_step]
    simp [IsWord]
  | any =>
    rw [reach, mem_step]
    simp [IsWord]
  | oneOf negated ranges classes =>
    rw [reach, mem_step]
    simp [IsWord, admits]
  | start => cases hr
  | stop => cases hr
  | finish => cases hr
  | edge => cases hr
  | both first second ih ih' =>
    rw [IsPlain, Bool.and_eq_true] at hr
    rw [reach, List.mem_flatMap]
    constructor
    · rintro ⟨m, hm, hq⟩
      obtain ⟨u, hu, hpm⟩ := (ih hr.1).1 hm
      obtain ⟨v, hv, hmq⟩ := (ih' hr.2).1 hq
      exact ⟨u ++ v, ⟨u, v, rfl, hu, hv⟩, leads_append.2 ⟨m, hpm, hmq⟩⟩
    · rintro ⟨_, ⟨u, v, rfl, hu, hv⟩, h⟩
      obtain ⟨m, hpm, hmq⟩ := leads_append.1 h
      exact ⟨m, (ih hr.1).2 ⟨u, hu, hpm⟩, (ih' hr.2).2 ⟨v, hv, hmq⟩⟩
  | either first second ih ih' =>
    rw [IsPlain, Bool.and_eq_true] at hr
    rw [reach, List.mem_append, ih hr.1, ih' hr.2, ← exists_or]
    exact exists_congr fun w => or_and_right.symm
  | many part ih =>
    rw [reach]
    constructor
    · intro h
      obtain ⟨pieces, hpieces, hleads⟩ := leads_of_mem_repeated (fun p q => (ih hr).1) h
      exact ⟨pieces.flatten, ⟨pieces, rfl, hpieces⟩, hleads⟩
    · rintro ⟨_, ⟨pieces, rfl, hpieces⟩, hleads⟩
      exact mem_repeated_of_leads (fun p w q hw h => (ih hr).2 ⟨w, hw, h⟩) hpieces hleads le_rfl

/-! ### Sequences -/

/-- A sequence goes on where its first part has led. -/
lemma reach_sequence_append (first second : List Regex) (p : Place) :
    (sequence (first ++ second)).reach p =
      ((sequence first).reach p).flatMap (sequence second).reach := by
  induction first generalizing p with
  | nil =>
    show _ = [p].flatMap _
    rw [List.nil_append, List.flatMap_singleton]
  | cons r first ih =>
    rw [List.cons_append, reach_sequence_cons, reach_sequence_cons, List.flatMap_assoc]
    exact List.flatMap_congr fun m _ => ih m

/-- Before a dollar sign an expression leads to the end, or to a line feed there. -/
lemma mem_reach_before_stop {parts : List Regex} (h : (sequence parts).IsPlain = true) :
    q ∈ (sequence (parts ++ [stop])).reach p ↔
      ∃ w, (sequence parts).IsWord w ∧ p.Leads w q ∧ (q.rest = [] ∨ q.rest = ['\n']) := by
  rw [reach_sequence_append, List.mem_flatMap]
  constructor
  · rintro ⟨m, hm, hq⟩
    obtain ⟨w, hw, hleads⟩ := (mem_reach_iff h).1 hm
    obtain ⟨rfl, hend⟩ := mem_reach_stop.1 hq
    exact ⟨w, hw, hleads, hend⟩
  · rintro ⟨w, hw, hleads, hend⟩
    exact ⟨q, (mem_reach_iff h).2 ⟨w, hw, hleads⟩, mem_reach_stop.2 ⟨rfl, hend⟩⟩

/-- After a caret an expression matches from the start of the text or nowhere. -/
lemma search_after_start {parts : List Regex} {t : Text} :
    (sequence (start :: parts)).search t = true ↔ (sequence parts).reach ⟨none, t⟩ ≠ [] := by
  have hstart : ∀ p, (sequence (start :: parts)).reach p =
      if p.before.isNone then (sequence parts).reach p else [] := by
    rintro ⟨before, rest⟩
    rw [reach_sequence_cons, reach]
    cases before with
    | none => exact List.flatMap_singleton ..
    | some c => rfl
  unfold search
  rw [searchFrom_iff]
  constructor
  · rintro ⟨s, rest, rfl, hreach⟩
    rw [hstart] at hreach
    -- only at the start there is no character before
    cases s using List.reverseRecOn with
    | nil => exact hreach
    | append_singleton s c => simp [after] at hreach
  · intro hreach
    exact ⟨[], t, rfl, (hstart _).symm ▸ hreach⟩

/-- Between a caret and a dollar sign an expression is found in its words, where a line feed at the
end does not count. -/
lemma search_whole {parts : List Regex} (h : (sequence parts).IsPlain = true) {t : Text} :
    (sequence (start :: (parts ++ [stop]))).search t = true ↔
      ∃ w, (sequence parts).IsWord w ∧ (t = w ∨ t = w ++ ['\n']) := by
  rw [search_after_start]
  constructor
  · intro hreach
    obtain ⟨q, hq⟩ := List.exists_mem_of_ne_nil _ hreach
    obtain ⟨w, hw, ⟨hrest, -⟩, hend⟩ := (mem_reach_before_stop h).1 hq
    have ht : t = w ++ q.rest := hrest
    rw [ht]
    exact ⟨w, hw, hend.imp (fun e => by rw [e, List.append_nil]) fun e => by rw [e]⟩
  · rintro ⟨w, hw, ht⟩
    have hreach : ∀ more : Text, more = [] ∨ more = ['\n'] →
        (sequence (parts ++ [stop])).reach ⟨none, w ++ more⟩ ≠ [] := by
      intro more hmore
      have hleads : Place.Leads ⟨none, w ++ more⟩ w ⟨after none w, more⟩ := ⟨rfl, rfl⟩
      exact List.ne_nil_of_mem ((mem_reach_before_stop h).2 ⟨w, hw, hleads, hmore⟩)
    rcases ht with rfl | rfl
    · exact List.append_nil t ▸ hreach [] (.inl rfl)
    · exact hreach ['\n'] (.inr rfl)

/-- A word of a sequence is one of the first expression and one of the others. -/
lemma isWord_sequence_cons {rest : List Regex} :
    (sequence (r :: rest)).IsWord w ↔
      ∃ u v, w = u ++ v ∧ r.IsWord u ∧ (sequence rest).IsWord v := by
  cases rest with
  | nil => simp [sequence, IsWord]
  | cons r' rest => rfl

/-- A text that stands for itself, before other parts. -/
lemma isWord_sequence_literal {rest : List Regex} :
    (sequence (u.map char ++ rest)).IsWord w ↔ ∃ v, w = u ++ v ∧ (sequence rest).IsWord v := by
  induction u generalizing w with
  | nil => simp
  | cons c u ih =>
    rw [List.map_cons, List.cons_append, isWord_sequence_cons]
    constructor
    · rintro ⟨_, _, rfl, rfl, h⟩
      obtain ⟨v, rfl, hv⟩ := ih.1 h
      exact ⟨v, rfl, hv⟩
    · rintro ⟨v, rfl, hv⟩
      exact ⟨[c], u ++ v, rfl, rfl, ih.2 ⟨v, rfl, hv⟩⟩

/-! ### Classes -/

/-- The only character in a range from a character to itself. -/
lemma le_and_le_iff {c d : Char} : c ≤ d ∧ d ≤ c ↔ d = c := by
  constructor
  · exact fun h => Char.le_antisymm h.2 h.1
  · rintro rfl
    exact ⟨Char.le_refl d, Char.le_refl d⟩

variable {P : Char → Prop}

/-- The words of the expression are the characters that satisfy a condition. -/
def IsClass (r : Regex) (P : Char → Prop) : Prop := ∀ w, r.IsWord w ↔ ∃ c, w = [c] ∧ P c

/-- Repeated classes have the texts of their characters as words. -/
lemma IsClass.isWord_many (h : IsClass r P) : (many r).IsWord w ↔ ∀ c ∈ w, P c := by
  constructor
  · rintro ⟨pieces, rfl, hpieces⟩ c hc
    obtain ⟨piece, hpiece, hc⟩ := List.mem_flatten.1 hc
    obtain ⟨d, rfl, hd⟩ := (h piece).1 (hpieces piece hpiece)
    exact List.mem_singleton.1 hc ▸ hd
  · intro hw
    refine ⟨w.map fun c => [c], (List.flatMap_singleton' w).symm, ?_⟩
    intro piece hpiece
    obtain ⟨c, hc, rfl⟩ := List.mem_map.1 hpiece
    exact (h [c]).2 ⟨c, rfl, hw c hc⟩

/-- With a plus sign after it, a class stands for the texts of its characters but the empty one. -/
lemma IsClass.isWord_some (h : IsClass r P) :
    (both r (many r)).IsWord w ↔ w ≠ [] ∧ ∀ c ∈ w, P c := by
  constructor
  · rintro ⟨u, v, rfl, hu, hv⟩
    obtain ⟨c, rfl, hc⟩ := (h u).1 hu
    exact ⟨List.cons_ne_nil c v, List.forall_mem_cons.2 ⟨hc, h.isWord_many.1 hv⟩⟩
  · rintro ⟨hne, hw⟩
    obtain ⟨c, v, rfl⟩ := List.exists_cons_of_ne_nil hne
    obtain ⟨hc, hv⟩ := List.forall_mem_cons.1 hw
    exact ⟨[c], v, rfl, (h [c]).2 ⟨c, rfl, hc⟩, h.isWord_many.2 hv⟩

end SiteAudit.Regex
