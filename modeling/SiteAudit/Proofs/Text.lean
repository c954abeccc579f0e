import Mathlib.Tactic.Common
import SiteAudit.Text.Basic

/-!
# Texts

What it means that a text begins or ends in some way or that another one occurs in it, and how a
text is cut into pieces and into lines.
-/

namespace SiteAudit.Text

/-- What is left after a beginning is the rest of the text. -/
lemma dropPrefix?_eq_some {p t rest : Text} : dropPrefix? p t = some rest ↔ t = p ++ rest := by
  induction p generalizing t with
  | nil => simp [dropPrefix?, eq_comm]
  | cons c p ih =>
    cases t with
    | nil => simp [dropPrefix?]
    | cons d t =>
      by_cases hc : c = d
      · subst hc
        simp [dropPrefix?, ih]
      · simp [dropPrefix?, hc, Ne.symm hc]

/-- A text begins so if it is the beginning followed by something. -/
lemma startsWith_iff {t start : Text} : startsWith t start = true ↔ ∃ rest, t = start ++ rest := by
  unfold startsWith
  rw [Option.isSome_iff_exists]
  simp only [dropPrefix?_eq_some]

/-- A text occurs in another one if that is something, the text and something. -/
lemma occursIn_iff {needle t : Text} :
    occursIn needle t = true ↔ ∃ x y, t = x ++ (needle ++ y) := by
  induction t with
  | nil =>
    rw [occursIn, List.isEmpty_iff]
    constructor
    · rintro rfl
      exact ⟨[], [], rfl⟩
    · rintro ⟨x, y, e⟩
      exact (List.append_eq_nil_iff.1 (List.append_eq_nil_iff.1 e.symm).2).1
  | cons c t ih =>
    rw [occursIn, Bool.or_eq_true, startsWith_iff, ih]
    constructor
    · rintro (⟨y, e⟩ | ⟨x, y, rfl⟩)
      · exact ⟨[], y, e⟩
      · exact ⟨c :: x, y, rfl⟩
    · rintro ⟨x, y, e⟩
      cases x with
      | nil => exact .inl ⟨y, e⟩
      | cons d x => exact .inr ⟨x, y, (List.cons.inj e).2⟩

/-- Two characters side by side stand in one of two parts, if the first one does not end a part. -/
lemma occursIn_pair_append {a b : Char} {x : Text} (hx : x.getLast? ≠ some a) (y : Text) :
    occursIn [a, b] (x ++ y) = (occursIn [a, b] x || occursIn [a, b] y) := by
  induction x with
  | nil => rfl
  | cons c x ih =>
    cases x with
    | nil =>
      have hc : c ≠ a := fun e => hx (e ▸ rfl)
      simp [occursIn, startsWith, dropPrefix?, hc.symm]
    | cons d x =>
      rw [List.getLast?_cons_cons] at hx
      have hstart : startsWith (c :: d :: (x ++ y)) [a, b] = startsWith (c :: d :: x) [a, b] := by
        unfold startsWith dropPrefix? dropPrefix? dropPrefix?
        split_ifs <;> rfl
      rw [List.cons_append, occursIn, occursIn, ih hx, List.cons_append, hstart, Bool.or_assoc]

/-- What does not hold a character is found at the start up to that character. -/
lemma startsWith_append_cons {start : Text} {c : Char} (hc : c ∉ start) (x y : Text) :
    startsWith (x ++ c :: y) start = startsWith x start := by
  unfold startsWith
  induction start generalizing x with
  | nil => rfl
  | cons d start ih =>
    obtain ⟨hd, hc⟩ := not_or.1 (mt List.mem_cons.2 hc)
    cases x with
    | nil =>
      rw [List.nil_append, dropPrefix?, dropPrefix?, if_neg (Ne.symm hd)]
    | cons e x =>
      rw [List.cons_append, dropPrefix?, dropPrefix?]
      split
      · exact ih hc x
      · rfl

/-- What does not hold a character is found on one of its sides. -/
lemma occursIn_append_cons {needle : Text} {c : Char} (hne : needle ≠ []) (hc : c ∉ needle)
    (x y : Text) : occursIn needle (x ++ c :: y) = (occursIn needle x || occursIn needle y) := by
  induction x with
  | nil =>
    have hstart : startsWith (c :: y) needle = startsWith [] needle :=
      startsWith_append_cons hc [] y
    obtain ⟨d, needle, rfl⟩ := List.exists_cons_of_ne_nil hne
    show (startsWith (c :: y) _ || occursIn _ y) = _
    rw [hstart]
    rfl
  | cons d x ih =>
    have hstart : startsWith (d :: (x ++ c :: y)) needle = startsWith (d :: x) needle :=
      startsWith_append_cons hc (d :: x) y
    rw [List.cons_append, occursIn, occursIn, ih, hstart, Bool.or_assoc]

/-- A text ends so if it is something followed by the ending. -/
lemma endsWith_iff {t ending : Text} : endsWith t ending = true ↔ ∃ z, t = z ++ ending := by
  unfold endsWith startsWith
  rw [Option.isSome_iff_exists]
  constructor
  · rintro ⟨rest, h⟩
    refine ⟨rest.reverse, ?_⟩
    rw [← List.reverse_inj, dropPrefix?_eq_some.1 h]
    simp
  · rintro ⟨z, rfl⟩
    exact ⟨z.reverse, dropPrefix?_eq_some.2 (by simp)⟩

/-- What stands before the first separator, and what stands after it. -/
lemma append_cons_inj {α : Type} {c : α} {s t x y : List α} (hs : c ∉ s) (ht : c ∉ t) :
    s ++ c :: x = t ++ c :: y ↔ s = t ∧ x = y := by
  induction s generalizing t with
  | nil =>
    cases t with
    | nil => simp
    | cons d t =>
      obtain ⟨hd, -⟩ := not_or.1 (mt List.mem_cons.2 ht)
      simp [hd]
  | cons d s ih =>
    obtain ⟨hd, hs⟩ := not_or.1 (mt List.mem_cons.2 hs)
    cases t with
    | nil => simp [Ne.symm hd]
    | cons e t =>
      obtain ⟨-, ht⟩ := not_or.1 (mt List.mem_cons.2 ht)
      simp [ih hs ht, and_assoc]

/-! ### Pieces -/

variable {sep : Char} {s t : Text}

/-- Induction on the pieces of a text, or of other data, between separators. -/
@[elab_as_elim]
lemma inductionOnPieces {α : Type} (seps : List α) {motive : List α → Prop} (t : List α)
    (piece : ∀ t, (∀ c ∈ seps, c ∉ t) → motive t)
    (append : ∀ s c t, c ∈ seps → (∀ d ∈ seps, d ∉ s) → motive t → motive (s ++ c :: t)) :
    motive t := by
  -- the piece that has been read so far goes along
  suffices h : ∀ s, (∀ d ∈ seps, d ∉ s) → motive (s ++ t) from h [] fun _ _ => List.not_mem_nil
  induction t with
  | nil =>
    intro s hs
    rw [List.append_nil]
    exact piece s hs
  | cons c t ih =>
    intro s hs
    by_cases hc : c ∈ seps
    · apply append s c t hc hs
      exact ih [] fun _ _ => List.not_mem_nil
    · rw [List.append_cons]
      apply ih
      intro d hd hmem
      rcases List.mem_append.1 hmem with hmem | hmem
      · exact hs d hd hmem
      · exact hc (List.mem_singleton.1 hmem ▸ hd)

/-- There is always a piece. -/
lemma splitOn_ne_nil (sep : Char) (t : Text) : splitOn sep t ≠ [] := by
  unfold splitOn
  split
  · exact List.cons_ne_nil _ _
  · split
    · exact List.cons_ne_nil _ _
    · split <;> exact List.cons_ne_nil _ _

/-- There is one piece more than there are separators. -/
lemma length_splitOn (sep : Char) (t : Text) : (splitOn sep t).length = t.count sep + 1 := by
  induction t with
  | nil => rfl
  | cons c t ih =>
    rw [splitOn]
    split
    · rename_i hc
      rw [List.length_cons, ih, hc, List.count_cons_self]
    · rename_i hc
      rw [List.count_cons_of_ne hc]
      split
      · exact absurd ‹_› (splitOn_ne_nil sep t)
      · rename_i hpieces
        rw [← ih, hpieces]
        rfl

/-- A text without the separator is a piece. -/
lemma splitOn_of_not_mem (h : sep ∉ t) : splitOn sep t = [t] := by
  induction t with
  | nil => rfl
  | cons c t ih =>
    obtain ⟨hc, ht⟩ := not_or.1 (mt List.mem_cons.2 h)
    rw [splitOn, if_neg (fun e => hc e.symm), ih ht]

/-- The first separator ends the first piece. -/
lemma splitOn_append (h : sep ∉ s) : splitOn sep (s ++ sep :: t) = s :: splitOn sep t := by
  induction s with
  | nil =>
    rw [List.nil_append, splitOn, if_pos rfl]
  | cons c s ih =>
    obtain ⟨hc, hs⟩ := not_or.1 (mt List.mem_cons.2 h)
    rw [List.cons_append, splitOn, if_neg (fun e => hc e.symm), ih hs]

/-- The pieces between separators hold what the text holds. -/
lemma mem_of_mem_splitOn {sep c : Char} {t piece : Text} (h : piece ∈ splitOn sep t)
    (hc : c ∈ piece) : c ∈ t := by
  induction t using inductionOnPieces [sep] with
  | piece t ht =>
    rw [splitOn_of_not_mem (ht sep List.mem_cons_self), List.mem_singleton] at h
    exact h ▸ hc
  | append s d t hd hs ih =>
    obtain rfl := List.mem_singleton.1 hd
    rw [splitOn_append (hs d List.mem_cons_self)] at h
    rcases List.mem_cons.1 h with rfl | h
    · exact List.mem_append_left _ hc
    · exact List.mem_append_right _ (List.mem_cons_of_mem d (ih h))

/-- The parts that are joined are the pieces between the separators. -/
lemma splitOn_join {parts : List Text} (hne : parts ≠ [])
    (h : ∀ part ∈ parts, sep ∉ part) : splitOn sep (join [sep] parts) = parts := by
  induction parts with
  | nil => exact absurd rfl hne
  | cons part parts ih =>
    obtain ⟨hpart, hparts⟩ := List.forall_mem_cons.1 h
    cases parts with
    | nil => exact splitOn_of_not_mem hpart
    | cons next parts =>
      have hjoin : join [sep] (part :: next :: parts) =
          part ++ sep :: join [sep] (next :: parts) := by
        simp [join]
      rw [hjoin, splitOn_append hpart, ih (List.cons_ne_nil next parts) hparts]

/-- What is joined holds what the parts and the separator hold. -/
lemma mem_join {c : Char} {sep : Text} {parts : List Text} (h : c ∈ join sep parts) :
    c ∈ sep ∨ ∃ part ∈ parts, c ∈ part := by
  fun_induction join sep parts with
  | case1 => cases h
  | case2 part => exact .inr ⟨part, List.mem_singleton_self part, h⟩
  | case3 part parts _ ih =>
    rcases List.mem_append.1 h with h | h
    · rcases List.mem_append.1 h with h | h
      · exact .inr ⟨part, List.mem_cons_self, h⟩
      · exact .inl h
    · exact (ih h).imp_right fun ⟨part, hpart, hc⟩ => ⟨part, List.mem_cons_of_mem _ hpart, hc⟩

/-- What is joined holds what its parts hold. -/
lemma mem_join_of_mem {c : Char} {sep part : Text} {parts : List Text} (hpart : part ∈ parts)
    (hc : c ∈ part) : c ∈ join sep parts := by
  fun_induction join sep parts with
  | case1 => cases hpart
  | case2 other => exact List.mem_singleton.1 hpart ▸ hc
  | case3 other parts _ ih =>
    rcases List.mem_cons.1 hpart with rfl | hpart
    · exact List.mem_append_left _ (List.mem_append_left _ hc)
    · exact List.mem_append_right _ (ih hpart)

/-! ### Lines -/

variable {x y : Text} {rest : List Text}

/-- A text that is not empty has lines. -/
lemma lines_ne_nil {t : Text} (ht : t ≠ []) : lines t ≠ [] := by
  unfold lines
  split
  · exact absurd rfl ht
  · exact List.cons_ne_nil _ _
  · split
    · exact List.cons_ne_nil _ _
    · split <;> exact List.cons_ne_nil _ _

/-- The lines of a text that does not begin with a carriage return. -/
lemma lines_eq {c : Char} (hc : c ≠ '\r') (t : Text) :
    lines (c :: t) = if isLineEnd c then [] :: lines t
      else match t, lines t with
        | _ :: _, line :: more => (c :: line) :: more
        | _, _ => [[c]] := by
  conv_lhs => unfold lines
  split
  · rename_i e
    cases e
  · rename_i e
    exact absurd (List.cons.inj e).1 hc
  · rename_i e
    obtain ⟨rfl, rfl⟩ := List.cons.inj e
    rfl

/-- A character belongs to the first line of what follows, or ends a line of its own. -/
lemma lines_cons {c : Char} {t line : Text} {more : List Text} (hc : c ≠ '\r')
    (ht : lines t = line :: more) :
    lines (c :: t) = if isLineEnd c then [] :: line :: more else (c :: line) :: more := by
  have hne : t ≠ [] := fun e => by
    rw [e] at ht
    cases ht
  obtain ⟨d, t, rfl⟩ := List.exists_cons_of_ne_nil hne
  rw [lines_eq hc, ht]

/-- Where the rest of a text begins with the end of a line, its lines come after that. -/
lemma lines_append (hx : '\r' ∉ x) (hy : lines y = [] :: rest) :
    lines (x ++ y) = lines (x ++ ['\n']) ++ rest := by
  induction x with
  | nil => exact hy
  | cons c x ih =>
    obtain ⟨hc, hx⟩ := not_or.1 (mt List.mem_cons.2 hx)
    obtain ⟨line, more, hlines⟩ := List.exists_cons_of_ne_nil
      (lines_ne_nil (List.append_ne_nil_of_right_ne_nil x (List.cons_ne_nil '\n' [])))
    have happend : lines (x ++ y) = line :: (more ++ rest) := by
      rw [ih hx, hlines, List.cons_append]
    rw [List.cons_append, List.cons_append, lines_cons (Ne.symm hc) hlines,
      lines_cons (Ne.symm hc) happend]
    split <;> rfl

/-- The end of the last line adds nothing to the lines, unless the text ends with one already. -/
lemma lines_append_feed (hx : '\r' ∉ x) :
    lines (x ++ ['\n']) = lines x ∨ lines (x ++ ['\n']) = lines x ++ [[]] := by
  induction x with
  | nil => exact .inr rfl
  | cons c x ih =>
    obtain ⟨hc, hx⟩ := not_or.1 (mt List.mem_cons.2 hx)
    rw [List.cons_append]
    cases hlines : lines x with
    | nil =>
      obtain rfl : x = [] := by
        by_contra hne
        exact lines_ne_nil hne hlines
      rw [List.nil_append, lines_eq (Ne.symm hc), lines_eq (Ne.symm hc)]
      split
      · exact .inr rfl
      · exact .inl rfl
    | cons line more =>
      rw [lines_cons (Ne.symm hc) hlines]
      rw [hlines] at ih
      rcases ih hx with ih | ih
      · rw [lines_cons (Ne.symm hc) ih]
        exact .inl rfl
      · rw [lines_cons (Ne.symm hc) ih]
        right
        split <;> rfl

/-- What holds no end of a line is a line up to the first one. -/
lemma lines_append_of_line (hx : ∀ c ∈ x, isLineEnd c = false) (hy : lines y = [] :: rest) :
    lines (x ++ y) = x :: rest := by
  induction x with
  | nil => exact hy
  | cons c x ih =>
    obtain ⟨hc, hx⟩ := List.forall_mem_cons.1 hx
    have hne : c ≠ '\r' := fun e => by
      rw [e] at hc
      cases hc
    rw [List.cons_append, lines_cons hne (ih hx), hc]
    rfl

end SiteAudit.Text
