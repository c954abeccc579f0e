import Mathlib.Data.List.Infix
import Mathlib.Tactic.Common
import SiteAudit.Glob
import SiteAudit.Regex

/-!
# What expressions and patterns match

An expression that is a literal text matches where that text occurs (`search_literal`), and one that
ends with a dollar sign where the text ends so (`search_literal_stop`). A pattern that is a literal
text matches that name (`matchesName_literal`), a star before it the names that end so
(`matchesName_star`).
-/

namespace SiteAudit

namespace Regex

variable {r : Regex} {t : Text}

/-- The character before the place after a text. -/
def after (before : Option Char) (t : Text) : Option Char := t.getLast?.or before

/-- The first character stands before what follows it. -/
lemma after_cons (before : Option Char) (c : Char) (t : Text) :
    after before (c :: t) = after (some c) t := by
  unfold after
  cases t with
  | nil => rfl
  | cons d t =>
    rw [List.getLast?_cons_cons]
    cases h : (d :: t).getLast? with
    | none => simp at h
    | some e => rfl

/-- An expression matches at some place in a text. -/
lemma searchFrom_iff {before : Option Char} :
    r.searchFrom before t = true ↔
      ∃ s rest, t = s ++ rest ∧ r.reach ⟨after before s, rest⟩ ≠ [] := by
  induction t generalizing before with
  | nil =>
    rw [searchFrom, Bool.not_eq_true', List.isEmpty_eq_false_iff]
    constructor
    · intro h
      exact ⟨[], [], rfl, h⟩
    · rintro ⟨s, rest, e, h⟩
      obtain ⟨rfl, rfl⟩ := List.nil_eq_append_iff.1 e
      exact h
  | cons c t ih =>
    rw [searchFrom, Bool.or_eq_true, ih, Bool.not_eq_true', List.isEmpty_eq_false_iff]
    constructor
    · rintro (h | ⟨s, rest, rfl, h⟩)
      · exact ⟨[], c :: t, rfl, h⟩
      · rw [← after_cons] at h
        exact ⟨c :: s, rest, rfl, h⟩
    · rintro ⟨s, rest, e, h⟩
      cases s with
      | nil =>
        cases e
        exact .inl h
      | cons d s =>
        cases e
        rw [after_cons] at h
        exact .inr ⟨s, rest, rfl, h⟩

/-- The parts of a sequence follow one another. -/
lemma reach_sequence_cons (r : Regex) (rest : List Regex) (p : Place) :
    (sequence (r :: rest)).reach p = (r.reach p).flatMap (sequence rest).reach := by
  cases rest with
  | nil =>
    have hnothing : (sequence []).reach = fun p => [p] := rfl
    rw [hnothing, List.flatMap_singleton']
    rfl
  | cons r' rest => rfl

/-- The expression of a text that stands for itself, with something after it. -/
def literal (w : Text) (rest : List Regex) : Regex := sequence (w.map .char ++ rest)

/-- A literal leads over its own text. -/
lemma reach_literal {w : Text} {rest : List Regex} {before : Option Char} :
    (literal w rest).reach ⟨before, t⟩ ≠ [] ↔
      ∃ more, t = w ++ more ∧ (sequence rest).reach ⟨after before w, more⟩ ≠ [] := by
  induction w generalizing before t with
  | nil =>
    constructor
    · intro h
      exact ⟨t, rfl, h⟩
    · rintro ⟨more, rfl, h⟩
      exact h
  | cons c w ih =>
    have hcons : (literal (c :: w) rest).reach ⟨before, t⟩ =
        (Place.step ⟨before, t⟩ (· == c)).flatMap (literal w rest).reach :=
      reach_sequence_cons _ _ _
    rw [hcons]
    cases t with
    | nil => simp [Place.step]
    | cons d t =>
      by_cases hc : d = c
      · have hstep : Place.step ⟨before, d :: t⟩ (· == c) = [⟨some d, t⟩] := by
          simp [Place.step, hc]
        rw [hstep, List.flatMap_singleton, ih, hc]
        simp [after_cons]
      · have hstep : Place.step ⟨before, d :: t⟩ (· == c) = [] := by
          simp [Place.step, hc]
        rw [hstep]
        simp [hc]

/-- A text that stands for itself is found where it occurs. -/
lemma search_literal {w : Text} : (literal w []).search t = true ↔ w <:+: t := by
  unfold search
  rw [searchFrom_iff]
  constructor
  · rintro ⟨s, rest, rfl, h⟩
    obtain ⟨more, rfl, -⟩ := reach_literal.1 h
    exact ⟨s, more, by simp⟩
  · rintro ⟨s, more, rfl⟩
    refine ⟨s, w ++ more, by simp, reach_literal.2 ⟨more, rfl, ?_⟩⟩
    exact List.cons_ne_nil _ _

/-- A dollar sign stays where it is, at the end or before a last line feed. -/
lemma mem_reach_stop {p q : Place} :
    q ∈ (sequence [.stop]).reach p ↔ q = p ∧ (p.rest = [] ∨ p.rest = ['\n']) := by
  have hreach : (sequence [.stop]).reach p =
      if p.rest.isEmpty || p.rest == ['\n'] then [p] else [] := rfl
  rw [hreach, List.mem_ite_nil_right, List.mem_singleton, Bool.or_eq_true, List.isEmpty_iff,
    beq_iff_eq, and_comm]

/-- Before a dollar sign it is found at the end, where a last line feed does not count. -/
lemma search_literal_stop {w : Text} :
    (literal w [.stop]).search t = true ↔ w <:+ t ∨ w ++ ['\n'] <:+ t := by
  have hstop : ∀ p : Place, (sequence [.stop]).reach p ≠ [] ↔ p.rest = [] ∨ p.rest = ['\n'] := by
    intro p
    constructor
    · intro h
      obtain ⟨q, hq⟩ := List.exists_mem_of_ne_nil _ h
      exact (mem_reach_stop.1 hq).2
    · exact fun h => List.ne_nil_of_mem (mem_reach_stop.2 ⟨rfl, h⟩)
  unfold search
  rw [searchFrom_iff]
  constructor
  · rintro ⟨s, rest, rfl, h⟩
    obtain ⟨more, rfl, hmore⟩ := reach_literal.1 h
    obtain rfl | rfl := (hstop ⟨_, more⟩).1 hmore
    · exact .inl ⟨s, by simp⟩
    · exact .inr ⟨s, by simp⟩
  · rintro (⟨s, rfl⟩ | ⟨s, rfl⟩)
    · exact ⟨s, w, rfl, reach_literal.2 ⟨[], by simp, (hstop _).2 (.inl rfl)⟩⟩
    · exact ⟨s, w ++ ['\n'], rfl, reach_literal.2 ⟨['\n'], rfl, (hstop _).2 (.inr rfl)⟩⟩

end Regex

namespace Text

/-- Some end of a text satisfies a condition. -/
lemma anyEnd_iff {p : Text → Bool} {t : Text} : anyEnd p t = true ↔ ∃ s, s <:+ t ∧ p s = true := by
  induction t with
  | nil => simp [anyEnd]
  | cons c t ih =>
    rw [anyEnd, Bool.or_eq_true, ih]
    constructor
    · rintro (h | ⟨s, hs, h⟩)
      · exact ⟨c :: t, List.suffix_rfl, h⟩
      · exact ⟨s, hs.trans (List.suffix_cons c t), h⟩
    · rintro ⟨s, hs, h⟩
      rcases List.suffix_cons_iff.1 hs with rfl | hs
      · exact .inl h
      · exact .inr ⟨s, hs, h⟩

end Text

namespace Glob

variable {names : List Text}

/-- The pieces of a name that stands for itself. -/
def literal (w : Text) : List Piece := w.map .char

/-- So it matches its own name. -/
lemma matchesName_literal {w name : Text} : matchesName (literal w) name = true ↔ name = w := by
  induction w generalizing name with
  | nil =>
    cases name with
    | nil => exact iff_of_true rfl rfl
    | cons c name => exact iff_of_false Bool.false_ne_true (List.cons_ne_nil c name)
  | cons d w ih =>
    have hcons : literal (d :: w) = .char d :: literal w := rfl
    rw [hcons]
    cases name with
    | nil => exact iff_of_false Bool.false_ne_true (List.cons_ne_nil d w).symm
    | cons c name =>
      rw [matchesName, Bool.and_eq_true, ih, List.cons.injEq]
      · exact and_congr_left fun _ => beq_iff_eq
      · exact fun h => by cases h

/-- A star before a name stands for the names that end so. -/
lemma matchesName_star {w name : Text} :
    matchesName (.many :: literal w) name = true ↔ w <:+ name := by
  rw [matchesName, Text.anyEnd_iff]
  constructor
  · rintro ⟨s, hs, h⟩
    rw [matchesName_literal] at h
    exact h ▸ hs
  · intro h
    exact ⟨w, h, matchesName_literal.2 rfl⟩

/-- Some end of a list of names satisfies a condition. -/
lemma anyTail_iff {p : List Text → Bool} :
    anyTail p names = true ↔ ∃ inner rest, names = inner ++ rest ∧ p rest = true := by
  induction names with
  | nil =>
    rw [anyTail]
    constructor
    · intro h
      exact ⟨[], [], rfl, h⟩
    · rintro ⟨inner, rest, e, h⟩
      obtain ⟨rfl, rfl⟩ := List.nil_eq_append_iff.1 e
      exact h
  | cons name names ih =>
    rw [anyTail, Bool.or_eq_true, ih]
    constructor
    · rintro (h | ⟨inner, rest, rfl, h⟩)
      · exact ⟨[], name :: names, rfl, h⟩
      · exact ⟨name :: inner, rest, rfl, h⟩
    · rintro ⟨inner, rest, e, h⟩
      cases inner with
      | nil =>
        cases e
        exact .inl h
      | cons _ inner =>
        cases e
        exact .inr ⟨inner, rest, rfl, h⟩

/-- The parts for directories that stand for themselves, with something after them. -/
def within (directories : List Text) (rest : List Part) : List Part :=
  (directories.map fun d => .name (literal d)) ++ rest

/-- What is within directories has their names first. -/
lemma matchesNames_within {directories : List Text} {rest : List Part} :
    matchesNames (within directories rest) names = true ↔
      ∃ more, names = directories ++ more ∧ matchesNames rest more = true := by
  induction directories generalizing names with
  | nil =>
    constructor
    · intro h
      exact ⟨names, rfl, h⟩
    · rintro ⟨more, rfl, h⟩
      exact h
  | cons d directories ih =>
    have hcons : within (d :: directories) rest =
        .name (literal d) :: within directories rest := rfl
    rw [hcons]
    cases names with
    | nil => simp [matchesNames]
    | cons name names =>
      rw [matchesNames, Bool.and_eq_true, matchesName_literal, ih]
      constructor
      · rintro ⟨rfl, more, rfl, h⟩
        exact ⟨more, rfl, h⟩
      · rintro ⟨more, e, h⟩
        cases e
        exact ⟨rfl, more, rfl, h⟩

/-- One name at any depth. -/
lemma matchesNames_anyDepth {pieces : List Piece} :
    matchesNames [.anyDepth, .name pieces] names = true ↔
      ∃ inner name, names = inner ++ [name] ∧ matchesName pieces name = true := by
  have hone : ∀ rest, matchesNames [.name pieces] rest = true ↔
      ∃ name, rest = [name] ∧ matchesName pieces name = true := by
    intro rest
    rcases rest with _ | ⟨name, _ | ⟨next, rest⟩⟩
    · simp [matchesNames]
    · rw [matchesNames]
      simp [matchesNames]
    · simp [matchesNames]
  rw [matchesNames, anyTail_iff]
  constructor
  · rintro ⟨inner, rest, rfl, h⟩
    obtain ⟨name, rfl, hname⟩ := (hone rest).1 h
    exact ⟨inner, name, rfl, hname⟩
  · rintro ⟨inner, name, rfl, h⟩
    exact ⟨inner, [name], rfl, (hone [name]).2 ⟨name, rfl, h⟩⟩

end Glob

end SiteAudit
