import Mathlib.Data.List.Basic
import Mathlib.Data.List.TakeWhile
import Mathlib.Tactic.Common
import SiteAudit.Namespace
import SiteAudit.Proofs.Text

/-!
# The header of the namespace

`HeaderAt` says where a line of a text holds the key of the namespace alone, and `FirstHeader` that
no earlier line does. The search finds the first such line (`findHeader?_eq_some_iff`). It stays the
first one whatever follows it (`FirstHeader.append_congr`).
-/

namespace SiteAudit.Namespace

/-- The key alone: after it there may be blanks and a comment. -/
def IsHeader (header : Text) : Prop :=
  ∃ blanks comment, header = key ++ [':'] ++ blanks ++ comment ∧
    (∀ c ∈ blanks, c = ' ' ∨ c = '\t') ∧
    (comment = [] ∨ ∃ words, comment = '#' :: words ∧ ∀ c ∈ words, c ≠ '\r' ∧ c ≠ '\n')

/-- At the start of the text a line ends, or the text does. -/
def EndsLine (t : Text) : Prop :=
  t = [] ∨ t = ['\r'] ∨ (∃ rest, t = '\n' :: rest) ∨ ∃ rest, t = '\r' :: '\n' :: rest

/-- Between the two other parts of the text a line holds the key alone. -/
structure HeaderAt (t before header after : Text) : Prop where
  whole : t = before ++ (header ++ after)
  start : before = [] ∨ before.getLast? = some '\n'
  isHeader : IsHeader header
  stop : EndsLine after

/-- No earlier line does. -/
structure FirstHeader (t before header after : Text) : Prop
    extends HeaderAt t before header after where
  first : ∀ before' header' after', HeaderAt t before' header' after' →
    before.length ≤ before'.length

variable {t before header after : Text}

/-- The text is cut after its header. -/
lemma HeaderAt.take (h : HeaderAt t before header after) :
    t.take (before.length + header.length) = before ++ header := by
  rw [h.whole, ← List.append_assoc, ← List.length_append, List.take_left]

/-- What follows is left then. -/
lemma HeaderAt.drop (h : HeaderAt t before header after) :
    t.drop (before.length + header.length) = after := by
  rw [h.whole, ← List.append_assoc, ← List.length_append, List.drop_left]

/-! ### Headers -/

/-- A header is not empty. -/
lemma IsHeader.ne_nil {header : Text} (h : IsHeader header) : header ≠ [] := by
  obtain ⟨blanks, comment, rfl, -⟩ := h
  exact List.cons_ne_nil _ _

/-- There is no end of a line in a header. -/
lemma IsHeader.not_mem {header : Text} (h : IsHeader header) :
    '\n' ∉ header ∧ '\r' ∉ header := by
  obtain ⟨blanks, comment, rfl, hblanks, hcomment⟩ := h
  have hkey : '\n' ∉ key ++ [':'] ∧ '\r' ∉ key ++ [':'] := by decide
  have hboth : ∀ c : Char, c ∉ key ++ [':'] → c ≠ ' ' → c ≠ '\t' → c ∉ comment →
      c ∉ key ++ [':'] ++ blanks ++ comment := by
    intro c hk hs ht hc hmem
    rcases List.mem_append.1 hmem with hmem | hmem
    · rcases List.mem_append.1 hmem with hmem | hmem
      · exact hk hmem
      · exact (hblanks c hmem).elim hs ht
    · exact hc hmem
  rcases hcomment with rfl | ⟨words, rfl, hwords⟩
  · exact ⟨hboth _ hkey.1 (by decide) (by decide) List.not_mem_nil,
      hboth _ hkey.2 (by decide) (by decide) List.not_mem_nil⟩
  · refine ⟨hboth _ hkey.1 (by decide) (by decide) fun hmem => ?_,
      hboth _ hkey.2 (by decide) (by decide) fun hmem => ?_⟩
    · rcases List.mem_cons.1 hmem with e | hmem
      · cases e
      · exact (hwords _ hmem).2 rfl
    · rcases List.mem_cons.1 hmem with e | hmem
      · cases e
      · exact (hwords _ hmem).1 rfl

/-- The line ends where the text does, or where a line feed comes next. -/
lemma atLineEnd_iff {t : Text} : atLineEnd t = true ↔ EndsLine t := by
  unfold atLineEnd EndsLine
  split
  · simp
  · simp
  · rename_i rest
    cases rest with
    | nil => simp
    | cons c rest => simp
  · rename_i hnil hfeed hreturn
    refine iff_of_false Bool.false_ne_true ?_
    rintro (rfl | rfl | ⟨rest, rfl⟩ | ⟨rest, rfl⟩)
    · exact hnil rfl
    · exact hreturn _ rfl
    · exact hfeed _ rfl
    · exact hreturn _ rfl

/-- What ends a line is no blank, nor does it go on with a comment. -/
lemma EndsLine.head {t : Text} (h : EndsLine t) :
    t = [] ∨ ∃ c rest, t = c :: rest ∧ (c = '\n' ∨ c = '\r') := by
  rcases h with rfl | rfl | ⟨rest, rfl⟩ | ⟨rest, rfl⟩
  · exact .inl rfl
  · exact .inr ⟨_, _, rfl, .inr rfl⟩
  · exact .inr ⟨_, _, rfl, .inl rfl⟩
  · exact .inr ⟨_, _, rfl, .inr rfl⟩

/-- Nothing is skipped at the end of a line that does not hold its characters. -/
lemma EndsLine.dropWhile {t : Text} (h : EndsLine t) {p : Char → Bool} (hfeed : p '\n' = false)
    (hreturn : p '\r' = false) : t.dropWhile p = t := by
  rcases h.head with rfl | ⟨c, rest, rfl, rfl | rfl⟩
  · rfl
  · exact List.dropWhile_cons_of_neg (Bool.not_eq_true _ ▸ hfeed)
  · exact List.dropWhile_cons_of_neg (Bool.not_eq_true _ ▸ hreturn)

/-- A text that ends with a line feed ends a line or does not, whatever follows it. -/
lemma EndsLine.append_congr {t u v : Text} (hlast : t.getLast? = some '\n')
    (h : EndsLine (t ++ u)) : EndsLine (t ++ v) := by
  cases t with
  | nil => cases hlast
  | cons c t =>
    rcases h with h | h | ⟨rest, h⟩ | ⟨rest, h⟩
    · cases h
    · -- a carriage return alone does not end with a line feed
      obtain ⟨rfl, htail⟩ := List.cons.inj h
      obtain rfl := (List.append_eq_nil_iff.1 htail).1
      exact absurd hlast (by decide)
    · obtain ⟨rfl, -⟩ := List.cons.inj h
      exact .inr (.inr (.inl ⟨_, rfl⟩))
    · obtain ⟨rfl, htail⟩ := List.cons.inj h
      cases t with
      | nil => exact absurd hlast (by decide)
      | cons d t =>
        obtain ⟨rfl, -⟩ := List.cons.inj htail
        exact .inr (.inr (.inr ⟨_, rfl⟩))

/-- The length that is found at the start of a line is that of a header. -/
lemma headerLength?_eq_some {line : Text} {n : Nat} (h : headerLength? line = some n) :
    ∃ header after, line = header ++ after ∧ IsHeader header ∧ EndsLine after ∧
      n = header.length := by
  obtain ⟨rest, hrest, h⟩ := Option.bind_eq_some_iff.1 h
  obtain rfl := Text.dropPrefix?_eq_some.1 hrest
  obtain ⟨blanks, rest, rfl, hblanks, hdrop⟩ : ∃ blanks rest', rest = blanks ++ rest' ∧
      (∀ c ∈ blanks, c = ' ' ∨ c = '\t') ∧
      rest.dropWhile (fun c => c == ' ' || c == '\t') = rest' :=
    ⟨_, _, List.takeWhile_append_dropWhile.symm,
      fun c hc => by simpa using List.mem_takeWhile_imp hc, rfl⟩
  rw [hdrop] at h
  obtain ⟨comment, after, rfl, hcomment, hafter⟩ : ∃ comment after, rest = comment ++ after ∧
      (comment = [] ∨ ∃ words, comment = '#' :: words ∧ ∀ c ∈ words, c ≠ '\r' ∧ c ≠ '\n') ∧
      (if rest.head? == some '#' then rest.dropWhile fun c => c != '\r' && c != '\n'
        else rest) = after := by
    split
    · rename_i hhead
      obtain ⟨words, rfl⟩ := List.head?_eq_some_iff.1 (beq_iff_eq.1 hhead)
      refine ⟨'#' :: words.takeWhile fun c => c != '\r' && c != '\n', _, ?_,
        .inr ⟨_, rfl, fun c hc => by simpa using List.mem_takeWhile_imp hc⟩, rfl⟩
      simp [List.takeWhile_append_dropWhile]
    · exact ⟨[], rest, rfl, .inl rfl, rfl⟩
  dsimp only at h
  rw [hafter] at h
  split at h
  · rename_i hend
    refine ⟨_, after, ?_, ⟨blanks, comment, rfl, hblanks, hcomment⟩, atLineEnd_iff.1 hend, ?_⟩
    · simp only [List.append_assoc]
    · rw [← Option.some.inj h]
      simp only [List.length_append]
      omega
  · cases h

/-- A header is found at the start of its line. -/
lemma headerLength?_append {header after : Text} (hheader : IsHeader header)
    (hend : EndsLine after) : headerLength? (header ++ after) = some header.length := by
  obtain ⟨blanks, comment, rfl, hblanks, hcomment⟩ := hheader
  have hrest : Text.dropPrefix? (key ++ [':'])
      (key ++ [':'] ++ blanks ++ comment ++ after) = some (blanks ++ (comment ++ after)) :=
    Text.dropPrefix?_eq_some.2 (by simp only [List.append_assoc])
  have hskip : (blanks ++ (comment ++ after)).dropWhile (fun c => c == ' ' || c == '\t') =
      comment ++ after := by
    rw [List.dropWhile_append_of_pos fun c hc => by simpa using hblanks c hc]
    rcases hcomment with rfl | ⟨words, rfl, -⟩
    · exact hend.dropWhile rfl rfl
    · rfl
  have hwords : (if (comment ++ after).head? == some '#' then
      (comment ++ after).dropWhile fun c => c != '\r' && c != '\n' else comment ++ after) =
      after := by
    rcases hcomment with rfl | ⟨words, rfl, hwords⟩
    · rw [List.nil_append, if_neg]
      rcases hend.head with rfl | ⟨c, rest, rfl, rfl | rfl⟩
      · decide
      · simp
      · simp
    · rw [if_pos (by simp), List.dropWhile_append_of_pos, hend.dropWhile rfl rfl]
      intro c hc
      rcases List.mem_cons.1 hc with rfl | hc
      · rfl
      · simpa using hwords c hc
  unfold headerLength?
  refine Option.bind_eq_some_iff.2 ⟨_, hrest, ?_⟩
  dsimp only
  rw [hskip, hwords, if_pos (atLineEnd_iff.2 hend)]
  simp only [List.length_append]
  congr 1
  omega

/-! ### The search -/

/-- The header of a line that starts the text, or of a later one. -/
lemma headerAt_cons {c d : Char} {rest before header after : Text} :
    HeaderAt (c :: rest) (d :: before) header after ↔
      d = c ∧ HeaderAt rest before header after ∧ (before = [] → c = '\n') := by
  have hlast : (d :: before).getLast? = some '\n' ↔
      (before = [] ∨ before.getLast? = some '\n') ∧ (before = [] → d = '\n') := by
    cases before with
    | nil => simp
    | cons e before => simp
  constructor
  · rintro ⟨hwhole, hstart, hheader, hstop⟩
    obtain ⟨rfl, hrest⟩ := List.cons.inj hwhole
    obtain ⟨hstart, hfeed⟩ := hlast.1 (hstart.resolve_left (List.cons_ne_nil _ _))
    exact ⟨rfl, ⟨hrest, hstart, hheader, hstop⟩, hfeed⟩
  · rintro ⟨rfl, ⟨rfl, hstart, hheader, hstop⟩, hfeed⟩
    exact ⟨rfl, .inr (hlast.2 ⟨hstart, hfeed⟩), hheader, hstop⟩

/-- A line that starts the text holds the key if a header is found there. -/
lemma headerAt_nil {t header after : Text} (h : HeaderAt t [] header after) :
    headerLength? t = some header.length :=
  h.whole ▸ headerLength?_append h.isHeader h.stop

/-- What the search finds is the first header; at the start of the text there is one only if a line
starts there. -/
lemma findHeader?_eq_some {position : Nat} {lineStart : Bool} {t : Text} {start stop : Nat}
    (h : findHeader? position lineStart t = some (start, stop)) :
    ∃ before header after, HeaderAt t before header after ∧ (before = [] → lineStart = true) ∧
      start = position + before.length ∧ stop = start + header.length ∧
      ∀ before' header' after', HeaderAt t before' header' after' →
        (before' = [] → lineStart = true) → before.length ≤ before'.length := by
  fun_induction findHeader? position lineStart t with
  | case1 => cases h
  | case2 position lineStart c rest n hn =>
    cases h
    split at hn
    · rename_i hline
      obtain ⟨header, after, hwhole, hheader, hstop, rfl⟩ := headerLength?_eq_some hn
      exact ⟨[], header, after, ⟨hwhole, .inl rfl, hheader, hstop⟩, fun _ => hline, rfl, rfl,
        fun _ _ _ _ _ => Nat.zero_le _⟩
    · cases hn
  | case3 position lineStart c rest hn ih =>
    obtain ⟨before, header, after, hat, hline, rfl, rfl, hfirst⟩ := ih h
    refine ⟨c :: before, header, after, headerAt_cons.2 ⟨rfl, hat, fun e => by simpa using hline e⟩,
      fun e => absurd e (List.cons_ne_nil _ _), by simp; omega, rfl, ?_⟩
    intro before' header' after' hat' hline'
    cases before' with
    | nil =>
      rw [if_pos (hline' rfl), headerAt_nil hat'] at hn
      cases hn
    | cons d before' =>
      obtain ⟨-, hat', hfeed⟩ := headerAt_cons.1 hat'
      exact Nat.succ_le_succ (hfirst _ _ _ hat' fun e => by simpa using hfeed e)

/-- The search finds a header if there is one. -/
lemma findHeader?_eq_none {position : Nat} {lineStart : Bool} {t : Text}
    (h : findHeader? position lineStart t = none) {before header after : Text}
    (hat : HeaderAt t before header after) : ¬ (before = [] → lineStart = true) := by
  intro hline
  fun_induction findHeader? position lineStart t generalizing before with
  | case1 =>
    have := (List.append_eq_nil_iff.1 hat.whole.symm).2
    exact hat.isHeader.ne_nil (List.append_eq_nil_iff.1 this).1
  | case2 => cases h
  | case3 position lineStart c rest hn ih =>
    cases before with
    | nil =>
      rw [if_pos (hline rfl), headerAt_nil hat] at hn
      cases hn
    | cons d before =>
      obtain ⟨-, hat, hfeed⟩ := headerAt_cons.1 hat
      exact ih h hat fun e => by simpa using hfeed e

/-- There is at most one first header. -/
lemma FirstHeader.unique {t before header after before' header' after' : Text}
    (h : FirstHeader t before header after) (h' : FirstHeader t before' header' after') :
    before = before' ∧ header = header' ∧ after = after' := by
  have hlength : before.length = before'.length :=
    Nat.le_antisymm (h.first _ _ _ h'.toHeaderAt) (h'.first _ _ _ h.toHeaderAt)
  obtain ⟨rfl, hrest⟩ := List.append_inj (h.whole.symm.trans h'.whole) hlength
  -- the same line cannot hold two keys of different lengths
  have hheader : some header.length = some header'.length := by
    rw [← headerLength?_append h.isHeader h.stop, hrest]
    exact headerLength?_append h'.isHeader h'.stop
  obtain ⟨rfl, rfl⟩ := List.append_inj hrest (Option.some.inj hheader)
  exact ⟨rfl, rfl, rfl⟩

/-- The search finds the first header. -/
lemma findHeader?_eq_some_iff {t : Text} {start stop : Nat} :
    findHeader? 0 true t = some (start, stop) ↔
      ∃ before header after, FirstHeader t before header after ∧ start = before.length ∧
        stop = before.length + header.length := by
  have hfound : ∀ {start stop}, findHeader? 0 true t = some (start, stop) →
      ∃ before header after, FirstHeader t before header after ∧ start = before.length ∧
        stop = before.length + header.length := by
    intro start stop h
    obtain ⟨before, header, after, hat, -, rfl, rfl, hfirst⟩ := findHeader?_eq_some h
    exact ⟨before, header, after, ⟨hat, fun _ _ _ h' => hfirst _ _ _ h' fun _ => rfl⟩,
      Nat.zero_add _, by rw [Nat.zero_add]⟩
  refine ⟨hfound, ?_⟩
  rintro ⟨before, header, after, h, rfl, rfl⟩
  cases hfind : findHeader? 0 true t with
  | none => exact absurd (fun _ => rfl) (findHeader?_eq_none hfind h.toHeaderAt)
  | some found =>
    obtain ⟨start, stop⟩ := found
    obtain ⟨before', header', after', h', rfl, rfl⟩ := hfound hfind
    obtain ⟨rfl, rfl, rfl⟩ := h.unique h'
    rfl

/-- A search finds nothing, or a first header. -/
lemma findHeader?_cases (t : Text) : findHeader? 0 true t = none ∨
    ∃ before header after, FirstHeader t before header after := by
  cases hfind : findHeader? 0 true t with
  | none => exact .inl rfl
  | some found =>
    obtain ⟨before, header, after, h, -⟩ := findHeader?_eq_some_iff.1 hfind
    exact .inr ⟨before, header, after, h⟩

/-- What follows the first header may be replaced by anything else that ends its line. -/
lemma FirstHeader.append_congr {before header after after' : Text}
    (h : FirstHeader (before ++ (header ++ after)) before header after) (hstop : EndsLine after') :
    FirstHeader (before ++ (header ++ after')) before header after' := by
  refine ⟨⟨rfl, h.start, h.isHeader, hstop⟩, fun x header' y hat => ?_⟩
  by_contra hlt
  rw [Nat.not_le] at hlt
  -- the line of the other header lies in what stands before, which ends with a line feed
  obtain ⟨u, rfl, hrest⟩ : ∃ u, before = x ++ u ∧ header' ++ y = u ++ (header ++ after') := by
    rcases List.append_eq_append_iff.1 hat.whole with ⟨u, rfl, -⟩ | ⟨u, rfl, hrest⟩
    · rw [List.length_append] at hlt
      omega
    · exact ⟨u, rfl, hrest⟩
  have hu : u ≠ [] := fun e => by
    rw [e, List.append_nil] at hlt
    exact Nat.lt_irrefl _ hlt
  have hlast : u.getLast? = some '\n' := by
    rcases h.start with e | e
    · exact absurd (List.append_eq_nil_iff.1 e).2 hu
    · rwa [List.getLast?_append_of_ne_nil _ hu] at e
  have hmem : '\n' ∈ u := List.mem_of_getLast? hlast
  obtain ⟨v, rfl, rfl⟩ : ∃ v, u = header' ++ v ∧ y = v ++ (header ++ after') := by
    rcases List.append_eq_append_iff.1 hrest with ⟨v, rfl, rfl⟩ | ⟨v, rfl, -⟩
    · exact ⟨v, rfl, rfl⟩
    · exact absurd (List.mem_append_left v hmem) hat.isHeader.not_mem.1
  have hv : v ≠ [] := fun e => by
    rw [e, List.append_nil] at hmem
    exact hat.isHeader.not_mem.1 hmem
  rw [List.getLast?_append_of_ne_nil _ hv] at hlast
  have := h.first x header' (v ++ (header ++ after))
    ⟨by simp only [List.append_assoc], hat.start, hat.isHeader, hat.stop.append_congr hlast⟩
  omega

end SiteAudit.Namespace
