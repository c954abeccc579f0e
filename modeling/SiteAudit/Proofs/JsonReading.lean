import Mathlib.Data.List.Basic
import SiteAudit.Json.Reader
import SiteAudit.Proofs.Order

/-!
# Reading back JSON texts

A JSON value without floating-point numbers is read back from its text in any layout, with the
entries of its objects in the order of their keys (`FloatFree.ofText?_document`). So a document
tells what its value is, but for the order of entries (`FloatFree.same_document_iff`).
-/

namespace SiteAudit.Json

variable {layout : Layout} {depth fuel : Nat} {read rest space t : Text}

/-! ### Texts -/

/-- The code unit of a control character is read back. -/
lemma codeUnit?_padHex {n : Nat} (h : n < 32) (rest : Text) :
    codeUnit? (Text.padHex 4 n ++ rest) = some (n, rest) := by
  have hdigits : ∀ n < 32, (Text.padHex 4 n).length = 4 ∧
      (Text.padHex 4 n).all Text.isHexDigit = true ∧
      (Text.padHex 4 n).foldl (fun n c => n * 16 + (Text.digitValue? c).getD 0) 0 = n := by
    decide
  obtain ⟨hlength, hall, hvalue⟩ := hdigits n h
  unfold codeUnit?
  rw [List.take_left' hlength, List.drop_left' hlength]
  dsimp only
  rw [hvalue, hall, hlength]
  rfl

/-- One character is read back from its escape. -/
lemma readText_escapeChar (c : Char) :
    readText (fuel + 1) read (escapeChar c ++ rest) = readText fuel (c :: read) rest := by
  unfold escapeChar
  split_ifs with h1 h2 h3 h4 h5 h6 h7
  · rcases h1 with rfl | rfl <;> rfl
  · rw [h2]; rfl
  · rw [h3]; rfl
  · rw [h4]; rfl
  · rw [h5]; rfl
  · rw [h6]; rfl
  · have hlt : c.toNat < 32 := by
      simpa using UInt32.lt_iff_toNat_lt.1 h7
    have hescape : unicodeEscape? (Text.padHex 4 c.toNat ++ rest) = some (c, rest) := by
      have hlow : c.toNat < 0xD800 ∨ 0xDFFF < c.toNat := .inl (by omega)
      unfold unicodeEscape?
      rw [codeUnit?_padHex hlt]
      simp [hlow]
    show (unicodeEscape? (Text.padHex 4 c.toNat ++ rest) >>= _) = _
    rw [hescape]
    rfl
  · obtain ⟨hquote, hslash⟩ := not_or.1 h1
    rw [List.singleton_append, readText.eq_def]
    dsimp only
    rw [if_neg hquote, if_neg hslash]

/-- A text is read back up to its closing quote. -/
lemma readText_flatMap (h : t.length < fuel) (read rest : Text) :
    readText fuel read (t.flatMap escapeChar ++ '"' :: rest) = some (read.reverse ++ t, rest) := by
  induction t generalizing fuel read with
  | nil =>
    obtain ⟨fuel, rfl⟩ := Nat.exists_eq_add_of_lt h
    simp [readText]
  | cons c t ih =>
    obtain ⟨fuel, rfl⟩ : ∃ n, fuel = n + 1 := ⟨fuel - 1, by omega⟩
    rw [List.flatMap_cons, List.append_assoc, readText_escapeChar, ih (by simpa using h)]
    simp

/-! ### Numbers -/

/-- No number goes on in what follows. -/
def EndsNumber (rest : Text) : Prop := ∀ c ∈ rest.head?, isNumeric c = false

/-- Decimal digits are read as the number they stand for. -/
lemma ofDigits?_eq {digits : Text} (h : ∀ c ∈ digits, c.isDigit = true) (value : Nat) :
    Numeral.ofDigits? 10 value digits = some (Nat.ofDigitChars 10 digits value) := by
  induction digits generalizing value with
  | nil => rfl
  | cons c digits ih =>
    obtain ⟨hc, hdigits⟩ := List.forall_mem_cons.1 h
    have hdigit : Numeral.digitIn? 10 c = some (c.toNat - 48) := by
      unfold Numeral.digitIn? Text.digitValue?
      rw [if_pos hc]
      have hlt : c.toNat - 48 < 10 := by
        have hrange := Char.isDigit_iff_toNat.1 hc
        have hnine : '9'.toNat = 57 := rfl
        omega
      simp [hlt]
    rw [Numeral.ofDigits?, hdigit]
    dsimp only
    rw [ih hdigits, Nat.mul_comm]
    rfl

/-- A natural number is written in decimal digits. -/
lemma isDigit_of_mem_ofNat {n : Nat} : ∀ c ∈ Text.ofNat n, c.isDigit = true :=
  fun _ => Nat.isDigit_of_mem_toDigits (by decide) (by decide)

/-- A natural number is read back from its digits. -/
lemma ofDigits?_ofNat (n : Nat) : Numeral.ofDigits? 10 0 (Text.ofNat n) = some n := by
  rw [ofDigits?_eq isDigit_of_mem_ofNat, Text.ofNat, Nat.ofDigitChars_ten_toDigits]

/-- A numeral is taken as a whole where no number goes on. -/
lemma takeWhile_isNumeric {numeral : Text} (h : ∀ c ∈ numeral, isNumeric c = true)
    (hrest : EndsNumber rest) : (numeral ++ rest).takeWhile isNumeric = numeral := by
  rw [List.takeWhile_append_of_pos h]
  cases rest with
  | nil => simp
  | cons c rest => rw [List.takeWhile_cons_of_neg (by simp [hrest c rfl]), List.append_nil]

/-- An integer is written in characters of numbers. -/
lemma isNumeric_of_mem_ofInt (n : Int) : ∀ c ∈ Text.ofInt n, isNumeric c = true := by
  have hnat : ∀ n : Nat, ∀ c ∈ Text.ofNat n, isNumeric c = true := by
    intro n c hc
    unfold isNumeric
    simp [isDigit_of_mem_ofNat c hc]
  cases n with
  | ofNat n => exact hnat n
  | negSucc n => exact List.forall_mem_cons.2 ⟨rfl, hnat (n + 1)⟩

/-- There is at least one of them. -/
lemma exists_ofInt_eq_cons (n : Int) : ∃ c t, Text.ofInt n = c :: t ∧ isNumeric c = true := by
  obtain ⟨c, t, e⟩ : ∃ c t, Text.ofInt n = c :: t := by
    cases n with
    | ofNat n => exact List.exists_cons_of_ne_nil Nat.toDigits_ne_nil
    | negSucc n => exact ⟨_, _, rfl⟩
  exact ⟨c, t, e, isNumeric_of_mem_ofInt n c (e ▸ List.mem_cons_self)⟩

/-- An integer is read back. -/
lemma readNumber_ofInt (n : Int) (hrest : EndsNumber rest) :
    readNumber (Text.ofInt n ++ rest) = some (.int n, rest) := by
  have hne : ∀ n, Text.ofNat n ≠ [] := fun n => Nat.toDigits_ne_nil
  have htake := takeWhile_isNumeric (isNumeric_of_mem_ofInt n) hrest
  unfold readNumber
  rw [htake]
  dsimp only
  rw [List.drop_left]
  cases n with
  | ofNat n =>
    rw [Text.ofInt]
    split
    -- no digit is a sign
    · rename_i hsign
      cases isDigit_of_mem_ofNat '-' (hsign ▸ List.mem_cons_self)
    · rw [if_pos (List.all_eq_true.2 isDigit_of_mem_ofNat), ofDigits?_ofNat]
      simp [hne n]
  | negSucc n =>
    rw [Text.ofInt]
    split
    · rename_i hsign
      cases hsign
      rw [if_pos (List.all_eq_true.2 isDigit_of_mem_ofNat), ofDigits?_ofNat]
      simp [hne (n + 1), Int.negSucc_eq]
    · rename_i hsign
      exact absurd rfl (hsign _)

/-! ### White space -/

/-- There is nothing but white space in the text. -/
def IsBlank (t : Text) : Prop := ∀ c ∈ t, isSpace c = true

/-- The empty text is blank. -/
lemma isBlank_nil : IsBlank [] := List.forall_mem_nil _

/-- A space is blank. -/
lemma isBlank_space : IsBlank [' '] := List.forall_mem_singleton.2 rfl

/-- White space in front is skipped. -/
lemma skipSpace_append (hspace : IsBlank space) (t : Text) :
    skipSpace (space ++ t) = skipSpace t :=
  List.dropWhile_append_of_pos hspace

/-- Nothing is skipped before anything else. -/
lemma skipSpace_cons {c : Char} (hc : isSpace c = false) (t : Text) :
    skipSpace (c :: t) = c :: t :=
  List.dropWhile_cons_of_neg (by simp [hc])

/-- A value is read alike with white space in front. -/
lemma readValue_append (hspace : IsBlank space) (t : Text) :
    readValue fuel (space ++ t) = readValue fuel t := by
  cases fuel with
  | zero => rw [readValue, readValue]
  | succ fuel => rw [readValue, skipSpace_append hspace, ← readValue]

/-- A line break is white space. -/
lemma isBlank_lineBreak : IsBlank (layout.lineBreak depth) := by
  intro c hc
  cases layout with
  | line => cases hc
  | indented width =>
    rcases List.mem_cons.1 hc with rfl | hc
    · rfl
    · rw [List.eq_of_mem_replicate hc]
      rfl

/-- Between two parts stand a comma and white space. -/
lemma exists_join_comma (layout : Layout) (depth : Nat) :
    ∃ space, IsBlank space ∧ ∀ part next parts,
      Text.join (layout.comma depth) (part :: next :: parts) =
        part ++ ',' :: (space ++ Text.join (layout.comma depth) (next :: parts)) := by
  obtain ⟨space, hcomma, hspace⟩ : ∃ space, layout.comma depth = ',' :: space ∧ IsBlank space := by
    cases layout with
    | line => exact ⟨[' '], rfl, isBlank_space⟩
    | indented width => exact ⟨_, rfl, isBlank_lineBreak⟩
  refine ⟨space, hspace, fun part next parts => ?_⟩
  rw [hcomma]
  exact List.append_assoc ..

/-- White space ends a number. -/
lemma isNumeric_of_isSpace {c : Char} (hc : isSpace c = true) : isNumeric c = false := by
  have hcases : ((c = ' ' ∨ c = '\t') ∨ c = '\n') ∨ c = '\r' := by
    simpa [isSpace] using hc
  rcases hcases with ((rfl | rfl) | rfl) | rfl <;> rfl

/-- A number does not begin with white space. -/
lemma isSpace_of_isNumeric {c : Char} (hc : isNumeric c = true) : isSpace c = false := by
  rw [← Bool.not_eq_true]
  intro hspace
  cases hc.symm.trans (isNumeric_of_isSpace hspace)

/-- A character that is in no number ends one. -/
lemma EndsNumber.cons {c : Char} (hc : isNumeric c = false) (t : Text) : EndsNumber (c :: t) := by
  intro d hd
  cases hd
  exact hc

/-- It also does so after white space. -/
lemma EndsNumber.append {c : Char} (hspace : IsBlank space)
    (hc : isNumeric c = false) (t : Text) : EndsNumber (space ++ c :: t) := by
  cases space with
  | nil => exact .cons hc t
  | cons d space => exact .cons (isNumeric_of_isSpace (hspace d List.mem_cons_self)) _

/-! ### Sorted values -/

/-- The entries in the order of their keys. -/
def sortEntries {α : Type} (entries : List (Text × α)) : List (Text × α) :=
  sortBy (fun a b => Text.before a.1 b.1) entries

/-- The order of the keys is the same when the values are changed. -/
lemma sortEntries_map {α β : Type} (f : α → β) (entries : List (Text × α)) :
    sortEntries (entries.map fun entry => (entry.1, f entry.2)) =
      (sortEntries entries).map fun entry => (entry.1, f entry.2) :=
  sortBy_map _ entries

mutual

/-- The value with the entries of its objects in the order of their keys. -/
def sorted : Json → Json
  | .array items => .array (sortedItems items)
  | .object entries => .object (sortEntries (sortedEntries entries))
  | value => value

/-- The items with the entries of their objects in the order of their keys. -/
def sortedItems : List Json → List Json
  | [] => []
  | item :: items => sorted item :: sortedItems items

/-- The entries with the entries of the objects in their values in the order of their keys. -/
def sortedEntries : List (Text × Json) → List (Text × Json)
  | [] => []
  | (key, value) :: entries => (key, sorted value) :: sortedEntries entries

end

/-- Each item is sorted by itself. -/
lemma sortedItems_eq_map (items : List Json) : sortedItems items = items.map sorted := by
  induction items with
  | nil => rfl
  | cons item items ih => rw [sortedItems, ih, List.map_cons]

/-- So is each value of an entry. -/
lemma sortedEntries_eq_map (entries : List (Text × Json)) :
    sortedEntries entries = entries.map fun entry => (entry.1, entry.2.sorted) := by
  induction entries with
  | nil => rfl
  | cons entry entries ih => rw [sortedEntries, ih, List.map_cons]

/-- Each item has its own text. -/
lemma renderItems_eq_map (items : List Json) :
    renderItems layout depth items = items.map (render layout depth) := by
  induction items with
  | nil => rfl
  | cons item items ih => rw [renderItems, ih, List.map_cons]

/-- So has each value of an entry. -/
lemma renderEntries_eq_map (entries : List (Text × Json)) :
    renderEntries layout depth entries =
      entries.map fun entry => (entry.1, render layout depth entry.2) := by
  induction entries with
  | nil => rfl
  | cons entry entries ih => rw [renderEntries, ih, List.map_cons]

/-- The text of an entry. -/
def renderEntry (layout : Layout) (depth : Nat) (entry : Text × Json) : Text :=
  quote entry.1 ++ ':' :: ' ' :: render layout depth entry.2

/-- The text of an array is that of its items in brackets. -/
lemma render_array (items : List Json) :
    render layout depth (.array items) =
      layout.bracket depth '[' ']' (items.map (render layout (depth + 1))) := by
  rw [render, renderItems_eq_map]

/-- The text of an object is that of its entries in braces, in the order of their keys. -/
lemma render_object (entries : List (Text × Json)) :
    render layout depth (.object entries) =
      layout.bracket depth '\x7b' '\x7d'
        ((sortEntries entries).map (renderEntry layout (depth + 1))) := by
  have hsort := sortEntries_map (render layout (depth + 1)) entries
  rw [render, renderEntries_eq_map, joinEntries, ← sortEntries, hsort, List.map_map]
  refine congrArg _ (List.map_congr_left fun entry _ => ?_)
  exact List.append_assoc ..

/-- Where there are parts, they stand between two line breaks. -/
lemma bracket_append {parts : List Text} (h : parts ≠ []) (opening closing : Char) (rest : Text) :
    layout.bracket depth opening closing parts ++ rest =
      opening :: (layout.lineBreak (depth + 1) ++ (Text.join (layout.comma (depth + 1)) parts
        ++ (layout.lineBreak depth ++ closing :: rest))) := by
  cases parts with
  | nil => exact absurd rfl h
  | cons part parts => simp [Layout.bracket]

/-- The parts are shorter than what is bracketed, so that the fuel for it is enough for them. -/
lemma length_join_lt_bracket {parts : List Text} {opening closing : Char} :
    (Text.join (layout.comma (depth + 1)) parts).length + 1 <
      (layout.bracket depth opening closing parts).length := by
  cases parts with
  | nil => exact Nat.lt_succ_self 1
  | cons part parts =>
    simp only [Layout.bracket, List.length_cons, List.length_append]
    omega

/-! ### Values -/

/-- A JSON value without floating-point numbers. -/
inductive FloatFree : Json → Prop where
  | null : FloatFree .null
  | bool (b : Bool) : FloatFree (.bool b)
  | int (n : Int) : FloatFree (.int n)
  | text (t : Text) : FloatFree (.text t)
  | array {items : List Json} (h : ∀ item ∈ items, FloatFree item) : FloatFree (.array items)
  | object {entries : List (Text × Json)} (h : ∀ entry ∈ entries, FloatFree entry.2) :
    FloatFree (.object entries)

/-- Is the value, in the order of its keys, read back from its texts? -/
def ReadsBack (layout : Layout) (value : Json) : Prop :=
  ∀ depth fuel rest, (render layout depth value).length < fuel → EndsNumber rest →
    readValue fuel (render layout depth value ++ rest) = some (value.sorted, rest)

/-- Does the text start, without white space, with an item of an array? -/
def StartsItem (t : Text) : Prop := ∃ c rest, t = c :: rest ∧ isSpace c = false ∧ c ≠ ']'

/-- What follows does not matter for the start. -/
lemma StartsItem.append (h : StartsItem t) (rest : Text) : StartsItem (t ++ rest) := by
  obtain ⟨c, more, rfl, hc⟩ := h
  exact ⟨c, more ++ rest, rfl, hc⟩

/-- The parts after the first one do not matter either. -/
lemma StartsItem.join (h : StartsItem t) (sep : Text) (parts : List Text) :
    StartsItem (Text.join sep (t :: parts)) := by
  cases parts with
  | nil => exact h
  | cons part parts => exact (h.append sep).append _

/-- The text of a value starts an item. -/
lemma FloatFree.startsItem {value : Json} (h : FloatFree value) :
    StartsItem (render layout depth value) := by
  cases h with
  | null => exact ⟨_, _, rfl, rfl, by decide⟩
  | bool b => cases b <;> exact ⟨_, _, rfl, rfl, by decide⟩
  | int n =>
    obtain ⟨c, t, e, hc⟩ := exists_ofInt_eq_cons n
    refine ⟨c, t, e, isSpace_of_isNumeric hc, ?_⟩
    rintro rfl
    cases hc
  | text t => exact ⟨_, _, rfl, rfl, by decide⟩
  | @array items h =>
    rw [render_array]
    cases items <;> exact ⟨_, _, rfl, rfl, by decide⟩
  | @object entries h =>
    rw [render_object]
    cases (sortEntries entries) <;> exact ⟨_, _, rfl, rfl, by decide⟩

/-- The fuel of a quoted text is enough for it. -/
lemma readText_quote (t rest : Text) :
    readText ((t.flatMap escapeChar ++ '"' :: rest).length + 1) []
      (t.flatMap escapeChar ++ '"' :: rest) = some (t, rest) := by
  have hle : t.length ≤ (t.flatMap escapeChar).length := by
    induction t with
    | nil => exact Nat.zero_le _
    | cons c t ih =>
      have hne : 0 < (escapeChar c).length := by
        unfold escapeChar
        split_ifs <;> exact Nat.succ_pos _
      rw [List.flatMap_cons, List.length_append, List.length_cons]
      omega
  exact readText_flatMap (by rw [List.length_append]; omega) [] rest

/-- A text is read back as a value. -/
lemma readValue_text (t rest : Text) :
    readValue (fuel + 1) (quote t ++ rest) = some (.text t, rest) := by
  have hquote : quote t ++ rest = '"' :: (t.flatMap escapeChar ++ '"' :: rest) := by
    simp [quote]
  rw [hquote, readValue, skipSpace_cons rfl]
  show (readText ((t.flatMap escapeChar ++ '"' :: rest).length + 1) [] _).map _ = _
  rw [readText_quote]
  rfl

/-- What begins like a number is read as one. -/
lemma readValue_cons_of_isNumeric {c : Char} (hc : isNumeric c = true) (t : Text) :
    readValue (fuel + 1) (c :: t) = readNumber (c :: t) := by
  have hspace : isSpace c = false := isSpace_of_isNumeric hc
  rw [readValue, skipSpace_cons hspace]
  split <;> rename_i e
  -- none of the other values starts with a character of numbers
  any_goals cases e; cases hc
  rfl

/-- An integer is read back as a value. -/
lemma readValue_int (n : Int) (hrest : EndsNumber rest) :
    readValue (fuel + 1) (Text.ofInt n ++ rest) = some (.int n, rest) := by
  rw [← readNumber_ofInt n hrest]
  obtain ⟨c, t, e, hc⟩ := exists_ofInt_eq_cons n
  rw [e]
  exact readValue_cons_of_isNumeric hc (t ++ rest)

/-- After its key, an entry goes on with its value. -/
lemma readEntries_quote (hspace : IsBlank space) (key t : Text) :
    readEntries (fuel + 1) (space ++ (quote key ++ ':' :: ' ' :: t)) =
      (readValue fuel t).bind fun read =>
        match skipSpace read.2 with
        | ',' :: rest =>
          (readEntries fuel rest).bind fun more => some ((key, read.1) :: more.1, more.2)
        | '\x7d' :: rest => some ([(key, read.1)], rest)
        | _ => none := by
  have hquote : quote key ++ ':' :: ' ' :: t =
      '"' :: (key.flatMap escapeChar ++ '"' :: ':' :: ' ' :: t) := by
    simp [quote]
  have hvalue : readValue fuel (' ' :: t) = readValue fuel t :=
    readValue_append isBlank_space t
  rw [readEntries, skipSpace_append hspace, hquote, skipSpace_cons rfl]
  show (readText ((key.flatMap escapeChar ++ '"' :: ':' :: ' ' :: t).length + 1) [] _).bind _ = _
  rw [readText_quote, Option.bind_some]
  show (Text.dropPrefix? [':'] (skipSpace (':' :: ' ' :: t))).bind _ = _
  rw [skipSpace_cons rfl]
  show (readValue fuel (' ' :: t)).bind _ = _
  rw [hvalue]
  rfl

/-- Items with commas between them are read back up to the end of the array. -/
lemma readItems_join {items : List Json} {gap : Text} (hne : items ≠ [])
    (hitems : ∀ item ∈ items, ReadsBack layout item)
    (hspace : IsBlank space) (hgap : IsBlank gap)
    (hfuel :
      (Text.join (layout.comma depth) (items.map (render layout depth))).length + 1 < fuel) :
    readItems fuel (space ++ (Text.join (layout.comma depth) (items.map (render layout depth))
      ++ (gap ++ ']' :: rest))) = some (items.map sorted, rest) := by
  induction items generalizing fuel space with
  | nil => exact absurd rfl hne
  | cons item items ih =>
    obtain ⟨hitem, hitems⟩ := List.forall_mem_cons.1 hitems
    obtain ⟨fuel, rfl⟩ : ∃ n, fuel = n + 1 := ⟨fuel - 1, by omega⟩
    rw [readItems, readValue_append hspace]
    cases items with
    | nil =>
      rw [List.map_singleton, Text.join] at hfuel ⊢
      have hend : EndsNumber (gap ++ ']' :: rest) := .append hgap rfl rest
      rw [hitem depth fuel _ (by omega) hend]
      simp only [Option.bind_eq_bind, Option.bind_some]
      rw [skipSpace_append hgap, skipSpace_cons rfl]
      rfl
    | cons next items =>
      obtain ⟨more, hmore, hjoin⟩ := exists_join_comma layout depth
      rw [List.map_cons, List.map_cons, hjoin, ← List.map_cons] at hfuel ⊢
      simp only [List.length_append, List.length_cons] at hfuel
      have hend : ∀ t, EndsNumber (',' :: t) := fun t => .cons rfl t
      simp only [List.append_assoc, List.cons_append]
      rw [hitem depth fuel _ (by omega) (hend _)]
      simp only [Option.bind_eq_bind, Option.bind_some]
      rw [skipSpace_cons rfl]
      show (readItems fuel _).bind _ = _
      rw [ih (List.cons_ne_nil next items) hitems hmore]
      · rfl
      · omega

/-- Entries with commas between them are read back up to the end of the object. -/
lemma readEntries_join {entries : List (Text × Json)} {gap : Text} (hne : entries ≠ [])
    (hentries : ∀ entry ∈ entries, ReadsBack layout entry.2)
    (hspace : IsBlank space) (hgap : IsBlank gap)
    (hfuel :
      (Text.join (layout.comma depth) (entries.map (renderEntry layout depth))).length + 1 < fuel) :
    readEntries fuel
        (space ++ (Text.join (layout.comma depth) (entries.map (renderEntry layout depth))
          ++ (gap ++ '\x7d' :: rest))) =
      some (entries.map fun entry => (entry.1, entry.2.sorted), rest) := by
  induction entries generalizing fuel space with
  | nil => exact absurd rfl hne
  | cons entry entries ih =>
    obtain ⟨hentry, hentries⟩ := List.forall_mem_cons.1 hentries
    obtain ⟨fuel, rfl⟩ : ∃ n, fuel = n + 1 := ⟨fuel - 1, by omega⟩
    cases entries with
    | nil =>
      rw [List.map_singleton, Text.join, renderEntry] at hfuel ⊢
      simp only [List.length_append, List.length_cons] at hfuel
      have hend : EndsNumber (gap ++ '\x7d' :: rest) := .append hgap rfl rest
      simp only [List.append_assoc, List.cons_append]
      rw [readEntries_quote hspace, hentry depth fuel _ (by omega) hend, Option.bind_some]
      dsimp only
      rw [skipSpace_append hgap, skipSpace_cons rfl]
      rfl
    | cons next entries =>
      obtain ⟨more, hmore, hjoin⟩ := exists_join_comma layout depth
      rw [List.map_cons, List.map_cons, hjoin, ← List.map_cons, renderEntry] at hfuel ⊢
      simp only [List.length_append, List.length_cons] at hfuel
      have hend : ∀ t, EndsNumber (',' :: t) := fun t => .cons rfl t
      simp only [List.append_assoc, List.cons_append]
      rw [readEntries_quote hspace, hentry depth fuel _ (by omega) (hend _), Option.bind_some]
      dsimp only
      rw [skipSpace_cons rfl]
      show (readEntries fuel _).bind _ = _
      rw [ih (List.cons_ne_nil next entries) hentries hmore]
      · rfl
      · omega

/-- An array with items is what is read as its items. -/
lemma readValue_array (hspace : IsBlank space) (h : StartsItem t) :
    readValue (fuel + 1) ('[' :: (space ++ t)) =
      (readItems fuel t).map fun read => (.array read.1, read.2) := by
  obtain ⟨c, more, rfl, hc, hne⟩ := h
  rw [readValue, skipSpace_cons rfl]
  simp only [skipSpace_append hspace, skipSpace_cons hc]
  split
  · rename_i e
    exact absurd (List.cons.inj e).1 hne
  · rfl

/-- An object with entries is what is read as its entries. -/
lemma readValue_object (hspace : IsBlank space) (h : ∃ rest, t = '"' :: rest) :
    readValue (fuel + 1) ('\x7b' :: (space ++ t)) =
      (readEntries fuel t).map fun read => (.object read.1, read.2) := by
  obtain ⟨more, rfl⟩ := h
  rw [readValue, skipSpace_cons rfl]
  simp only [skipSpace_append hspace]
  rw [skipSpace_cons rfl]
  rfl

/-- Arrays are read back if their items are. -/
lemma readsBack_array {items : List Json} (hfree : ∀ item ∈ items, FloatFree item)
    (h : ∀ item ∈ items, ReadsBack layout item) : ReadsBack layout (.array items) := by
  intro depth fuel rest hfuel hrest
  obtain ⟨fuel, rfl⟩ : ∃ n, fuel = n + 1 := ⟨fuel - 1, by omega⟩
  rw [sorted, sortedItems_eq_map]
  rw [render_array] at hfuel ⊢
  cases items with
  | nil => rfl
  | cons item items =>
    have hne := List.cons_ne_nil item items
    have hstart : StartsItem (Text.join (layout.comma (depth + 1))
        ((item :: items).map (render layout (depth + 1)))) :=
      (hfree item List.mem_cons_self).startsItem.join _ _
    have hlength := length_join_lt_bracket.trans_le (Nat.lt_succ_iff.1 hfuel)
    rw [bracket_append (List.map_eq_nil_iff.not.2 hne),
      readValue_array isBlank_lineBreak (hstart.append _)]
    exact congrArg (Option.map _) <|
      readItems_join hne h isBlank_nil isBlank_lineBreak hlength

/-- Objects are read back if their values are. -/
lemma readsBack_object {entries : List (Text × Json)}
    (h : ∀ entry ∈ entries, ReadsBack layout entry.2) : ReadsBack layout (.object entries) := by
  intro depth fuel rest hfuel hrest
  obtain ⟨fuel, rfl⟩ : ∃ n, fuel = n + 1 := ⟨fuel - 1, by omega⟩
  rw [sorted, sortedEntries_eq_map, sortEntries_map]
  rw [render_object] at hfuel ⊢
  have hsorted : ∀ entry ∈ sortEntries entries, ReadsBack layout entry.2 :=
    fun entry hentry => h entry (mem_sortBy.1 hentry)
  generalize sortEntries entries = entries at *
  cases entries with
  | nil => rfl
  | cons entry entries =>
    have hne := List.cons_ne_nil entry entries
    -- the quote of the first key
    have hstart : ∀ rest, ∃ more, Text.join (layout.comma (depth + 1))
        ((entry :: entries).map (renderEntry layout (depth + 1))) ++ rest = '"' :: more := by
      intro rest
      cases entries <;> exact ⟨_, rfl⟩
    have hlength := length_join_lt_bracket.trans_le (Nat.lt_succ_iff.1 hfuel)
    rw [bracket_append (List.map_eq_nil_iff.not.2 hne),
      readValue_object isBlank_lineBreak (hstart _)]
    exact congrArg (Option.map _) <|
      readEntries_join hne hsorted isBlank_nil isBlank_lineBreak hlength

/-- Every value without floating-point numbers is read back from its texts, in the order of its
keys. -/
theorem FloatFree.readsBack {value : Json} (h : FloatFree value) (layout : Layout) :
    ReadsBack layout value := by
  have hsucc : ∀ {n fuel : Nat}, n < fuel → ∃ m, fuel = m + 1 :=
    fun h => ⟨_, (Nat.succ_pred_eq_of_pos (Nat.zero_lt_of_lt h)).symm⟩
  induction h with
  | null =>
    intro depth fuel rest hfuel hrest
    obtain ⟨fuel, rfl⟩ := hsucc hfuel
    rfl
  | bool b =>
    intro depth fuel rest hfuel hrest
    obtain ⟨fuel, rfl⟩ := hsucc hfuel
    cases b <;> rfl
  | int n =>
    intro depth fuel rest hfuel hrest
    obtain ⟨fuel, rfl⟩ := hsucc hfuel
    exact readValue_int n hrest
  | text t =>
    intro depth fuel rest hfuel hrest
    obtain ⟨fuel, rfl⟩ := hsucc hfuel
    exact readValue_text t rest
  | array hfree ih => exact readsBack_array hfree ih
  | object _ ih => exact readsBack_object ih

/-! ### Documents -/

/-- A document is read back. -/
theorem FloatFree.ofText?_document {value : Json} (h : FloatFree value) (layout : Layout) :
    ofText? (document layout value) = some value.sorted := by
  unfold ofText? document
  rw [h.readsBack layout 0 _ _ _ (.cons rfl _)]
  · rfl
  · rw [List.length_append]
    omega

/-- Entries in order stay as they are. -/
lemma sortEntries_sortEntries {α : Type} (entries : List (Text × α)) :
    sortEntries (sortEntries entries) = sortEntries entries :=
  sortBy_eq_self (pairwise_sortBy entries)

/-- The text does not depend on the order of entries. -/
lemma FloatFree.render_sorted {value : Json} (h : FloatFree value) (layout : Layout)
    (depth : Nat) : render layout depth value.sorted = render layout depth value := by
  induction h generalizing depth with
  | null | bool b | int n | text t => rfl
  | array _ ih =>
    rw [sorted, sortedItems_eq_map, render_array, render_array, List.map_map]
    exact congrArg _ (List.map_congr_left fun item hitem => ih item hitem (depth + 1))
  | @object entries _ ih =>
    rw [sorted, sortedEntries_eq_map, sortEntries_map, render_object, render_object,
      sortEntries_map, sortEntries_sortEntries, List.map_map]
    refine congrArg _ (List.map_congr_left fun entry hentry => ?_)
    have hvalue := ih entry (mem_sortBy.1 hentry) (depth + 1)
    exact congrArg (fun t => quote entry.1 ++ ':' :: ' ' :: t) hvalue

/-- Two values have the same document exactly when they are the same up to the order of entries. -/
theorem FloatFree.same_document_iff {v w : Json} (hv : FloatFree v) (hw : FloatFree w)
    (layout : Layout) : document layout v = document layout w ↔ v.sorted = w.sorted := by
  constructor
  · intro h
    have hread := congrArg ofText? h
    rw [hv.ofText?_document, hw.ofText?_document] at hread
    exact Option.some.inj hread
  · intro h
    unfold document
    rw [← hv.render_sorted, ← hw.render_sorted, h]

end SiteAudit.Json
