import Mathlib.Data.List.TakeWhile
import Mathlib.Order.Basic
import SiteAudit.Proofs.Yaml.Steps
import SiteAudit.Yaml.Lexeme

/-!
# Failures of readers

Readers move on in a text, and put all their failures into words but one: an escape between double
quotes whose code point needs more than 31 bits (`HasLongEscape`).
-/

namespace SiteAudit.Yaml

/-- A backslash, a letter and as many hexadecimal digits as it asks for stand in the text, and their
value needs more than 31 bits. -/
def HasLongEscape (t : Text) : Prop :=
  ∃ x c digits y, t = x ++ '\\' :: c :: (digits ++ y) ∧
    Reader.escapeLength? c = some digits.length ∧ (∀ d ∈ digits, Text.isHexDigit d = true) ∧
    0x80000000 ≤ Reader.hexValue digits

/-- The failure is put into words, or comes from an escape in the text. -/
def Told (t : Text) (e : Error) : Prop :=
  e.IsReported ∨ e = .unsuitable .escape ∧ HasLongEscape t

namespace Reader

variable {α β : Type} {t : Text}

/-- The step stays in the text, and tells its failures. -/
abbrev Reads (t : Text) (x : Reader α) : Prop := Maintains (fun c => c.rest <:+ t) (Told t) x

/-! ### Looking and moving -/

/-- Asking for the place moves nothing. -/
lemma reads_mark : Reads t mark := Maintains.get.bind fun _ => .pure _

/-- Asking for the column moves nothing. -/
lemma reads_column : Reads t column := Maintains.get.bind fun _ => .pure _

/-- Asking for what is still to come moves nothing. -/
lemma reads_rest : Reads t rest := Maintains.get.bind fun _ => .pure _

/-- Looking at the next character moves nothing. -/
lemma reads_peek : Reads t peek := Maintains.get.bind fun _ => .pure _

/-- Looking further ahead moves nothing. -/
lemma reads_peekAt (n : Nat) : Reads t (peekAt n) := Maintains.get.bind fun _ => .pure _

/-- Asking for the number of characters still to come moves nothing. -/
lemma reads_bound : Reads t bound := .bind reads_rest fun _ => .pure _

/-- Characters that have been moved over are gone. -/
lemma advance_rest (n : Nat) (c : Cursor) : (c.advance n).rest = c.rest.drop n := by
  induction n generalizing c with
  | zero => rfl
  | succ n ih =>
    obtain ⟨rest, mark⟩ := c
    cases rest with
    | nil => rfl
    | cons d rest => exact ih _

/-- Moving over characters leaves an end of the text. -/
lemma reads_skip (n : Nat) : Reads t (skip n) := by
  refine Keeps.modify fun c hc => ?_
  rw [advance_rest]
  exact (List.drop_suffix n c.rest).trans hc

/-- Characters that are taken are moved over. -/
lemma reads_take (n : Nat) : Reads t (take n) :=
  .bind reads_rest fun _ => (reads_skip n).bind fun _ => .pure _

/-- So are those that are taken as long as they satisfy a condition. -/
lemma reads_takeWhile (p : Char → Bool) : Reads t (takeWhile p) :=
  .bind reads_rest fun _ => reads_take _

/-- Skipping characters that satisfy a condition stays in the text. -/
lemma reads_skipWhile (p : Char → Bool) : Reads t (skipWhile p) :=
  (reads_takeWhile p).bind fun _ => .pure _

/-- Skipping spaces stays in the text. -/
lemma reads_skipSpaces : Reads t skipSpaces := reads_skipWhile _

/-- A comment is skipped up to the end of its line. -/
lemma reads_skipComment : Reads t skipComment := by
  refine .bind reads_peek fun c => ?_
  split
  · exact reads_skipWhile _
  · exact .pure _

/-- A failure at the place reached is one in words. -/
lemma reads_fail (context : Context) (began : Mark) (problem : Problem) :
    Reads t (fail context began problem : Reader α) :=
  .bind reads_mark fun _ => .throw (.inl isReported_at)

/-- Nothing follows a failure. -/
lemma reads_fail_bind (context : Context) (began : Mark) (problem : Problem) (f : α → Reader β) :
    Reads t (fail context began problem >>= f) := by
  have hfail : Keeps (fun c => c.rest <:+ t) (Told t) (fail context began problem : Reader α)
      fun _ => False := Keeps.bind reads_mark fun _ _ => .throw (.inl isReported_at)
  exact Keeps.bind hfail fun _ h => h.elim

/-- A failure for want of something is one in words. -/
lemma reads_failExpected (context : Context) (began : Mark) (what : Expected) :
    Reads t (failExpected context began what : Reader α) :=
  .bind reads_peek fun _ => reads_fail _ _ _

/-- The end of a line is one character or two, or there is none. -/
lemma reads_lineBreak : Reads t lineBreak := by
  refine .bind reads_rest fun text => ?_
  split
  · exact (reads_skip _).bind fun _ => .pure _
  · split
    · exact (reads_skip _).bind fun _ => .pure _
    split
    · exact (reads_skip _).bind fun _ => .pure _
    · exact .pure _
  · exact .pure _

/-- Asking for an indicator at the start of a line moves nothing. -/
lemma reads_atIndicator (c : Char) : Reads t (atIndicator c) := .bind reads_rest fun _ => .pure _

/-- Asking for a separator of documents moves nothing. -/
lemma reads_atSeparator : Reads t atSeparator :=
  (reads_atIndicator _).bind fun _ => (reads_atIndicator _).bind fun _ => .pure _

/-! ### Directives -/

/-- The name of a directive has a blank after it, or the failure says what was expected. -/
lemma reads_directiveName (began : Mark) : Reads t (directiveName began) := by
  refine (reads_takeWhile _).bind fun name => ?_
  split
  · exact reads_failExpected _ _ _
  · refine .bind reads_peek fun c => ?_
    split
    · exact .pure _
    · exact reads_failExpected _ _ _

/-- A number in a version has digits, and not more of them than can be read. -/
lemma reads_versionNumber (began : Mark) : Reads t (versionNumber began) := by
  refine (reads_takeWhile _).bind fun digits => ?_
  split
  · exact reads_failExpected _ _ _
  · split
    · exact .pure _
    · exact .throw (.inl isReported_numeral)

/-- A version is two numbers with a dot between them. -/
lemma reads_version (began : Mark) : Reads t (version began) :=
  .bind reads_skipSpaces fun _ => (reads_versionNumber _).bind fun _ => .bind reads_peek fun _ =>
    .after (reads_failExpected _ _ _) <| (reads_skip _).bind fun _ =>
      (reads_versionNumber _).bind fun _ => .bind reads_peek fun _ =>
        .after (reads_failExpected _ _ _) (.pure _)

/-- A handle begins with an exclamation mark, and ends with one if a word follows. -/
lemma reads_tagHandle (context : Context) (began : Mark) : Reads t (tagHandle context began) := by
  refine .bind reads_peek fun c => .after (reads_failExpected _ _ _) ?_
  refine (reads_peekAt _).bind fun c => ?_
  split
  · exact reads_take _
  · refine .bind reads_rest fun text => (reads_peekAt _).bind fun c => ?_
    split
    · exact reads_take _
    · exact (reads_skip _).bind fun _ => reads_failExpected _ _ _

/-- Escaped bytes are read as long as there is a percent sign, each with its two digits. -/
lemma reads_uriBytes (context : Context) (began : Mark) (fuel : Nat) (bytes : Bytes) :
    Reads t (uriBytes context began fuel bytes) := by
  induction fuel generalizing bytes with
  | zero => exact .pure _
  | succ fuel ih =>
    refine .bind reads_peek fun c => ?_
    split
    · exact .pure _
    · refine (reads_skip _).bind fun _ => .bind reads_rest fun text => ?_
      split
      · split
        · exact reads_fail _ _ _
        split
        · exact reads_fail _ _ _
        · exact (reads_skip _).bind fun _ => ih _
      · exact reads_fail _ _ _
      · exact reads_fail _ _ _

/-- Escaped bytes are put together to a text; where they are none, the failure has its place. -/
lemma reads_uriEscapes (context : Context) (began : Mark) : Reads t (uriEscapes context began) := by
  refine .bind reads_mark fun place => .bind reads_bound fun fuel =>
    (reads_uriBytes _ _ _ _).bind fun bytes => ?_
  split
  · exact .pure _
  · exact .throw (.inl isReported_at)

/-- A URI is read in pieces: plain characters, then escaped bytes, and so on. -/
lemma reads_uriPieces (context : Context) (began : Mark) (fuel : Nat) (read : Text) :
    Reads t (uriPieces context began fuel read) := by
  induction fuel generalizing read with
  | zero => exact .pure _
  | succ fuel ih =>
    refine (reads_takeWhile _).bind fun plain => .bind reads_peek fun c => ?_
    split
    · exact (reads_uriEscapes _ _).bind fun _ => ih _
    · exact .pure _

/-- A URI that is empty fails in the words for what should have begun there. -/
lemma reads_uri (context emptyContext : Context) (began : Mark) :
    Reads t (uri context emptyContext began) := by
  refine .bind reads_peek fun first => .bind reads_bound fun fuel =>
    (reads_uriPieces _ _ _ _).bind fun text => ?_
  dsimp only
  split
  all_goals
    split
    · exact .pure _
    · exact reads_failExpected _ _ _

/-- A directive for a handle has the handle and a URI. -/
lemma reads_handleDirective (began : Mark) : Reads t (handleDirective began) :=
  .bind reads_skipSpaces fun _ => (reads_tagHandle _ _).bind fun _ => .bind reads_peek fun _ =>
    .after (reads_failExpected _ _ _) <| .bind reads_skipSpaces fun _ =>
      (reads_uri _ _ _).bind fun _ => .bind reads_peek fun _ =>
        .after (reads_failExpected _ _ _) (.pure _)

/-- Nothing but blanks and a comment is ignored at the end of a line. -/
lemma reads_ignoredLine (context : Context) (began : Mark) :
    Reads t (ignoredLine context began) :=
  .bind reads_skipSpaces fun _ => .bind reads_skipComment fun _ => .bind reads_peek fun _ =>
    .after (reads_failExpected _ _ _) (.bind reads_lineBreak fun _ => .pure _)

/-- A directive of any kind is read to the end of its line. -/
lemma reads_directive : Reads t directive := by
  refine .bind reads_mark fun began => (reads_skip _).bind fun _ =>
    (reads_directiveName _).bind fun name => ?_
  -- every kind of directive is followed by the rest of its line
  have hline : ∀ content : Directive, Reads t (do
      let stop ← mark
      if content = .reserved name then skipWhile (!isBreak ·)
      ignoredLine .directive began
      return ⟨.directive content, began, stop⟩ : Reader Token) :=
    fun content => .bind reads_mark fun _ => .after (reads_skipWhile _)
      ((reads_ignoredLine _ _).bind fun _ => .pure _)
  dsimp only
  split
  · exact (reads_version _).bind hline
  split
  · exact (reads_handleDirective _).bind hline
  · exact .bind (.pure _) hline

/-! ### Anchors, aliases and tags -/

/-- The name of an anchor or an alias is not empty and ends a word. -/
lemma reads_name (context : Context) (kind : Text → Token.Kind) : Reads t (name context kind) := by
  refine .bind reads_mark fun began => (reads_skip _).bind fun _ =>
    (reads_takeWhile _).bind fun text => ?_
  split
  · exact reads_failExpected _ _ _
  · refine .bind reads_peek fun c => ?_
    split
    · exact .bind reads_mark fun _ => .pure _
    · exact reads_failExpected _ _ _

/-- A tag is read in one of its four forms. -/
lemma reads_tag : Reads t tag := by
  refine .bind reads_mark fun began => (reads_peekAt _).bind fun next => ?_
  -- every form of a tag ends a word
  have hend : ∀ kind : Token.Kind, Reads t (do
      if !endsWord (← peek) then failExpected .tag began .space
      return ⟨kind, began, ← mark⟩ : Reader Token) :=
    fun kind => .bind reads_peek fun _ => .after (reads_failExpected _ _ _)
      (.bind reads_mark fun _ => .pure _)
  refine .bind reads_rest fun text => ?_
  dsimp only
  split
  · refine (reads_skip _).bind fun _ => (reads_uri _ _ _).bind fun _ => .bind reads_peek fun _ => ?_
    exact .after (reads_failExpected _ _ _)
      ((reads_skip _).bind fun _ => .bind (.pure _) hend)
  split
  · exact (reads_skip _).bind fun _ => .bind (.pure _) hend
  split
  · exact (reads_tagHandle _ _).bind fun _ => (reads_uri _ _ _).bind fun _ =>
      .bind (.pure _) hend
  · exact (reads_skip _).bind fun _ => (reads_uri _ _ _).bind fun _ => .bind (.pure _) hend

/-! ### Block scalars -/

/-- The mark of chomping is a plus or a minus, or is missing. -/
lemma reads_chomping : Reads t chomping := by
  refine .bind reads_peek fun c => ?_
  split
  · exact (reads_skip _).bind fun _ => .pure _
  · exact (reads_skip _).bind fun _ => .pure _
  · exact .pure _

/-- The mark of indentation is a digit, which may not be zero, or is missing. -/
lemma reads_indentation (began : Mark) : Reads t (indentation began) := by
  refine .bind reads_peek fun c => ?_
  split
  · dsimp only
    split
    · exact .pure _
    · exact .after (reads_fail _ _ _) ((reads_skip _).bind fun _ => .pure _)
  · exact .pure _

/-- The marks of a block scalar come in either order. -/
lemma reads_blockIndicators (began : Mark) : Reads t (blockIndicators began) := by
  refine .bind reads_chomping fun first => (reads_indentation _).bind fun indent => ?_
  have hend : ∀ last : Chomping, Reads t (do
      if endsWord (← peek) then return (last, indent)
      else failExpected .blockScalar began .chompingOrIndentation) := by
    refine fun last => .bind reads_peek fun c => ?_
    split
    · exact .pure _
    · exact reads_failExpected _ _ _
  dsimp only
  split
  · exact .bind reads_chomping hend
  · exact .bind (.pure _) hend

/-- Empty lines before the indentation is known. -/
lemma reads_leadingLines (fuel : Nat) (breaks : Text) (indent : Nat) :
    Reads t (leadingLines fuel breaks indent) := by
  induction fuel generalizing breaks indent with
  | zero => exact .pure _
  | succ fuel ih =>
    refine .bind reads_peek fun c => ?_
    split
    · exact (reads_skip _).bind fun _ => .bind reads_column fun _ => ih _ _
    · split
      · exact .bind reads_lineBreak fun _ => ih _ _
      · exact .pure _
    · exact .pure _

/-- The indentation is skipped as far as it is there. -/
lemma reads_skipIndent (indent : Nat) : Reads t (skipIndent indent) :=
  .bind reads_rest fun _ => .bind reads_column fun _ => reads_skip _

/-- Empty lines are read after their indentation is skipped. -/
lemma reads_emptyLines (indent fuel : Nat) (breaks : Text) :
    Reads t (emptyLines indent fuel breaks) := by
  induction fuel generalizing breaks with
  | zero => exact .pure _
  | succ fuel ih =>
    refine (reads_skipIndent _).bind fun _ => .bind reads_peek fun c => ?_
    split
    · split
      · exact .bind reads_lineBreak fun _ => ih _
      · exact .pure _
    · exact .pure _

/-- Asking for a blank moves nothing. -/
lemma reads_atBlank : Reads t atBlank := .bind reads_peek fun _ => .pure _

/-- The lines of a block scalar are read while they are indented. -/
lemma reads_blockLines (folded : Bool) (indent fuel : Nat) (read lineEnd breaks : Text) :
    Reads t (blockLines folded indent fuel read lineEnd breaks) := by
  induction fuel generalizing read lineEnd breaks with
  | zero => exact .pure _
  | succ fuel ih =>
    refine .bind reads_column fun column => .bind reads_peek fun c => ?_
    dsimp only
    split
    · exact .pure _
    · refine .bind reads_atBlank fun indented => (reads_takeWhile _).bind fun line =>
        .bind reads_lineBreak fun lineEnd => .bind reads_bound fun _ =>
          (reads_emptyLines _ _ _).bind fun breaks => .bind reads_column fun column =>
            .bind reads_peek fun c => ?_
      split
      · exact .pure _
      · exact .bind reads_atBlank fun _ => ih _ _ _

/-- A block scalar is read with its marks, whether its indentation is told or found. -/
lemma reads_blockScalar (folded : Bool) (parent : Int) : Reads t (blockScalar folded parent) := by
  refine .bind reads_mark fun began => (reads_skip _).bind fun _ =>
    (reads_blockIndicators _).bind fun indicators => (reads_ignoredLine _ _).bind fun _ => ?_
  dsimp only
  split
  · exact .bind reads_bound fun _ => (reads_leadingLines _ _ _).bind fun _ => .bind (.pure _)
      fun _ => .bind reads_bound fun _ => (reads_blockLines _ _ _ _ _ _).bind fun _ =>
        .bind reads_mark fun _ => .pure _
  · exact .bind reads_bound fun _ => (reads_emptyLines _ _ _).bind fun _ => .bind (.pure _)
      fun _ => .bind reads_bound fun _ => (reads_blockLines _ _ _ _ _ _).bind fun _ =>
        .bind reads_mark fun _ => .pure _

/-! ### Quoted scalars -/

/-- Code points up to 31 bits are told. -/
lemma reads_charOfCode {code : Nat} (h : 0x80000000 ≤ code → HasLongEscape t) :
    Reads t (charOfCode code) := by
  unfold charOfCode
  split
  · exact .pure _
  split
  · exact .pure _
  split
  · exact .throw (.inl isReported_codePoint)
  · exact Keeps.throw (.inr ⟨rfl, h (by omega)⟩)

/-- The characters of an escape stand right before the place reached. -/
def FollowsEscape (t : Text) (letter : Char) (c : Cursor) : Prop :=
  ∃ x, t = x ++ '\\' :: letter :: c.rest

/-- What follows an escape is an end of the text. -/
lemma FollowsEscape.suffix {letter : Char} {c : Cursor} (h : FollowsEscape t letter c) :
    c.rest <:+ t := by
  obtain ⟨x, rfl⟩ := h
  exact ⟨x ++ ['\\', letter], by simp⟩

/-- Hexadecimal digits are read after the letter that asks for them. -/
lemma leads_hexEscape (began : Mark) {letter : Char} {count : Nat}
    (hcount : escapeLength? letter = some count) :
    Leads (FollowsEscape t letter) (Told t) (hexEscape began count) fun _ c => c.rest <:+ t := by
  have hrest : Leads (FollowsEscape t letter) (Told t) rest
      fun text c => text = c.rest ∧ FollowsEscape t letter c := fun c hc => ⟨rfl, hc⟩
  refine hrest.bind fun text => ?_
  dsimp only
  split
  · exact (reads_fail _ _ _).leads fun _ hc => hc.2.suffix
  rename_i hdigits
  split
  · exact (reads_fail_bind _ _ _ _).leads fun _ hc => hc.2.suffix
  rename_i hlength
  -- all digits are there, so that an escape stands in the text, whatever becomes of its value
  have hlong (c : Cursor) (hc : text = c.rest ∧ FollowsEscape t letter c)
      (hvalue : 0x80000000 ≤ hexValue (text.take count)) : HasLongEscape t := by
    obtain ⟨rfl, x, hx⟩ := hc
    have htaken : (c.rest.take count).length = count :=
      le_antisymm (List.length_take_le _ _) (not_lt.1 hlength)
    refine ⟨x, letter, c.rest.take count, c.rest.drop count, ?_, ?_, ?_, hvalue⟩
    · rw [List.take_append_drop]
      exact hx
    · rw [htaken]
      exact hcount
    · exact List.dropWhile_eq_nil_iff.1 hdigits
  refine Leads.telling hlong fun hlong => Maintains.leads ?_ fun _ hc => hc.2.suffix
  exact (reads_charOfCode hlong).bind fun _ => (reads_skip _).bind fun _ => .pure _

/-- Between quotes no separator of documents may begin a line. -/
lemma reads_quotedBreaks (began : Mark) (fuel : Nat) (breaks : Text) :
    Reads t (quotedBreaks began fuel breaks) := by
  induction fuel generalizing breaks with
  | zero => exact .pure _
  | succ fuel ih =>
    refine .bind reads_atSeparator fun separated => .after (reads_fail _ _ _) ?_
    refine (reads_skipWhile _).bind fun _ => .bind reads_lineBreak fun lineEnd => ?_
    split
    · exact .pure _
    · exact ih _

/-- A backslash stands right before the place reached. -/
def FollowsBackslash (t : Text) (c : Cursor) : Prop := ∃ x, t = x ++ '\\' :: c.rest

/-- What follows a backslash is an end of the text. -/
lemma FollowsBackslash.suffix {c : Cursor} (h : FollowsBackslash t c) : c.rest <:+ t := by
  obtain ⟨x, rfl⟩ := h
  exact ⟨x ++ ['\\'], by simp⟩

/-- The next character is the first of what is still to come. -/
lemma leads_peek (I : Cursor → Prop) :
    Leads I (Told t) peek fun found c => found = c.rest.head? ∧ I c := fun _ hc => ⟨rfl, hc⟩

/-- Looking further ahead moves nothing. -/
lemma leads_peekAt (I : Cursor → Prop) (n : Nat) : Leads I (Told t) (peekAt n) fun _ => I :=
  fun _ hc => hc

/-- Moving over the next character, which is known. -/
lemma leads_skip {I J : Cursor → Prop} {d : Char}
    (hJ : ∀ rest mark mark', I ⟨d :: rest, mark⟩ → J ⟨rest, mark'⟩) :
    Leads (fun c => some d = c.rest.head? ∧ I c) (Told t) (skip 1) fun _ => J := by
  rintro ⟨text, mark⟩ ⟨hhead, hc⟩
  obtain ⟨rest, rfl⟩ := List.head?_eq_some_iff.1 hhead.symm
  exact hJ rest mark _ hc

/-- An escape, right after its backslash. -/
lemma leads_backslash (began : Mark) :
    Leads (FollowsBackslash t) (Told t) (backslash began) fun _ c => c.rest <:+ t := by
  refine (leads_peek _).bind fun found => ?_
  split
  · exact Maintains.leads ((reads_skip _).bind fun _ => .pure _) fun _ hc => hc.2.suffix
  · rename_i count _ hcount
    obtain ⟨letter, rfl, hletter⟩ := Option.bind_eq_some_iff.1 hcount
    have hskip : Leads (fun c => some letter = c.rest.head? ∧ FollowsBackslash t c) (Told t)
        (skip 1) fun _ => FollowsEscape t letter := leads_skip fun _ _ _ hc => hc
    exact hskip.bind fun _ => (leads_hexEscape began hletter).bind fun _ =>
      Maintains.leads (.pure _) fun _ hc => hc
  · refine Maintains.leads (.bind reads_lineBreak fun lineEnd => ?_) fun _ hc => hc.2.suffix
    split
    · exact reads_fail _ _ _
    · exact .bind reads_bound fun _ => reads_quotedBreaks _ _ _

/-- Characters between quotes are read up to a blank, with escapes among them if they are double. -/
lemma reads_quotedWord (double : Bool) (began : Mark) (fuel : Nat) (read : Text) :
    Reads t (quotedWord double began fuel read) := by
  induction fuel generalizing read with
  | zero => exact .pure _
  | succ fuel ih =>
    refine (reads_takeWhile _).bind fun plain => ?_
    -- the invariant is not enough before an escape: its backslash has to be remembered
    refine Leads.mono (J := fun _ c => c.rest <:+ t) ?_ (fun _ hc => hc) fun _ _ hc => ⟨hc, trivial⟩
    refine (leads_peek _).bind fun found => (leads_peekAt _ 1).bind fun next => ?_
    have hplain {x : Reader Text} (hx : Reads t x) :
        Leads (fun c => found = c.rest.head? ∧ c.rest <:+ t) (Told t) x fun _ c => c.rest <:+ t :=
      hx.leads fun _ hc => hc.2
    split
    · exact hplain ((reads_skip _).bind fun _ => ih _)
    split
    · exact hplain ((reads_skip _).bind fun _ => ih _)
    split
    · exact hplain ((reads_skip _).bind fun _ => ih _)
    split
    · rename_i hfound
      obtain ⟨_, hfound⟩ := Bool.and_eq_true_iff.1 hfound
      obtain rfl := eq_of_beq hfound
      have hskip : Leads (fun c => some '\\' = c.rest.head? ∧ c.rest <:+ t) (Told t)
          (skip 1) fun _ => FollowsBackslash t := leads_skip fun _ _ _ ⟨x, hx⟩ => ⟨x, hx.symm⟩
      exact hskip.bind fun _ => (leads_backslash began).bind fun _ => (ih _).leads fun _ hc => hc
    · exact hplain (.pure _)

/-- Blanks between quotes may not reach the end of the text. -/
lemma reads_quotedSpaces (began : Mark) : Reads t (quotedSpaces began) := by
  refine (reads_takeWhile _).bind fun blanks => .bind reads_peek fun found => ?_
  split
  · exact reads_fail _ _ _
  · refine .bind reads_lineBreak fun lineEnd => ?_
    split
    · exact .pure _
    · refine .bind reads_bound fun _ => (reads_quotedBreaks _ _ _).bind fun breaks => ?_
      split
      · exact .pure _
      split
      · exact .pure _
      · exact .pure _

/-- Between quotes words and blanks are read in turn. -/
lemma reads_quotedText (double : Bool) (began : Mark) (fuel : Nat) (read : Text) :
    Reads t (quotedText double began fuel read) := by
  induction fuel generalizing read with
  | zero => exact .pure _
  | succ fuel ih =>
    refine .bind reads_peek fun found => ?_
    split
    all_goals
      split
      · exact .pure _
      · exact (reads_quotedSpaces _).bind fun _ => .bind reads_bound fun _ =>
          (reads_quotedWord _ _ _ _).bind fun _ => ih _

/-- A quoted scalar is read up to the quote that ends it. -/
lemma reads_quotedScalar (double : Bool) : Reads t (quotedScalar double) :=
  .bind reads_mark fun _ => (reads_skip _).bind fun _ => .bind reads_rest fun _ =>
    .bind reads_bound fun _ => (reads_quotedWord _ _ _ _).bind fun _ => .bind reads_bound fun _ =>
      (reads_quotedText _ _ _ _).bind fun _ => .bind reads_rest fun _ =>
        (reads_skip _).bind fun _ => .bind reads_mark fun _ => .pure _

/-! ### Plain scalars -/

/-- Blanks and empty lines are skipped until something else comes or a document ends. -/
lemma reads_plainBreaks (fuel : Nat) (breaks : Text) : Reads t (plainBreaks fuel breaks) := by
  induction fuel generalizing breaks with
  | zero => exact .pure _
  | succ fuel ih =>
    refine .bind reads_peek fun c => ?_
    split
    · exact (reads_skip _).bind fun _ => ih _
    · refine .bind reads_lineBreak fun lineEnd => ?_
      split
      · exact .pure _
      · refine .bind reads_atSeparator fun separated => ?_
        split
        · exact .pure _
        · exact ih _

/-- Blanks and ends of lines after a plain scalar, which may go on. -/
lemma reads_plainSpaces : Reads t plainSpaces := by
  refine (reads_takeWhile _).bind fun blanks => .bind reads_lineBreak fun lineEnd => ?_
  dsimp only
  split
  · exact .pure _
  · refine .bind reads_atSeparator fun separated => ?_
    split
    · exact .pure _
    · refine .bind reads_bound fun _ => (reads_plainBreaks _ _).bind fun breaks => ?_
      split
      · exact .pure _
      split
      · exact .pure _
      split
      · exact .pure _
      · exact .pure _

/-- A plain scalar is read in runs, with blanks between them. -/
lemma reads_plainRuns (flow : Bool) (indent : Int) (fuel : Nat) (spaces : Text) (plain : Plain) :
    Reads t (plainRuns flow indent fuel spaces plain) := by
  induction fuel generalizing spaces plain with
  | zero => exact .pure _
  | succ fuel ih =>
    refine .bind reads_rest fun text => ?_
    dsimp only
    split
    all_goals
      split
      · exact .pure _
      · refine (reads_take _).bind fun run => .bind reads_mark fun stop =>
          .bind reads_plainSpaces fun next => .bind reads_peek fun c =>
            .bind reads_column fun column => ?_
        split
        · exact .pure _
        · exact ih _ _

/-- A plain scalar is read as far as it goes on. -/
lemma reads_plainScalar (flow : Bool) (parent : Int) : Reads t (plainScalar flow parent) :=
  .bind reads_mark fun _ => .bind reads_bound fun _ => (reads_plainRuns _ _ _ _ _).bind fun _ =>
    .pure _

end Reader

end SiteAudit.Yaml
