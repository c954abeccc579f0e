import Mathlib.Tactic.Common
import SiteAudit.Config.File
import SiteAudit.Proofs.CheckRuns
import SiteAudit.Proofs.Text

/-!
# Reasons for wrong configurations

The reason why a configuration is wrong takes several lines exactly if it tells a place in the text
(`Config.feed_mem_reason_iff`). All other reasons take one line, since whatever they quote is
quoted without line feeds.
-/

namespace SiteAudit

namespace Text

/-- What a number is written with are digits. -/
lemma exists_digit_of_mem_toDigits {base n : Nat} {c : Char} (hbase : 1 < base)
    (h : c ∈ Nat.toDigits base n) : ∃ d < base, c = Nat.digitChar d := by
  induction n using Nat.strong_induction_on with
  | _ n ih =>
    rw [Nat.toDigits_eq_if hbase] at h
    split at h
    · rename_i hlt
      exact ⟨n, hlt, List.mem_singleton.1 h⟩
    · rcases List.mem_append.1 h with h | h
      · exact ih (n / base) (Nat.div_lt_self (by omega) hbase) h
      · exact ⟨n % base, Nat.mod_lt n (by omega), List.mem_singleton.1 h⟩

/-- Digits are no ends of lines. -/
lemma feed_not_mem_toDigits {base : Nat} (hbase : 1 < base) (hle : base ≤ 16) (n : Nat) :
    '\n' ∉ Nat.toDigits base n := by
  have hdigits : ∀ d < 16, '\n' ≠ Nat.digitChar d := by decide
  intro h
  obtain ⟨d, hd, e⟩ := exists_digit_of_mem_toDigits hbase h
  exact hdigits d (hd.trans_le hle) e

/-- So there is no line feed in a natural number. -/
lemma feed_not_mem_ofNat (n : Nat) : '\n' ∉ ofNat n :=
  feed_not_mem_toDigits (by decide) (by decide) n

/-- Neither is there in an integer. -/
lemma feed_not_mem_ofInt (n : Int) : '\n' ∉ ofInt n := by
  cases n with
  | ofNat n => exact feed_not_mem_ofNat n
  | negSucc n => exact List.not_mem_cons_of_ne_of_not_mem (by decide) (feed_not_mem_ofNat _)

/-- Nor in a hexadecimal number, padded or not. -/
lemma feed_not_mem_padHex (width n : Nat) : '\n' ∉ padHex width n := by
  unfold padHex padLeft
  refine List.not_mem_append (fun h => ?_) (feed_not_mem_toDigits (by decide) (by decide) n)
  exact absurd (List.eq_of_mem_replicate h) (by decide)

/-- A text is quoted on one line. -/
lemma feed_not_mem_quoted (t : Text) : '\n' ∉ quoted t := by
  have hquote : '\n' ≠ quoteFor t := by
    unfold quoteFor
    split <;> decide
  have hescape : ∀ c, '\n' ∉ codeEscape c := by
    intro c
    unfold codeEscape
    dsimp only
    split_ifs
    all_goals exact List.not_mem_append (by decide) (feed_not_mem_padHex _ _)
  have hchar : ∀ c, '\n' ∉ quotedChar (quoteFor t) c := by
    intro c
    unfold quotedChar
    split_ifs with h
    · rcases h with rfl | rfl
      · simpa using hquote
      · decide
    · decide
    · decide
    · decide
    · simpa [eq_comm] using ‹¬ c = '\n'›
    · exact hescape c
  unfold quoted
  dsimp only
  simp [hquote, hchar]

end Text

namespace Yaml

/-- The error is told together with a place in the text. -/
def Error.HasPlace : Error → Prop
  | .unacceptable .. | .at_ .. => True
  | _ => False

/-- A place is told with its line below, after a line feed. -/
lemma Mark.feed_mem_describe (text : Text) (m : Mark) : '\n' ∈ m.describe text := by
  refine List.mem_append_left _ (List.mem_append_right _ ?_)
  decide

/-- A span of time is told on one line. -/
lemma feed_not_mem_spanText (minutes : Int) : '\n' ∉ spanText minutes := by
  have hmore : ∀ (b : Prop) [Decidable b] (n : Int),
      '\n' ∉ if b then [] else ", seconds=".toList ++ Text.ofInt n := by
    intro b _ n
    split
    · exact List.not_mem_nil
    · exact List.not_mem_append (by decide) (Text.feed_not_mem_ofInt n)
  refine List.not_mem_append (List.not_mem_append (List.not_mem_append ?_ ?_) (hmore _ _)) ?_
  · decide
  · exact Text.feed_not_mem_ofInt _
  · decide

/-- So is what is wrong with a date. -/
lemma CalendarError.feed_not_mem_message (cause : CalendarError) : '\n' ∉ cause.message := by
  cases cause with
  | year n =>
    refine List.not_mem_append (List.not_mem_append ?_ (Text.feed_not_mem_ofNat n)) ?_
    all_goals decide
  | offset minutes =>
    refine List.not_mem_append (List.not_mem_append ?_ (feed_not_mem_spanText minutes)) ?_
    all_goals decide
  | month | day | hour | minute | second => decide

end Yaml

/-- So is what is wrong with a numeral. -/
lemma NumeralError.feed_not_mem_message (cause : NumeralError) : '\n' ∉ cause.message := by
  cases cause with
  | notAnInteger base text =>
    refine List.not_mem_append (List.not_mem_append (List.not_mem_append ?_ ?_) ?_) fun h => ?_
    · decide
    · exact Text.feed_not_mem_ofNat base
    · decide
    · exact Text.feed_not_mem_quoted text (List.mem_of_mem_take h)
  | notANumber text => exact List.not_mem_append (by decide) (Text.feed_not_mem_quoted text)
  | tooManyDigits count =>
    refine List.not_mem_append (List.not_mem_append ?_ (Text.feed_not_mem_ofNat count)) ?_
    all_goals decide
  | tooLargeToWrite => decide

namespace Yaml

/-- A reason takes several lines exactly if it tells a place. -/
lemma Error.feed_mem_reason {e : Error} {text reason : Text} (h : e.reason? text = some reason) :
    '\n' ∈ reason ↔ e.HasPlace := by
  cases e with
  | unacceptable c position =>
    cases h
    refine iff_of_true (List.mem_append_left _ (List.mem_append_right _ ?_)) trivial
    decide
  | at_ context problem mark =>
    cases h
    refine iff_of_true (Text.mem_join_of_mem ?_ (mark.feed_mem_describe text)) trivial
    simp
  | numeral cause =>
    cases h
    exact iff_of_false cause.feed_not_mem_message id
  | calendar cause =>
    cases h
    exact iff_of_false cause.feed_not_mem_message id
  | codePoint =>
    cases h
    exact iff_of_false (by decide) id
  | unsuitable cause => cases h

/-- A failure with a place has a reason to tell. -/
lemma Error.exists_reason {e : Error} (h : e.HasPlace) (text : Text) :
    ∃ reason, e.reason? text = some reason := by
  cases e with
  | unacceptable c position => exact ⟨_, rfl⟩
  | at_ context problem mark => exact ⟨_, rfl⟩
  | numeral cause | calendar cause | codePoint | unsuitable cause => cases h

end Yaml

/-- What is wrong with bytes is told on one line. -/
lemma Utf8.Error.feed_not_mem_message (e : Utf8.Error) : '\n' ∉ e.message := by
  have hfault : '\n' ∉ e.fault.message := by
    cases e.fault <;> decide
  refine List.not_mem_append (List.not_mem_append (List.not_mem_append ?_ ?_) ?_) hfault
  · decide
  · split
    · refine List.not_mem_append (List.not_mem_append (List.not_mem_append ?_ ?_) ?_) ?_
      · decide
      · exact Text.feed_not_mem_padHex _ _
      · decide
      · exact Text.feed_not_mem_ofNat _
    · refine List.not_mem_append (List.not_mem_append (List.not_mem_append ?_ ?_) ?_) ?_
      · decide
      · exact Text.feed_not_mem_ofNat _
      · decide
      · exact Text.feed_not_mem_ofNat _
  · decide

namespace Config

/-- The content is a text in which a place is wrong. -/
def IsWrongAtPlace (content : Bytes) : Prop :=
  ∃ text e, Utf8.decode content = .ok text ∧
    Yaml.Document.ofText (unifyLineEnds text) = .error e ∧ e.HasPlace

/-- A failure with a reason makes the configuration invalid for it. -/
lemma errorOf_of_reason {text reason : Text} {e : Yaml.Error} (h : e.reason? text = some reason) :
    errorOf text e = .invalid reason := by
  unfold errorOf
  rw [h]

/-- An invalid configuration has the reason of its failure, or the empty one. -/
lemma reason_of_errorOf {text reason : Text} {e : Yaml.Error}
    (h : errorOf text e = .invalid reason) : e.reason? text = some reason ∨ reason = [] := by
  cases hreason : e.reason? text with
  | some other =>
    rw [errorOf_of_reason hreason] at h
    cases h
    exact .inl rfl
  | none =>
    unfold errorOf at h
    rw [hreason] at h
    split at h
    · rename_i hsome
      cases hsome
    · cases h
    · cases h
      exact .inr rfl

/-- The file of a configuration is wrong for a reason if its content is. -/
lemma loaded_eq_reason {content : Bytes} {reason : Text} :
    loaded (some content) = .ok (.error reason) ↔ ofBytes content = .error (.invalid reason) := by
  unfold loaded
  dsimp only
  rcases ofBytes content with (other | cause) | tree
  · simp
  · simp
  · simp

/-- A text is no configuration for the failure that its document has. -/
lemma parse_eq_error {text : Text} {error : ConfigError} :
    parse text = .error error ↔
      ∃ e, Yaml.Document.ofText text = .error e ∧ errorOf text e = error := by
  unfold parse
  cases h : Yaml.Document.ofText text with
  | error e => simp
  | ok document => cases document <;> simp

/-- A content is wrong because it is no text or because the text is no document. -/
lemma ofBytes_eq_invalid {content : Bytes} {reason : Text} :
    ofBytes content = .error (.invalid reason) ↔
      (∃ e, Utf8.decode content = .error e ∧ e.message = reason) ∨
        ∃ text e, Utf8.decode content = .ok text ∧
          Yaml.Document.ofText (unifyLineEnds text) = .error e ∧
          errorOf (unifyLineEnds text) e = .invalid reason := by
  unfold ofBytes
  cases Utf8.decode content with
  | error e => simp
  | ok text => simp [parse_eq_error]

/-- **The reason why a content is wrong takes several lines exactly if it tells a place in the
text.** -/
theorem feed_mem_reason_iff {content : Bytes} :
    (∃ reason, loaded (some content) = .ok (.error reason) ∧ '\n' ∈ reason) ↔
      IsWrongAtPlace content := by
  simp only [loaded_eq_reason, ofBytes_eq_invalid]
  constructor
  · rintro ⟨reason, ⟨e, -, rfl⟩ | ⟨text, e, hdecode, htext, herror⟩, hfeed⟩
    · exact absurd hfeed e.feed_not_mem_message
    · rcases reason_of_errorOf herror with hreason | rfl
      · exact ⟨text, e, hdecode, htext, (Yaml.Error.feed_mem_reason hreason).1 hfeed⟩
      · cases hfeed
  · rintro ⟨text, e, hdecode, htext, hplace⟩
    obtain ⟨reason, hreason⟩ := Yaml.Error.exists_reason hplace (unifyLineEnds text)
    exact ⟨reason, .inr ⟨text, e, hdecode, htext, errorOf_of_reason hreason⟩,
      (Yaml.Error.feed_mem_reason hreason).2 hplace⟩

end Config

end SiteAudit
