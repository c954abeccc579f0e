import SiteAudit.Proofs.Yaml.Reading
import SiteAudit.Yaml.Tokens

/-!
# Failures of the lexer

The lexer moves on in its text from token to token. A text without tokens therefore tells why, or
has an escape in it whose code point needs more than 31 bits.
-/

namespace SiteAudit.Yaml

namespace Lexer

variable {t : Text} {s : Lexer}

/-- What the lexer has still to read is the end of the text. -/
def StandsIn (t : Text) (s : Lexer) : Prop := s.cursor.rest <:+ t

/-- A step that leaves the lexer in the text, or tells its failure. -/
def Stays (t : Text) (x : Except Error Lexer) : Prop :=
  (∀ s, x = .ok s → s.StandsIn t) ∧ ∀ e, x = .error e → Told t e

/-- A step that leads into the text. -/
lemma Stays.ok (hs : s.StandsIn t) : Stays t (.ok s) := by
  refine ⟨?_, by simp⟩
  rintro _ ⟨⟩
  exact hs

/-- A failure that is told. -/
lemma Stays.error {e : Error} (he : Told t e) : Stays t (.error e) := by
  refine ⟨by simp, ?_⟩
  rintro _ ⟨⟩
  exact he

/-- One step after the other. -/
lemma Stays.bind {x : Except Error Lexer} {f : Lexer → Except Error Lexer} (hx : Stays t x)
    (hf : ∀ s, s.StandsIn t → Stays t (f s)) : Stays t (x >>= f) := by
  cases x with
  | error e => exact .error (hx.2 e rfl)
  | ok s => exact hf s (hx.1 s rfl)

/-- A choice between two steps. -/
lemma Stays.ite {c : Prop} [Decidable c] {x y : Except Error Lexer} (hx : Stays t x)
    (hy : Stays t y) : Stays t (if c then x else y) := by
  split
  · exact hx
  · exact hy

/-! ### Candidates and indentation -/

/-- Ending collections moves nothing. -/
lemma cursor_unwind (column : Int) (s : Lexer) : (s.unwind column).cursor = s.cursor := by
  have hgo (outer : List Int) (s : Lexer) : (unwind.go column outer s).cursor = s.cursor := by
    induction outer generalizing s with
    | nil => rfl
    | cons parent outer ih =>
      rw [unwind.go]
      split
      · exact ih _
      · rfl
  unfold unwind
  split
  · rfl
  · exact hgo _ _

/-- Starting a collection moves nothing. -/
lemma cursor_openHere (kind : Token.Kind) (s : Lexer) : (s.openHere kind).cursor = s.cursor := by
  unfold openHere open_
  split
  · rename_i h
    split at h <;> cases h
    rfl
  · rfl

/-- Stale candidates go, or one of them was a key without a colon. -/
lemma stays_dropStale (hs : s.StandsIn t) : Stays t s.dropStale := by
  unfold dropStale
  split
  · exact .error (.inl isReported_at)
  · exact .ok hs

/-- So does the candidate of the innermost collection. -/
lemma stays_dropCandidate (hs : s.StandsIn t) : Stays t s.dropCandidate := by
  unfold dropCandidate
  split
  · exact .error (.inl isReported_at)
  · exact .ok hs

/-- A new candidate takes the place of another. -/
lemma stays_addCandidate (hs : s.StandsIn t) : Stays t s.addCandidate := by
  unfold addCandidate
  split
  · exact (stays_dropCandidate hs).bind fun _ hs => .ok hs
  · exact .ok hs

/-! ### One token -/

/-- Indicators are moved over. -/
lemma standsIn_readIndicator (hs : s.StandsIn t) (kind : Token.Kind) (size : Nat) :
    (s.readIndicator kind size).StandsIn t := by
  change (s.cursor.advance size).rest <:+ t
  rw [Reader.advance_rest]
  exact (List.drop_suffix _ _).trans hs

/-- Readers are run where the lexer stands. -/
lemma stays_run {α : Type} {reader : Reader α} {f : α → Cursor → Lexer} (hs : s.StandsIn t)
    (hreader : Reader.Reads t reader) (hf : ∀ a cursor, (f a cursor).cursor = cursor) :
    Stays t (do
      let (a, cursor) ← reader.run s.cursor
      return f a cursor) := by
  cases hrun : reader.run s.cursor with
  | error e => exact .error (hreader.run_error hs hrun)
  | ok r =>
    refine .ok ?_
    unfold StandsIn
    rw [hf]
    exact (hreader.run_ok hs hrun).1

/-- A token that is read is put after the others. -/
lemma stays_read {reader : Reader Token} (hs : s.StandsIn t) (hreader : Reader.Reads t reader) :
    Stays t (s.read reader) :=
  stays_run (f := fun token cursor => { s.push token with cursor := cursor }) hs hreader
    fun _ _ => rfl

/-- The end of the text ends all collections. -/
lemma stays_endOfText (hs : s.StandsIn t) : Stays t s.endOfText :=
  (stays_dropCandidate (by rwa [StandsIn, cursor_unwind])).bind fun _ hs => .ok hs

/-- A directive ends all collections. -/
lemma stays_directive (hs : s.StandsIn t) : Stays t s.directive :=
  (stays_dropCandidate (by rwa [StandsIn, cursor_unwind])).bind fun _ hs =>
    stays_read hs Reader.reads_directive

/-- So does a separator of documents. -/
lemma stays_separator (hs : s.StandsIn t) (kind : Token.Kind) : Stays t (s.separator kind) :=
  (stays_dropCandidate (by rwa [StandsIn, cursor_unwind])).bind fun _ hs =>
    .ok (standsIn_readIndicator hs kind 3)

/-- The start of a flow collection may itself be a key. -/
lemma stays_flowStart (hs : s.StandsIn t) (kind : Token.Kind) : Stays t (s.flowStart kind) :=
  (stays_addCandidate hs).bind fun _ hs => .ok (standsIn_readIndicator hs kind 1)

/-- The end of a flow collection leaves no candidate in it. -/
lemma stays_flowEnd (hs : s.StandsIn t) (kind : Token.Kind) : Stays t (s.flowEnd kind) :=
  (stays_dropCandidate hs).bind fun _ hs => .ok (standsIn_readIndicator hs kind 1)

/-- An indicator after which there is no candidate. -/
lemma stays_indicator (hs : s.StandsIn t) (allowed : Bool) (kind : Token.Kind) :
    Stays t (do
      let s ← { s with keyAllowed := allowed }.dropCandidate
      return s.readIndicator kind 1) :=
  (stays_dropCandidate (s := { s with keyAllowed := allowed }) hs).bind fun _ hs =>
    .ok (standsIn_readIndicator hs kind 1)

/-- After a comma a key may follow. -/
lemma stays_flowEntry (hs : s.StandsIn t) : Stays t s.flowEntry := stays_indicator hs true _

/-- Starting a collection moves nothing. -/
lemma standsIn_openHere (hs : s.StandsIn t) (kind : Token.Kind) :
    (s.openHere kind).StandsIn t := by
  rwa [StandsIn, cursor_openHere]

/-- A dash may start a sequence, or is not allowed where it stands. -/
lemma stays_blockEntry (hs : s.StandsIn t) : Stays t s.blockEntry := by
  unfold blockEntry
  dsimp only
  split
  · exact .error (.inl isReported_at)
  split
  · exact stays_indicator (standsIn_openHere hs _) true _
  · exact stays_indicator hs true _

/-- A question mark may start a mapping, or is not allowed where it stands. -/
lemma stays_key (hs : s.StandsIn t) : Stays t s.key := by
  unfold key
  dsimp only
  split
  · exact .error (.inl isReported_at)
  split
  · exact stays_indicator (standsIn_openHere hs _) _ _
  · exact stays_indicator hs _ _

/-- Tokens are put before a candidate without moving. -/
lemma standsIn_valueOf (hs : s.StandsIn t) (c : Candidate) : (s.valueOf c).StandsIn t := by
  unfold valueOf open_
  dsimp only
  refine standsIn_readIndicator ?_ _ _
  split
  · rename_i h
    split at h
    · split at h <;> cases h
      exact hs
    · cases h
  · exact hs

/-- A colon without a key may start a mapping, or is not allowed where it stands. -/
lemma stays_valueAlone (hs : s.StandsIn t) : Stays t s.valueAlone := by
  unfold valueAlone
  dsimp only
  split
  · exact .error (.inl isReported_at)
  split
  · exact stays_indicator (standsIn_openHere hs _) _ _
  · exact stays_indicator hs _ _

/-- A value belongs to the candidate, if there is one. -/
lemma stays_value (hs : s.StandsIn t) : Stays t s.value := by
  unfold value
  split
  · exact .ok (standsIn_valueOf hs _)
  · exact stays_valueAlone hs

/-- What a node begins with may be a key. -/
lemma stays_node {reader : Reader Token} (hs : s.StandsIn t) (hreader : Reader.Reads t reader) :
    Stays t (s.node reader) :=
  (stays_addCandidate hs).bind fun _ hs => stays_read hs hreader

/-- A block scalar is no key. -/
lemma stays_blockScalar (hs : s.StandsIn t) (folded : Bool) : Stays t (s.blockScalar folded) :=
  (stays_dropCandidate (s := { s with keyAllowed := true }) hs).bind fun _ hs =>
    stays_read hs (Reader.reads_blockScalar _ _)

/-- A plain scalar may be a key, and tells whether another one may follow. -/
lemma stays_plainScalar (hs : s.StandsIn t) : Stays t s.plainScalar :=
  (stays_addCandidate hs).bind fun s hs => stays_run
    (f := fun a cursor => { s.push a.1 with cursor := cursor, keyAllowed := a.2 }) hs
    (Reader.reads_plainScalar _ _) fun _ _ => rfl

/-! ### From token to token -/

/-- Spaces and comments are moved over. -/
lemma reads_space (fuel : Nat) (ended : Bool) : Reader.Reads t (space fuel ended) := by
  induction fuel generalizing ended with
  | zero => exact .pure _
  | succ fuel ih =>
    refine .bind Reader.reads_skipSpaces fun _ => .bind Reader.reads_skipComment fun _ =>
      .bind Reader.reads_lineBreak fun lineEnd => ?_
    split
    · exact .pure _
    · exact ih _

/-- What lies between tokens is moved over. -/
lemma stays_skipSpace (hs : s.StandsIn t) : Stays t s.skipSpace :=
  stays_run (f := fun ended cursor => { s with
    cursor := cursor, keyAllowed := s.keyAllowed || (ended && s.level == 0) }) hs
    (.bind Reader.reads_mark fun _ => .bind Reader.reads_peek fun _ =>
      .after (Reader.reads_skip _) (.bind Reader.reads_bound fun _ => reads_space _ _))
    fun _ _ => rfl

/-- Whichever token comes next, it leaves the lexer in the text, or fails in words. -/
lemma stays_token (hs : s.StandsIn t) : Stays t s.token := by
  unfold token
  dsimp only
  split
  · exact stays_endOfText hs
  refine .ite (stays_directive hs) ?_
  refine .ite (stays_separator hs _) (.ite (stays_separator hs _) ?_)
  refine .ite (stays_flowStart hs _) (.ite (stays_flowStart hs _) ?_)
  refine .ite (stays_flowEnd hs _) (.ite (stays_flowEnd hs _) ?_)
  refine .ite (stays_flowEntry hs) (.ite (stays_blockEntry hs) ?_)
  refine .ite (stays_key hs) (.ite (stays_value hs) ?_)
  refine .ite (stays_node hs (Reader.reads_name _ _)) ?_
  refine .ite (stays_node hs (Reader.reads_name _ _)) ?_
  refine .ite (stays_node hs Reader.reads_tag) ?_
  refine .ite (stays_blockScalar hs _) (.ite (stays_blockScalar hs _) ?_)
  refine .ite (stays_node hs (Reader.reads_quotedScalar _)) ?_
  refine .ite (stays_node hs (Reader.reads_quotedScalar _)) ?_
  exact .ite (stays_plainScalar hs) (.error (.inl isReported_at))

/-- One more token leaves the lexer in the text, or tells its failure. -/
lemma stays_step (hs : s.StandsIn t) : Stays t s.step :=
  (stays_skipSpace hs).bind fun _ hs => (stays_dropStale hs).bind fun _ hs =>
    (stays_token (by rwa [StandsIn, cursor_unwind])).bind fun _ hs => stays_dropStale hs

/-- A run of the lexer ends well, or tells its failure. -/
lemma run_failure {e : Error} (fuel : Nat) (hs : s.StandsIn t) (h : (run fuel s).failure = some e) :
    Told t e := by
  induction fuel generalizing s with
  | zero => cases h
  | succ fuel ih =>
    rw [run] at h
    split at h
    · rename_i hstep
      cases h
      exact (stays_step hs).2 e hstep
    · rename_i next hstep
      split at h
      · cases h
      · exact ih ((stays_step hs).1 next hstep) h

end Lexer

/-- **A text without tokens tells why**, or has an escape in it that needs more than 31 bits. -/
theorem tokens_failure {t : Text} {e : Error} (h : (tokens t).failure = some e) : Told t e := by
  unfold tokens at h
  split at h
  · cases h
    exact .inl isReported_unacceptable
  · exact Lexer.run_failure (s := .ofText t) _ (List.suffix_refl t) h

end SiteAudit.Yaml
