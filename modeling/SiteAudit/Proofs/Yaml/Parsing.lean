import SiteAudit.Proofs.Run
import SiteAudit.Proofs.Yaml.Steps
import SiteAudit.Yaml.Graph

/-!
# Failures of the parser

The parser and the composer of graphs put all their failures into words. What they fail with
otherwise is the failure of the tokens that they are given (`Graph.ofText_error`).
-/

namespace SiteAudit.Yaml

namespace Parser

variable {α β : Type} {f : Option Error}

/-- The step fails in words, or with the failure of the tokens. -/
abbrev Passes (f : Option Error) (x : Parser α) : Prop :=
  Maintains (fun s => s.feed.failure = f) (fun e => e.IsReported ∨ f = some e) x

/-- A failure at a place. -/
lemma passes_throw {context : Option (Context × Option Mark)} {problem : Problem} {mark : Mark} :
    Passes f (throw (.at_ context problem mark) : Parser α) :=
  .throw (.inl isReported_at)

/-- Looking at the next token fails only where the tokens do. -/
lemma passes_peek : Passes f peek := by
  refine Keeps.bind Keeps.get fun s hs => ?_
  dsimp only
  split
  · exact Maintains.pure _
  · rename_i e _ he
    exact Keeps.throw (.inr (hs.symm.trans he))
  · exact Maintains.pure _

/-- Taking a token fails no other way. -/
lemma passes_take : Passes f take := by
  refine .bind passes_peek fun token => Maintains.bind (.modify fun s hs => ?_) fun _ => .pure _
  exact hs

/-- Expecting something does not fail. -/
lemma passes_expect (e : Expecting) : Passes f (expect e) := .modify fun _ hs => hs

/-- Asking what kind of token comes next fails only where the tokens do. -/
lemma passes_next (p : Token.Kind → Bool) : Passes f (next p) := .bind passes_peek fun _ => .pure _

/-- A failure at the next token is one in words. -/
lemma passes_fail (context : Context) (began : Mark) (problem : Text → Problem) :
    Passes f (fail context began problem : Parser α) :=
  .bind passes_peek fun _ => passes_throw

/-! ### Nodes -/

/-- An anchor is taken if it is the next token. -/
lemma passes_anchor? : Passes f anchor? := by
  refine .bind passes_peek fun token => ?_
  split
  · exact .bind passes_take fun _ => .pure _
  · exact .pure _

/-- So is a tag. -/
lemma passes_tag? : Passes f tag? := by
  refine .bind passes_peek fun token => ?_
  split
  · exact .bind passes_take fun _ => .pure _
  · exact .pure _

/-- The properties of a node. -/
lemma passes_properties : Passes f properties := by
  refine .bind passes_anchor? fun anchor => ?_
  split
  · refine .bind passes_tag? fun tag => ?_
    split
    · exact .pure _
    · exact .pure _
  · refine .bind passes_tag? fun tag => ?_
    split
    · exact .bind passes_anchor? fun _ => .pure _
    · exact .pure _

/-- The whole tag of a node. -/
lemma passes_resolve (p : Properties) : Passes f (resolve p) := by
  unfold resolve
  split
  · exact .pure _
  · exact .pure _
  · refine Maintains.get.bind fun s => ?_
    split
    · exact .pure _
    · exact passes_throw

/-- A node is an alias, or properties with a scalar or the start of a collection, or it is told that
there is none. -/
lemma passes_node (block indentless : Bool) : Passes f (node block indentless) := by
  refine .bind passes_peek fun first => ?_
  split
  · exact .bind passes_take fun _ => .pure _
  · refine .bind passes_properties fun p => (passes_resolve p).bind fun tag =>
      .bind passes_peek fun token => ?_
    dsimp only
    split
    · exact (passes_expect _).bind fun _ => .pure _
    · exact .bind passes_take fun _ => .pure _
    · exact .bind passes_take fun _ => (passes_expect _).bind fun _ => .pure _
    · exact .bind passes_take fun _ => (passes_expect _).bind fun _ => .pure _
    · exact .bind passes_take fun _ => (passes_expect _).bind fun _ => .pure _
    · exact .bind passes_take fun _ => (passes_expect _).bind fun _ => .pure _
    · split
      · exact .pure _
      · exact passes_fail _ _ _

/-! ### Documents -/

/-- Directives fail in words for a second version, one that is too high, or a repeated handle. -/
lemma passes_directives (tokens : List Token) (versioned : Bool) (handles : List (Text × Text)) :
    Passes f (directives tokens versioned handles) := by
  induction tokens generalizing versioned handles with
  | nil => exact .bind passes_peek fun _ => .pure _
  | cons token rest ih =>
    rw [directives]
    split
    · refine .bind passes_take fun _ => ?_
      split
      · exact .after passes_throw (.after passes_throw (ih _ _))
      · exact .after passes_throw (ih _ _)
      · exact ih _ _
    · exact .pure _

/-- Ends of documents are skipped. -/
lemma passes_skipDocumentEnds (tokens : List Token) : Passes f (skipDocumentEnds tokens) := by
  induction tokens with
  | nil => exact .pure _
  | cons token rest ih =>
    rw [skipDocumentEnds]
    split
    · exact .bind passes_take fun _ => ih
    · exact .pure _

/-- A document that is not the first one begins with a start of its own. -/
lemma passes_document : Passes f document := by
  refine Maintains.get.bind fun s => (passes_skipDocumentEnds _).bind fun _ =>
    .bind passes_peek fun first => ?_
  dsimp only
  split
  · exact .pure _
  · refine Maintains.get.bind fun s => (passes_directives _ _ _).bind fun declared =>
      Maintains.bind (.modify fun _ hs => hs) fun _ => .bind passes_peek fun token =>
        .after passes_throw ?_
    exact .bind passes_take fun _ => (passes_expect _).bind fun _ => (passes_expect _).bind fun _ =>
      .pure _

/-- The first document may begin without a start. -/
lemma passes_firstDocument : Passes f firstDocument := by
  refine .bind passes_peek fun token => ?_
  split
  · exact passes_document
  · exact Maintains.bind (.modify fun _ hs => hs) fun _ => (passes_expect _).bind fun _ =>
      (passes_expect _).bind fun _ => .pure _

/-- The content of a document may be empty. -/
lemma passes_documentContent : Passes f documentContent := by
  refine .bind passes_peek fun token => ?_
  split
  · exact .pure _
  · exact passes_node _ _

/-- The end of a document may be left out. -/
lemma passes_documentEnd : Passes f documentEnd := by
  refine .bind passes_peek fun token => ?_
  dsimp only
  split
  · exact .bind passes_take fun _ => (passes_expect _).bind fun _ => .pure _
  · exact (passes_expect _).bind fun _ => .pure _

/-! ### Collections -/

/-- A node, or nothing. -/
lemma passes_nodeUnless {stop : Token.Kind → Bool} {mark : Mark} {e : Expecting}
    {node : Parser Event} (h : Passes f node) : Passes f (nodeUnless stop mark e node) := by
  refine (passes_expect e).bind fun _ => (passes_next stop).bind fun stops => ?_
  split
  · exact .pure _
  · exact h

/-- The end of a collection takes its token. -/
lemma passes_endOf (kind : Event.Kind) : Passes f (endOf kind) :=
  .bind passes_take fun _ => .pure _

/-- What is not the separator that it should be is a failure in words. -/
lemma passes_separator (context : Context) (began : Mark) (problem : Text → Problem) :
    Passes f (separator context began problem) := by
  refine (passes_next _).bind fun comma => ?_
  split
  · exact .bind passes_take fun _ => .pure _
  · exact passes_fail _ _ _

/-- After the dash of a sequence comes an item, an empty one, or the end. -/
lemma passes_blockSequenceEntry (began : Mark) : Passes f (blockSequenceEntry began) := by
  refine .bind passes_peek fun token => ?_
  split
  · exact .bind passes_take fun _ => passes_nodeUnless (passes_node _ _)
  split
  · exact passes_endOf _
  · exact passes_fail _ _ _

/-- A sequence without indentation ends where no dash comes. -/
lemma passes_indentlessEntry : Passes f indentlessEntry := by
  refine .bind passes_peek fun token => ?_
  split
  · exact .bind passes_take fun _ => passes_nodeUnless (passes_node _ _)
  · exact .pure _

/-- A block mapping goes on with a key or ends. -/
lemma passes_blockMappingKey (began : Mark) : Passes f (blockMappingKey began) := by
  refine .bind passes_peek fun token => ?_
  split
  · exact .bind passes_take fun _ => passes_nodeUnless (passes_node _ _)
  split
  · exact passes_endOf _
  · exact passes_fail _ _ _

/-- After a key comes its value, which may be empty. -/
lemma passes_blockMappingValue (began : Mark) : Passes f (blockMappingValue began) := by
  refine .bind passes_peek fun token => ?_
  split
  · exact .bind passes_take fun _ => passes_nodeUnless (passes_node _ _)
  · exact (passes_expect _).bind fun _ => .pure _

/-- The items of a flow sequence have a comma between them, and may be single pairs. -/
lemma passes_flowSequenceEntry (began : Mark) (first : Bool) :
    Passes f (flowSequenceEntry began first) := by
  have hentry : Passes f (do
      let token ← peek
      if token.kind == .key then
        expect (.pairKey began)
        return ⟨.mappingStart none .fromKind, token.start⟩
      else if token.kind == .flowSequenceEnd then endOf .sequenceEnd
      else
        expect (.flowSequenceEntry began)
        node false false) := by
    refine .bind passes_peek fun token => ?_
    split
    · exact (passes_expect _).bind fun _ => .pure _
    split
    · exact passes_endOf _
    · exact (passes_expect _).bind fun _ => passes_node _ _
  refine (passes_next _).bind fun ends => ?_
  dsimp only
  split
  · exact passes_endOf _
  split
  · exact (passes_separator _ _ _).bind fun _ => hentry
  · exact hentry

/-- The key of a single pair may be empty. -/
lemma passes_pairKey (began : Mark) : Passes f (pairKey began) :=
  .bind passes_take fun _ => passes_nodeUnless (passes_node _ _)

/-- So may its value. -/
lemma passes_pairValue (began : Mark) : Passes f (pairValue began) := by
  refine .bind passes_peek fun token => ?_
  split
  · exact .bind passes_take fun _ => passes_nodeUnless (passes_node _ _)
  · exact (passes_expect _).bind fun _ => .pure _

/-- A single pair ends without a token. -/
lemma passes_pairEnd (began : Mark) : Passes f (pairEnd began) :=
  (passes_expect _).bind fun _ => .bind passes_peek fun _ => .pure _

/-- The keys of a flow mapping have a comma before them, except for the first. -/
lemma passes_flowMappingKey (began : Mark) (first : Bool) :
    Passes f (flowMappingKey began first) := by
  have hentry : Passes f (do
      let token ← peek
      if token.kind == .key then
        let _ ← take
        nodeUnless (fun k => k == .value || k == .flowEntry || k == .flowMappingEnd) token.stop
          (.flowMappingValue began) (node false false)
      else if token.kind == .flowMappingEnd then endOf .mappingEnd
      else
        expect (.flowMappingNoValue began)
        node false false) := by
    refine .bind passes_peek fun token => ?_
    split
    · exact .bind passes_take fun _ => passes_nodeUnless (passes_node _ _)
    split
    · exact passes_endOf _
    · exact (passes_expect _).bind fun _ => passes_node _ _
  refine (passes_next _).bind fun ends => ?_
  dsimp only
  split
  · exact passes_endOf _
  split
  · exact (passes_separator _ _ _).bind fun _ => hentry
  · exact hentry

/-- The value of a key may be empty. -/
lemma passes_flowMappingValue (began : Mark) : Passes f (flowMappingValue began) := by
  refine .bind passes_peek fun token => ?_
  split
  · exact .bind passes_take fun _ => passes_nodeUnless (passes_node _ _)
  · exact (passes_expect _).bind fun _ => .pure _

/-- Whatever is expected, meeting it fails in words only, or with the tokens. -/
lemma passes_meet (e : Expecting) : Passes f (meet e) := by
  cases e with
  | firstDocument => exact passes_firstDocument
  | document => exact passes_document
  | documentContent => exact passes_documentContent
  | documentEnd => exact passes_documentEnd
  | blockNode => exact passes_node _ _
  | blockSequenceEntry began => exact passes_blockSequenceEntry began
  | indentlessEntry => exact passes_indentlessEntry
  | blockMappingKey began => exact passes_blockMappingKey began
  | blockMappingValue began => exact passes_blockMappingValue began
  | flowSequenceFirst began => exact passes_flowSequenceEntry began true
  | flowSequenceEntry began => exact passes_flowSequenceEntry began false
  | pairKey began => exact passes_pairKey began
  | pairValue began => exact passes_pairValue began
  | pairEnd began => exact passes_pairEnd began
  | flowMappingFirst began => exact passes_flowMappingKey began true
  | flowMappingKey began => exact passes_flowMappingKey began false
  | flowMappingValue began => exact passes_flowMappingValue began
  | flowMappingNoValue began =>
    exact (passes_expect _).bind fun _ => .bind passes_peek fun _ => .pure _

/-- So the next event fails in words, or with the tokens. -/
lemma passes_event : Passes f event := by
  refine Maintains.get.bind fun s => ?_
  split
  · exact .bind passes_peek fun _ => .pure _
  · exact Maintains.bind (.modify fun _ hs => hs) fun _ => passes_meet _

/-- A run fails in words, or with the failure of the tokens. -/
lemma run_failure {fuel : Nat} {s : Outlook} {e : Error} (h : (run fuel s).failure = some e) :
    e.IsReported ∨ s.feed.failure = some e := by
  induction fuel generalizing s with
  | zero => cases h
  | succ fuel ih =>
    rw [run] at h
    cases hr : event s with
    | error e' =>
      rw [hr] at h
      cases h
      exact passes_event.run_error rfl hr
    | ok r =>
      obtain ⟨e', next⟩ := r
      rw [hr] at h
      dsimp only at h
      split at h
      · cases h
      · -- the feed of the next event fails as this one's does
        rw [← (passes_event.run_ok (s := s) rfl hr).1]
        exact ih h

end Parser

/-- The events fail in words, or with the failure of the tokens. -/
lemma events_failure {t : Text} {e : Error} (h : (events t).failure = some e) :
    e.IsReported ∨ (tokens t).failure = some e :=
  Parser.run_failure h

namespace Graph

/-- A new node can only fail in words. -/
lemma add_error {b : Builder} {anchor : Option Text} {node : Node} {e : Error}
    (h : b.add anchor node = .error e) : e.IsReported := by
  unfold Builder.add at h
  dsimp only at h
  split at h
  · cases h
  · split at h
    · cases h
      exact isReported_at
    · cases h

/-- An event can only fail in words. -/
lemma step_error {b : Builder} {event : Event} {e : Error} (h : b.step event = .error e) :
    e.IsReported := by
  have hadd : ∀ {anchor node} {g : Nat × Builder → Builder},
      (b.add anchor node >>= fun r => pure (g r)) = .error e → e.IsReported := by
    intro anchor node g h
    rcases bind_eq_error.1 h with h | ⟨_, _, h⟩
    · exact add_error h
    · cases h
  unfold Builder.step at h
  split at h
  · split at h
    · cases h
      exact isReported_at
    · cases h
  · cases h
  · cases h
  · split at h
    · cases h
    · cases h
      exact isReported_at
  · exact hadd h
  · exact hadd h
  · exact hadd h
  · cases h
  · cases h

/-- Events can only fail in words. -/
lemma steps_error {items : List Event} {b : Builder} {e : Error}
    (h : items.foldlM Builder.step b = .error e) : e.IsReported := by
  induction items generalizing b with
  | nil => cases h
  | cons event items ih =>
    rw [List.foldlM_cons] at h
    rcases bind_eq_error.1 h with h | ⟨_, _, h⟩
    · exact step_error h
    · exact ih h

/-- A text has no graph for a reason in words, or because of the failure of its tokens. -/
theorem ofText_error {t : Text} {e : Error} (h : ofText t = .error e) :
    e.IsReported ∨ (tokens t).failure = some e := by
  unfold ofText ofEvents at h
  rcases bind_eq_error.1 h with h | ⟨b, _, h⟩
  · exact .inl (steps_error h)
  · split at h
    · rename_i hf
      cases h
      exact events_failure hf
    · cases h

end Graph

end SiteAudit.Yaml
