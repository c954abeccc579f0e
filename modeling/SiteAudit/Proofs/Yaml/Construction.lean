import SiteAudit.Proofs.Yaml.Atoms

/-!
# Failures of the construction

A construction that fails for a cause without words has come to a node whose tag cannot take its
text (`Document.ofGraph_error`). The nodes change while mappings are merged, but neither the texts
of scalars do nor any tag that a text may not suit (`Agrees`).
-/

namespace SiteAudit.Yaml

open Construction

/-- The node has this text, if it is a scalar. -/
def Node.Reads (n : Node) (t : Text) : Prop := ∀ own, n.content = .scalar own → own.text = t

/-- The tags of atoms, which ask for a scalar, and the tag of a key that becomes a text. -/
def Tag.IsAtomic (tag : Tag) : Prop :=
  tag ∈ [.null, .bool, .int, .float, .binary, .timestamp, .text, .value]

instance (tag : Tag) : Decidable tag.IsAtomic := inferInstanceAs (Decidable (_ ∈ _))

/-- The tag of the node cannot take its text, or asks for a scalar where there is none. -/
def Node.Offends (n : Node) (cause : Unsuitable) : Prop :=
  (∃ t, n.Reads t ∧ Rejects n.tag t cause) ∨
    (cause = .timestampMapping ∧ n.tag = .timestamp ∨ cause = .circular ∧ n.tag.IsAtomic) ∧
      ∀ s, n.content ≠ .scalar s

namespace Construction

variable {g : Graph} {number : Nat}

/-- The failure is put into words, or a node of the graph is to blame. -/
def Blames (g : Graph) (e : Error) : Prop :=
  e.IsReported ∨ ∃ cause, e = .unsuitable cause ∧ ∃ n ∈ g.nodes, n.Offends cause

/-- A failure at a place blames no node. -/
lemma blames_at {context : Option (Context × Option Mark)} {problem : Problem} {mark : Mark} :
    Blames g (.at_ context problem mark) := .inl isReported_at

/-- The node is the one of the graph, but that the key of a value may have become a text, and a
mapping may have other pairs. -/
structure IsFrom (g : Graph) (number : Nat) (n : Node) : Prop where
  tag : ∀ m, g.nodes[number]? = some m → n.tag = m.tag ∨ m.tag = .value ∧ n.tag = .text
  content : ∀ m, g.nodes[number]? = some m → ∀ s, n.content = .scalar s ↔ m.content = .scalar s

/-- The nodes are those of the graph. -/
def Agrees (g : Graph) (s : State) : Prop :=
  s.nodes.size = g.nodes.size ∧ ∀ number n, s.nodes[number]? = some n → IsFrom g number n

/-- The step keeps the nodes of the graph, and blames one of them if it fails without words. -/
abbrev Builds {α : Type} (g : Graph) (x : Builder α) (Q : α → Prop) : Prop :=
  Keeps (Agrees g) (Blames g) x Q

/-- The node is no scalar. -/
def IsCollection (g : Graph) (number : Nat) : Prop :=
  ∀ m, g.nodes[number]? = some m → ∀ s, m.content ≠ .scalar s

/-! ### Nodes -/

/-- A node by its number is the one of the graph; without one it is nothing. -/
lemma builds_nodeAt {B : Error → Prop} (number : Nat) :
    Keeps (Agrees g) B (nodeAt number) fun n =>
      IsFrom g number n ∧ (g.nodes[number]? = none → n = nothing) := by
  refine Keeps.bind Keeps.get fun s hs => Keeps.pure ?_
  cases hn : s.nodes[number]? with
  | some n =>
    refine ⟨hs.2 number n hn, fun hnone => ?_⟩
    rw [Array.getElem?_eq_none_iff, ← hs.1] at hnone
    rw [Array.getElem?_eq_none hnone] at hn
    cases hn
  | none =>
    refine ⟨⟨fun m hm => ?_, fun m hm => ?_⟩, fun _ => rfl⟩ <;>
    · rw [Array.getElem?_eq_none_iff, hs.1] at hn
      rw [Array.getElem?_eq_none hn] at hm
      cases hm

/-- The state stays as it is, and has the node. -/
lemma leads_nodeAt {B : Error → Prop} (number : Nat) :
    Leads (Agrees g) B (nodeAt number) fun n s =>
      Agrees g s ∧ n = (s.nodes[number]?).getD nothing :=
  Leads.get_bind fun _ hs => Leads.pure fun _ e => by rw [e]; exact ⟨hs, rfl⟩

/-- A change of one node has to leave it the one of the graph. -/
lemma agrees_modify {s : State} {change : Node → Node} (hs : Agrees g s)
    (h : ∀ n, s.nodes[number]? = some n → IsFrom g number n → IsFrom g number (change n)) :
    Agrees g { s with nodes := s.nodes.modify number change } := by
  refine ⟨by rw [Array.size_modify]; exact hs.1, fun i n hn => ?_⟩
  rw [Array.getElem?_modify] at hn
  split at hn
  · rename_i hi
    obtain ⟨n', hn', rfl⟩ := Option.map_eq_some_iff.1 hn
    rw [← hi]
    rw [← hi] at hn'
    exact h n' hn' (hs.2 number n' hn')
  · exact hs.2 i n hn

/-- Only a collection has pairs. -/
lemma builds_pairsOf (number : Nat) :
    Builds g (pairsOf number) fun pairs => pairs ≠ [] → IsCollection g number := by
  refine (builds_nodeAt number).bind fun n hn => ?_
  split
  · rename_i pairs hc
    refine Keeps.pure fun _ m hm t ht => ?_
    rw [(hn.1.content m hm t).2 ht] at hc
    cases hc
  · exact Keeps.pure fun h => absurd rfl h

/-- A collection may get other pairs. -/
lemma builds_setPairs {pairs : List (Nat × Nat)} (h : IsCollection g number) :
    Builds g (setPairs number pairs) fun _ => True := by
  refine Keeps.modify fun s hs => agrees_modify hs fun n _ hn => ⟨hn.tag, fun m hm t => ?_⟩
  exact iff_of_false (fun hc => by cases hc) (h m hm t)

/-! ### Merging -/

/-- What is merged is a mapping or several, or the failure says that it is none. -/
lemma builds_mergedPairs {flatten : Nat → Builder Unit} {target : Mark} {source : Nat}
    (hf : ∀ node, Builds g (flatten node) fun _ => True) :
    Builds g (mergedPairs flatten target source) fun _ => True := by
  refine (builds_nodeAt source).bind fun n _ => ?_
  split
  · exact (hf source).bind fun _ _ => (builds_pairsOf source).mono fun _ _ => trivial
  · refine Keeps.foldlM trivial fun pairs _ item _ => (builds_nodeAt item).bind fun part _ => ?_
    split
    · exact (hf item).bind fun _ _ => (builds_pairsOf item).bind fun _ _ => .pure trivial
    · exact .throw blames_at
  · exact .throw blames_at

/-- Only a collection has pairs merged into it, and a key that stands for its own text becomes
one. -/
lemma builds_mergeStep {flatten : Nat → Builder Unit} {node : Nat} {state : Nat × List (Nat × Nat)}
    (hf : ∀ node, Builds g (flatten node) fun _ => True)
    (hs : state.2 ≠ [] → IsCollection g node) :
    Builds g (mergeStep flatten node state) fun next => next.2 ≠ [] → IsCollection g node := by
  refine (builds_pairsOf node).bind fun pairs hpairs => ?_
  cases hp : pairs[state.1]? with
  | none => exact .pure hs
  | some pair =>
    have hcol : IsCollection g node := hpairs fun h => by rw [h] at hp; cases hp
    refine Leads.bind (leads_nodeAt pair.1) fun n => ?_
    split
    · refine Leads.mono (I := Agrees g) ?_ (fun _ h => h.1) fun _ _ h => h
      exact (builds_setPairs hcol).bind fun _ _ => (builds_nodeAt node).bind fun _ _ =>
        (builds_mergedPairs hf).bind fun _ _ => .pure fun _ => hcol
    · -- the key becomes a text, which is the one change of a tag
      rename_i htag
      refine Leads.bind (J := fun _ => Agrees g) (.modify fun s hs => ?_)
        fun _ => Keeps.pure fun _ => hcol
      refine agrees_modify hs.1 fun k hk hfrom => ⟨fun m hm => ?_, hfrom.content⟩
      refine .inr ⟨?_, rfl⟩
      rcases hfrom.tag m hm with h | h
      · rw [← h, ← htag, hs.2, hk]
        rfl
      · exact h.1
    · exact Leads.mono (I := Agrees g) (Keeps.pure fun _ => hcol) (fun _ h => h.1) fun _ _ h => h

/-- Flattening fails in words only. -/
lemma builds_flatten (depth node : Nat) : Builds g (flatten depth node) fun _ => True := by
  induction depth generalizing node with
  | zero => exact .pure trivial
  | succ depth ih =>
    refine (builds_pairsOf node).bind fun pairs _ => ?_
    -- pairs have only been merged if the node is a mapping
    refine Keeps.bind (P := fun state => state.2 ≠ [] → IsCollection g node)
      (Keeps.foldlM (fun h => absurd rfl h) fun state hs _ _ => builds_mergeStep ih hs)
      fun state hs => ?_
    dsimp only
    split
    · rename_i hmore
      have hne : state.2 ≠ [] := by simpa using hmore
      exact (builds_pairsOf node).bind fun _ _ => builds_setPairs (hs hne)
    · exact .pure trivial

/-! ### Values -/

/-- The search for a scalar fails in words, or because it has no end. -/
lemma builds_written_end (fuel number : Nat) :
    Keeps (Agrees g) (fun e => e.IsReported ∨ e = .unsuitable .circular) (written fuel number)
      fun _ => True := by
  induction fuel generalizing number with
  | zero => exact .throw (.inr rfl)
  | succ fuel ih =>
    refine (builds_nodeAt number).bind fun n _ => ?_
    split
    · exact .pure trivial
    · exact .throw (.inl isReported_at)
    · refine Keeps.get.bind fun s _ => ?_
      dsimp only
      split
      · exact ih _
      · exact .throw (.inl isReported_at)

/-- What is written in a scalar is its own. The search has no end only at a node that is none. -/
lemma builds_written (fuel number : Nat) :
    Keeps (Agrees g) (fun e => e.IsReported ∨ e = .unsuitable .circular ∧
        ∃ m, g.nodes[number]? = some m ∧ ∀ s, m.content ≠ .scalar s)
      (written (fuel + 1) number) fun s => ∀ m, g.nodes[number]? = some m → m.Reads s.text := by
  refine (builds_nodeAt number).bind fun n hn => ?_
  split
  · rename_i scalar hc
    refine .pure fun m hm own ho => ?_
    have := (hn.1.content m hm own).2 ho
    rw [hc] at this
    cases this
    rfl
  · exact .throw (.inl isReported_at)
  · rename_i pairs hc
    have hnot : ∀ m, g.nodes[number]? = some m → ∀ s, m.content ≠ .scalar s := fun m hm s hs => by
      rw [(hn.1.content m hm s).2 hs] at hc
      cases hc
    refine Keeps.get.bind fun s _ => ?_
    dsimp only
    split
    · refine ((builds_written_end fuel _).mono_error fun e he => ?_).mono
        fun _ _ m hm own ho => absurd ho (hnot m hm own)
      refine he.imp_right fun he => ⟨he, ?_⟩
      cases hm : g.nodes[number]? with
      | none =>
        rw [hn.2 hm] at hc
        cases hc
      | some m => exact ⟨m, rfl, hnot m hm⟩
    · exact .throw (.inl isReported_at)

/-- Nothing and texts take every text. -/
lemma not_rejects {tag : Tag} {t : Text} {cause : Unsuitable} (ht : tag = .null ∨ tag = .text) :
    ¬ Rejects tag t cause := by
  cases cause <;> rcases ht with rfl | rfl <;> simp [Rejects]

/-- A node with a tag that may not be suited is in the graph. -/
lemma exists_node {n : Node} (hn : IsFrom g number n ∧ (g.nodes[number]? = none → n = nothing))
    (ht : ¬ (n.tag = .null ∨ n.tag = .text)) : ∃ m, g.nodes[number]? = some m ∧ n.tag = m.tag := by
  cases hm : g.nodes[number]? with
  | none =>
    rw [hn.2 hm] at ht
    exact absurd (.inl rfl) ht
  | some m => exact ⟨m, rfl, (hn.1.tag m hm).resolve_right fun h => ht (.inr h.2)⟩

/-- A text that is rejected blames the node. -/
lemma blames_of_rejects {n : Node} {t : Text} {e : Error}
    (hn : IsFrom g number n ∧ (g.nodes[number]? = none → n = nothing))
    (hr : ∀ m, g.nodes[number]? = some m → m.Reads t)
    (h : e.IsReported ∨ ∃ cause, e = .unsuitable cause ∧ Rejects n.tag t cause) : Blames g e := by
  rcases h with h | ⟨cause, rfl, h⟩
  · exact .inl h
  · obtain ⟨m, hm, ht⟩ := exists_node hn fun ht => not_rejects ht h
    rw [ht] at h
    exact .inr ⟨cause, rfl, m, Array.mem_of_getElem? hm, .inl ⟨t, hr m hm, h⟩⟩

/-- What an atom is made of is its own, or the node that has no end is to blame. -/
lemma builds_scalar {n : Node} {scalar : Builder Scalar} (hn : IsFrom g number n)
    (hs : Keeps (Agrees g) (fun e => e.IsReported ∨ e = .unsuitable .circular ∧
        ∃ m, g.nodes[number]? = some m ∧ ∀ s, m.content ≠ .scalar s)
      scalar fun s => ∀ m, g.nodes[number]? = some m → m.Reads s.text)
    (htag : n.tag.IsAtomic) :
    Builds g scalar fun s => ∀ m, g.nodes[number]? = some m → m.Reads s.text := by
  refine hs.mono_error fun e he => ?_
  rcases he with he | ⟨rfl, m, hm, hnot⟩
  · exact .inl he
  · refine .inr ⟨_, rfl, m, Array.mem_of_getElem? hm, .inr ⟨.inr ⟨rfl, ?_⟩, hnot⟩⟩
    rcases hn.tag m hm with h | ⟨h, _⟩
    · rwa [← h]
    · rw [h]
      decide

/-- An atom is made of what is written for the node, unless its tag cannot take that. -/
lemma builds_atom? {n : Node} {scalar : Builder Scalar}
    (hn : IsFrom g number n ∧ (g.nodes[number]? = none → n = nothing))
    (hs : Keeps (Agrees g) (fun e => e.IsReported ∨ e = .unsuitable .circular ∧
        ∃ m, g.nodes[number]? = some m ∧ ∀ s, m.content ≠ .scalar s)
      scalar fun s => ∀ m, g.nodes[number]? = some m → m.Reads s.text) :
    Builds g (atom? number n scalar) fun _ => True := by
  have htext (htag : n.tag.IsAtomic) : Builds g (do return (← scalar).text) fun t =>
      ∀ m, g.nodes[number]? = some m → m.Reads t :=
    (builds_scalar hn.1 hs htag).bind fun _ h => .pure h
  unfold atom?
  dsimp only
  generalize (do return (← scalar).text : Builder Text) = text at htext ⊢
  have hlift : ∀ {x : Text → Except Error Atom}, n.tag.IsAtomic →
      (∀ t e, x t = .error e →
        e.IsReported ∨ ∃ cause, e = .unsuitable cause ∧ Rejects n.tag t cause) →
      Builds g (do return some (← x (← text))) fun _ => True := by
    intro x htag hx
    exact (htext htag).bind fun t hr => Keeps.bind (P := fun _ => True)
      (.lift (fun _ _ => trivial) fun e he => blames_of_rejects hn hr (hx t e he))
      fun _ _ => .pure trivial
  split
  · rename_i htag
    exact (htext (by rw [htag]; decide)).bind fun _ _ => .pure trivial
  · rename_i htag
    refine hlift (by rw [htag]; decide) fun t e he => .inr ?_
    rw [htag]
    exact boolean_error he
  · rename_i htag
    refine hlift (by rw [htag]; decide) fun t e he => ?_
    rw [htag]
    exact integer_error he
  · rename_i htag
    refine hlift (by rw [htag]; decide) fun t e he => ?_
    rw [htag]
    exact float_error he
  · rename_i htag
    exact hlift (by rw [htag]; decide) fun t e he => .inl (binary_error he)
  · rename_i htag
    refine (htext (by rw [htag]; decide)).bind fun t hr => ?_
    split
    · refine Keeps.bind (P := fun _ => True)
        (.lift (fun _ _ => trivial) fun e he => blames_of_rejects hn hr ?_) fun _ _ => .pure trivial
      rw [htag]
      exact timestamp_error he
    · rename_i hc
      obtain ⟨m, hm, hm'⟩ := exists_node hn (by rw [htag]; simp)
      refine .throw (.inr ⟨_, rfl, m, Array.mem_of_getElem? hm,
        .inr ⟨.inl ⟨rfl, ?_⟩, fun s hs => ?_⟩⟩)
      · rw [← hm', htag]
      · exact hc s ((hn.1.content m hm s).2 hs)
  · rename_i htag
    exact (builds_scalar hn.1 hs (by rw [htag]; decide)).bind fun _ _ => .pure trivial
  · exact .pure trivial
  · exact .pure trivial
  · exact .pure trivial
  · exact .pure trivial
  · exact .pure trivial
  · exact .throw blames_at
  · exact .throw blames_at
  · exact .throw blames_at

/-- A change of what has been made leaves the nodes. -/
lemma builds_modify {change : State → State} (h : ∀ s, (change s).nodes = s.nodes) :
    Builds g (modify change) fun _ => True := by
  refine Keeps.modify fun s hs => ?_
  unfold Agrees
  rw [h s]
  exact hs

/-- Making a value fails where making its atom does, and nowhere else. -/
lemma builds_value (number : Nat) : Builds g (value number) fun _ => True := by
  refine Keeps.get.bind fun s _ => ?_
  split
  · exact .pure trivial
  · refine (builds_nodeAt number).bind fun n hn => ?_
    have hmade : ∀ v, Builds g (do
        modify fun s => { s with made := s.made.setIfInBounds number (some v) }
        return v) fun _ => True := by
      intro v
      refine (builds_modify ?_).bind fun _ _ => .pure trivial
      exact fun _ => rfl
    refine (builds_atom? hn (builds_written _ number)).bind fun atom _ => ?_
    split
    · exact hmade _
    · refine (builds_modify ?_).bind fun _ _ => hmade _
      exact fun _ => rfl

/-- The entries of what is no mapping are a failure in words, and so is a key that cannot be one. -/
lemma builds_entries (number : Nat) : Builds g (entries number) fun _ => True := by
  refine (builds_nodeAt number).bind fun n _ => ?_
  split
  · refine Keeps.get.bind fun s _ => (builds_flatten _ number).bind fun _ _ =>
      (builds_pairsOf number).bind fun pairs _ => ?_
    refine Keeps.foldlM trivial fun found _ pair _ => (builds_value pair.1).bind fun key _ => ?_
    split
    · exact (builds_value pair.2).bind fun _ _ => .pure trivial
    · exact (builds_nodeAt pair.1).bind fun _ _ => .throw blames_at
  · exact .throw blames_at

/-- Ordered pairs are mappings with one entry each, or the failure says what they are. -/
lemma builds_orderedPairs (context : Context) (n : Node) :
    Builds g (orderedPairs context n) fun _ => True := by
  unfold orderedPairs
  split
  · refine Keeps.mapM fun item _ => (builds_nodeAt item).bind fun part _ => ?_
    split
    · exact (builds_value _).bind fun _ _ => (builds_value _).bind fun _ _ => .pure trivial
    · exact .throw blames_at
    · exact .throw blames_at
  · exact .throw blames_at

/-- The parts of a collection are made as its kind asks for. -/
lemma builds_parts (number : Nat) : Builds g (parts number) fun _ => True := by
  refine (builds_nodeAt number).bind fun n _ => ?_
  split
  · split
    · exact (Keeps.mapM fun item _ => builds_value item).bind fun _ _ => .pure trivial
    · exact .throw blames_at
  · exact (builds_entries number).bind fun _ _ => .pure trivial
  · exact (builds_orderedPairs _ n).bind fun _ _ => .pure trivial
  · exact (builds_orderedPairs _ n).bind fun _ _ => .pure trivial
  · exact (builds_entries number).bind fun _ _ => .pure trivial

/-- So the collections that wait get their parts, or the failure is blamed on a node. -/
lemma builds_complete (fuel : Nat) : Builds g (complete fuel) fun _ => True := by
  induction fuel with
  | zero => exact .pure trivial
  | succ fuel ih =>
    refine Keeps.get.bind fun s _ => ?_
    split
    · exact .pure trivial
    · refine (builds_modify ?_).bind fun _ _ => (builds_parts _).bind fun _ _ =>
        (builds_modify ?_).bind fun _ _ => ih
      · exact fun _ => rfl
      · exact fun _ => rfl

end Construction

namespace Document

/-- A graph has no document for a reason in words, or because a node has a tag that cannot take its
text. -/
theorem ofGraph_error {g : Graph} {e : Error} (h : ofGraph g = .error e) : Blames g e := by
  unfold ofGraph at h
  dsimp only at h
  rcases bind_eq_error.1 h with h | ⟨_, _, h⟩
  · have hbuilds : Builds g (do
        let root ← Construction.value g.root
        Construction.complete (g.nodes.size + 1)
        return root) fun _ => True :=
      (builds_value g.root).bind fun _ _ => (builds_complete _).bind fun _ _ => .pure trivial
    refine hbuilds.run_error ?_ h
    -- at the start the nodes are those of the graph themselves
    refine ⟨rfl, fun number n hn => ⟨fun m hm => ?_, fun m hm => ?_⟩⟩
    · cases hn.symm.trans hm
      exact .inl rfl
    · cases hn.symm.trans hm
      exact fun _ => Iff.rfl
  · cases h

end Document

end SiteAudit.Yaml
