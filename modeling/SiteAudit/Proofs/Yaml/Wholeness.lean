import Mathlib.Data.List.Basic
import SiteAudit.Config
import SiteAudit.Proofs.Run
import SiteAudit.Proofs.Yaml.Memory
import SiteAudit.Proofs.Yaml.Steps

/-!
# Whole documents

Every collection that a value of a configuration names is in the configuration
(`Config.parse_isWhole`). While a document is constructed, a collection that is named has its parts
or is still to get them (`Construction.Knows`), and it gets them before the rounds of the
construction are over: a node that waits has been made, and none is made twice.
-/

namespace SiteAudit.Yaml

/-- The values that a collection keeps; the keys of mappings and the members of sets are atoms. -/
def Collection.values : Collection → List Value
  | .sequence items => items
  | .pairs entries => entries.flatMap fun pair => [pair.1, pair.2]
  | .mapping entries => entries.map (·.2)
  | .set _ => []

namespace Document

/-- If the value is a collection, then the document has its parts. -/
def Resolves (d : Document) (v : Value) : Prop :=
  ∀ node, v = .collection node → (d.collection? v).isSome = true

/-- The document has the parts of every collection that it names. -/
structure IsWhole (d : Document) : Prop where
  root : d.Resolves d.root
  values : ∀ v c, d.collection? v = some c → ∀ u ∈ c.values, d.Resolves u

/-- The entries of a value are those of the mapping that it names. -/
lemma entries?_eq_some {d : Document} {v : Value} {entries : Entries} :
    d.entries? v = some entries ↔ d.collection? v = some (.mapping entries) := by
  unfold entries?
  split
  · rename_i found hc
    rw [hc, Option.some.injEq, Option.some.injEq, Collection.mapping.injEq]
  · rename_i hc
    exact iff_of_false nofun (hc entries)

/-- The values of the entries of a whole document have their parts there. -/
lemma IsWhole.resolves {d : Document} (hd : d.IsWhole) {v : Value} {entries : Entries}
    (he : d.entries? v = some entries) {entry : Leaf × Value} (hentry : entry ∈ entries) :
    d.Resolves entry.2 :=
  hd.values v _ (entries?_eq_some.1 he) _ (List.mem_map_of_mem hentry)

/-- A whole document is whole in memory. -/
lemma IsWhole.arranged {d : Document} (hd : d.IsWhole) (m : Memory) (reading : Nat) :
    (d.arranged m reading).IsWhole := by
  have hresolves : ∀ v, d.Resolves v → (d.arranged m reading).Resolves v := fun v hv node e => by
    rw [collection?_arranged, Option.isSome_map]
    exact hv node e
  refine ⟨hresolves _ hd.root, fun v c hc u hu => ?_⟩
  rw [collection?_arranged] at hc
  obtain ⟨found, hfound, rfl⟩ := Option.map_eq_some_iff.1 hc
  refine hresolves u (hd.values v found hfound u ?_)
  cases found <;> exact hu

/-- The empty mapping is whole. -/
lemma isWhole_emptyMapping : emptyMapping.IsWhole := by
  refine ⟨fun _ _ => rfl, fun v c hc u hu => ?_⟩
  cases v with
  | leaf l => cases hc
  | collection node =>
    cases node with
    | zero =>
      cases hc
      cases hu
    | succ node => cases hc

end Document

namespace Construction

variable {α : Type} {I : State → Prop} {size rounds number : Nat} {now : List Nat} {vs : List Value}
  {s : State} {v : Value}

/-- Unless the step fails, it leads from a state as stated to a state and a result as stated. -/
abbrev Yields (I : State → Prop) (x : Builder α) (J : α → State → Prop) : Prop :=
  Leads I (fun _ => True) x J

/-- A collection that is named has its parts, waits for them, or is getting them now. -/
def Knows (now : List Nat) (s : State) (v : Value) : Prop :=
  ∀ node, v = .collection node →
    node ∈ now ++ s.waiting ∨ ∃ c, s.collections[node]? = some (some c)

/-- How many nodes can still come up: those of which nothing has been made and those that wait. -/
def State.left (s : State) : Nat := s.made.count none + s.waiting.length

/-- What has been made, the parts that are there and the given values name known collections only,
and no more nodes can come up than there are rounds left. -/
structure IsSound (size rounds : Nat) (now : List Nat) (vs : List Value) (s : State) : Prop where
  nodes : s.nodes.size = size
  made : s.made.size = size
  collections : s.collections.size = size
  left : s.left ≤ rounds
  waiting : ∀ node ∈ now ++ s.waiting, node < size
  cached : ∀ (node : Nat) v, s.made[node]? = some (some v) → Knows now s v
  parts : ∀ (node : Nat) c, s.collections[node]? = some (some c) → ∀ v ∈ c.values, Knows now s v
  given : ∀ v ∈ vs, Knows now s v

/-- A known collection stays known as long as it is not forgotten. -/
lemma Knows.mono {now' : List Nat} {s' : State}
    (hwait : ∀ node ∈ now ++ s.waiting,
      node ∈ now' ++ s'.waiting ∨ ∃ c, s'.collections[node]? = some (some c))
    (hdone : ∀ (node : Nat) c, s.collections[node]? = some (some c) →
      ∃ c, s'.collections[node]? = some (some c)) (h : Knows now s v) : Knows now' s' v := by
  intro node hv
  rcases h node hv with hw | ⟨c, hc⟩
  · exact hwait node hw
  · exact .inr (hdone node c hc)

/-- Of fewer values less is to be known. -/
lemma IsSound.subset {us : List Value} (h : IsSound size rounds now vs s) (hsub : us ⊆ vs) :
    IsSound size rounds now us s :=
  { h with given := fun v hv => h.given v (hsub hv) }

/-- One more value is known. -/
lemma IsSound.cons (h : IsSound size rounds now vs s) (hv : Knows now s v) :
    IsSound size rounds now (v :: vs) s :=
  { h with given := List.forall_mem_cons.2 ⟨hv, h.given⟩ }

/-! ### Steps that look at nodes -/

/-- What holds of a state whatever its nodes are, as long as they are as many. -/
def IgnoresNodes (I : State → Prop) : Prop :=
  ∀ s nodes, nodes.size = s.nodes.size → I s → I { s with nodes := nodes }

/-- Being sound has to do with the number of nodes only. -/
lemma ignoresNodes_isSound : IgnoresNodes (IsSound size rounds now vs) := by
  intro s nodes hsize h
  exact ⟨hsize.trans h.nodes, h.made, h.collections, h.left, h.waiting, h.cached, h.parts, h.given⟩

/-- The step preserves the invariant unless it fails. -/
abbrev Leaves (I : State → Prop) (x : Builder α) : Prop := Maintains I (fun _ => True) x

/-- A step that preserves the invariant yields it. -/
lemma yields_of_leaves {x : Builder α} (h : Leaves I x) : Yields I x fun _ => I :=
  h.leads fun _ hs => hs

/-- A step that fails preserves whatever there is. -/
lemma leaves_throw {e : Error} : Leaves I (throw e : Builder α) := .throw trivial

/-- Looking up a node changes nothing. -/
lemma leaves_nodeAt (number : Nat) : Leaves I (nodeAt number) := .bind .get fun _ => .pure _

/-- Neither does looking up its pairs. -/
lemma leaves_pairsOf (number : Nat) : Leaves I (pairsOf number) := by
  refine (leaves_nodeAt number).bind fun n => ?_
  split
  · exact .pure _
  · exact .pure _

/-- The pairs of a node may be replaced. -/
lemma leaves_setPairs (hI : IgnoresNodes I) (pairs : List (Nat × Nat)) :
    Leaves I (setPairs number pairs) :=
  .modify fun s hs => hI s _ (Array.size_modify ..) hs

/-- Steps one after the other preserve what each of them does. -/
lemma leaves_foldlM {β : Type} {f : α → β → Builder α} {l : List β} {a : α}
    (h : ∀ a b, Leaves I (f a b)) : Leaves I (l.foldlM f a) :=
  Keeps.foldlM trivial fun a _ b _ => h a b

/-- The pairs of what is merged are those of one mapping, or of several, after these are
flattened. -/
lemma leaves_mergedPairs {flatten : Nat → Builder Unit} {target : Mark} {source : Nat}
    (hf : ∀ node, Leaves I (flatten node)) : Leaves I (mergedPairs flatten target source) := by
  refine (leaves_nodeAt source).bind fun n => ?_
  split
  · exact (hf source).bind fun _ => leaves_pairsOf source
  · refine leaves_foldlM fun pairs item => (leaves_nodeAt item).bind fun part => ?_
    split
    · exact (hf item).bind fun _ => (leaves_pairsOf item).bind fun _ => .pure _
    · exact leaves_throw
  · exact leaves_throw

/-- One pair is merged, or its key is taken for what it says, or nothing is done. -/
lemma leaves_mergeStep (hI : IgnoresNodes I) {flatten : Nat → Builder Unit}
    {state : Nat × List (Nat × Nat)} (hf : ∀ node, Leaves I (flatten node)) :
    Leaves I (mergeStep flatten number state) := by
  refine (leaves_pairsOf number).bind fun pairs => ?_
  cases pairs[state.1]? with
  | none => exact .pure _
  | some pair =>
    refine (leaves_nodeAt pair.1).bind fun n => ?_
    split
    · exact (leaves_setPairs hI _).bind fun _ => (leaves_nodeAt number).bind fun _ =>
        (leaves_mergedPairs hf).bind fun _ => .pure _
    · refine Maintains.bind (.modify fun s hs => ?_) fun _ => .pure _
      exact hI s _ (Array.size_modify ..) hs
    · exact .pure _

/-- Flattening a mapping changes its nodes only, however deep it goes. -/
lemma leaves_flatten (hI : IgnoresNodes I) (depth number : Nat) :
    Leaves I (flatten depth number) := by
  induction depth generalizing number with
  | zero => exact .pure _
  | succ depth ih =>
    refine (leaves_pairsOf number).bind fun pairs =>
      (leaves_foldlM fun state _ => leaves_mergeStep hI ih).bind fun state => ?_
    dsimp only
    split
    · exact (leaves_pairsOf number).bind fun _ => leaves_setPairs hI _
    · exact .pure _

/-- A scalar is looked up, through mappings with a value for it. -/
lemma leaves_written (fuel number : Nat) : Leaves I (written fuel number) := by
  induction fuel generalizing number with
  | zero => exact leaves_throw
  | succ fuel ih =>
    refine (leaves_nodeAt number).bind fun n => ?_
    split
    · exact .pure _
    · exact leaves_throw
    · refine Maintains.bind .get fun s => ?_
      dsimp only
      split
      · exact ih _
      · exact leaves_throw

/-! ### Values -/

/-- A node is looked up in the state; behind the last one there is a node for nothing. -/
lemma yields_nodeAt (number : Nat) :
    Yields (· = s) (nodeAt number) fun n s' =>
      s' = s ∧ (n.tag ≠ .null → number < s.nodes.size) := by
  refine Leads.get_bind fun s' hs => .pure fun _ hs' => ⟨hs'.trans hs, fun hn => ?_⟩
  subst hs
  by_contra hlt
  rw [Array.getElem?_eq_none (Nat.le_of_not_lt hlt)] at hn
  exact hn rfl

/-- A node with no tag of a collection is an atom. -/
lemma keeps_atom? {n : Node} {scalar : Builder Scalar} (hs : Leaves I scalar) :
    Keeps I (fun _ => True) (atom? number n scalar)
      fun atom => n.tag = .null → atom.isSome = true := by
  have ht : Leaves I (do return (← scalar).text) := hs.bind fun _ => .pure _
  unfold atom?
  dsimp only
  generalize (do return (← scalar).text : Builder Text) = text at ht ⊢
  have hlift (x : Text → Except Error Atom) : Keeps I (fun _ => True)
      (do return some (← x (← text))) fun atom => n.tag = .null → atom.isSome = true :=
    Keeps.bind ht fun _ _ => Keeps.bind (P := fun _ => True)
      (.lift (fun _ _ => trivial) fun _ _ => trivial) fun _ _ => .pure fun _ => rfl
  have hcollection (h : n.tag ≠ .null) : Keeps I (fun _ => True)
      (pure none : Builder (Option Atom)) fun atom => n.tag = .null → atom.isSome = true :=
    .pure fun hn => absurd hn h
  split
  · exact Keeps.bind ht fun _ _ => .pure fun _ => rfl
  · exact hlift _
  · exact hlift _
  · exact hlift _
  · exact hlift _
  · refine Keeps.bind ht fun t _ => ?_
    split
    · exact Keeps.bind (P := fun _ => True) (.lift (fun _ _ => trivial) fun _ _ => trivial)
        fun _ _ => .pure fun _ => rfl
    · exact .throw trivial
  · exact Keeps.bind hs fun _ _ => .pure fun _ => rfl
  · rename_i htag
    exact hcollection (htag ▸ nofun)
  · rename_i htag
    exact hcollection (htag ▸ nofun)
  · rename_i htag
    exact hcollection (htag ▸ nofun)
  · rename_i htag
    exact hcollection (htag ▸ nofun)
  · rename_i htag
    exact hcollection (htag ▸ nofun)
  · exact .throw trivial
  · exact .throw trivial
  · exact .throw trivial

/-- Something is made of a node of which nothing has been made. -/
lemma left_made (hnone : (s.made[number]?).join = none) (v : Value) :
    (s.made.setIfInBounds number (some v)).count none + (if number < s.made.size then 1 else 0) =
      s.made.count none := by
  split
  · rename_i hlt
    rw [Array.getElem?_eq_getElem hlt, Option.join_some] at hnone
    have hpos : 0 < s.made.count none :=
      Array.count_pos_iff.2 (hnone ▸ Array.getElem_mem hlt)
    simp [Array.setIfInBounds, hlt, Array.count_set, hnone]
    omega
  · rename_i hlt
    rw [Array.setIfInBounds, dif_neg hlt]
    rfl

/-- What is made of a node is known once the node waits if it has to. -/
lemma IsSound.make (h : IsSound size rounds now vs s) (waiting : List Nat)
    (hnone : (s.made[number]?).join = none)
    (hv : ∀ node, v = .collection node → node ∈ waiting)
    (hwaiting : ∀ node ∈ waiting, node < size)
    (hlength : waiting.length ≤ if number < size then 1 else 0) :
    IsSound size rounds now (v :: vs)
      { s with made := s.made.setIfInBounds number (some v), waiting := s.waiting ++ waiting } := by
  have hknows {u : Value} (hu : Knows now s u) : Knows now
      { s with made := s.made.setIfInBounds number (some v), waiting := s.waiting ++ waiting }
      u := by
    refine Knows.mono (s := s) (fun node hn => .inl ?_) (fun node c hc => ⟨c, hc⟩) hu
    rw [← List.append_assoc]
    exact List.mem_append_left _ hn
  have hnew : Knows now
      { s with made := s.made.setIfInBounds number (some v), waiting := s.waiting ++ waiting }
      v := by
    intro node hvn
    exact .inl (List.mem_append_right _ (List.mem_append_right _ (hv node hvn)))
  have hcount := left_made hnone v
  rw [h.made] at hcount
  refine ⟨h.nodes, ?_, h.collections, ?_, ?_, ?_, ?_, ?_⟩
  · rw [Array.size_setIfInBounds]
    exact h.made
  · have hleft := h.left
    simp only [State.left, List.length_append] at hleft ⊢
    omega
  · rw [← List.append_assoc]
    exact List.forall_mem_append.2 ⟨h.waiting, hwaiting⟩
  · intro node u hu
    rw [Array.getElem?_setIfInBounds] at hu
    split at hu
    · split at hu
      · cases hu
        exact hnew
      · cases hu
    · exact hknows (h.cached node u hu)
  · exact fun node c hc u hu => hknows (h.parts node c hc u hu)
  · exact List.forall_mem_cons.2 ⟨hnew, fun u hu => hknows (h.given u hu)⟩

/-- What has been made of a node is its value from then on. -/
lemma yields_made (v : Value) :
    Yields
      (fun s => IsSound size rounds now (v :: vs)
        { s with made := s.made.setIfInBounds number (some v) })
      (do
        modify fun s => { s with made := s.made.setIfInBounds number (some v) }
        return v) fun v => IsSound size rounds now (v :: vs) :=
  Leads.bind (J := fun _ => IsSound size rounds now (v :: vs)) (.modify fun _ hs => hs)
    fun _ => .pure fun _ hs => hs

/-- The value of a node is known. -/
lemma yields_value (number : Nat) :
    Yields (IsSound size rounds now vs) (value number) fun v =>
      IsSound size rounds now (v :: vs) := by
  refine Leads.get_bind fun s hs => ?_
  split
  · rename_i v hv
    exact .pure fun s' hs' => hs' ▸ hs.cons (hs.cached number v (Option.join_eq_some_iff.1 hv))
  · rename_i hnone
    -- the state stays as it is until the atom, if it is one, has been made
    refine (yields_nodeAt number).bind fun n => ?_
    refine Leads.telling (p := n.tag ≠ .null → number < s.nodes.size) (fun _ h => h.2) fun hn => ?_
    refine Leads.bind (J := fun atom s' => s' = s ∧ (n.tag = .null → atom.isSome = true))
      (Leads.mono (keeps_atom? (leaves_written _ number)) (fun _ h => h.1) fun _ _ h => h)
      fun atom => ?_
    cases atom with
    | some atom =>
      refine (yields_made _).mono (fun s' hs' => ?_) fun _ _ h => h
      rw [hs'.1]
      have hleaf := hs.make (v := .leaf ⟨atom, number⟩) [] hnone nofun nofun (Nat.zero_le _)
      rwa [List.append_nil] at hleaf
    | none =>
      refine Leads.telling (p := number < size) (fun s' h => ?_) fun hlt => ?_
      · rw [← hs.nodes]
        exact hn fun htag => Bool.false_ne_true (h.2 htag)
      refine Leads.bind (J := fun _ s' => s' = { s with waiting := s.waiting ++ [number] })
        (.modify fun s' hs' => by rw [hs'.1]) fun _ =>
        (yields_made _).mono (fun s' hs' => ?_) fun _ _ h => h
      rw [hs']
      refine hs.make [number] hnone (fun node h => ?_) (fun node h => ?_) ?_
      · cases h
        exact List.mem_singleton_self _
      · rw [List.mem_singleton.1 h]
        exact hlt
      · rw [if_pos hlt]
        exact Nat.le_refl _

/-! ### Collections -/

/-- The values of entries are the old ones and the new one. -/
lemma values_insert_subset {entries : Entries} {key : Leaf} :
    (entries.insert key v).map (·.2) ⊆ v :: entries.map (·.2) := by
  intro u hu
  obtain ⟨entry, he, rfl⟩ := List.mem_map.1 hu
  unfold Entries.insert at he
  split at he
  · obtain ⟨old, hold, rfl⟩ := List.mem_map.1 he
    split
    · exact List.mem_cons_self ..
    · exact List.mem_cons_of_mem _ (List.mem_map_of_mem hold)
  · rcases List.mem_append.1 he with hold | hnew
    · exact List.mem_cons_of_mem _ (List.mem_map_of_mem hold)
    · rw [List.mem_singleton.1 hnew]
      exact List.mem_cons_self ..

/-- The values of entries are known; a key that is none makes the step fail. -/
lemma yields_entries (number : Nat) :
    Yields (IsSound size rounds now vs) (entries number) fun entries =>
      IsSound size rounds now (entries.map (·.2) ++ vs) := by
  refine (yields_of_leaves (leaves_nodeAt number)).bind fun n => ?_
  split
  · refine (yields_of_leaves .get).bind fun s =>
      (yields_of_leaves (leaves_flatten ignoresNodes_isSound _ number)).bind fun _ =>
      (yields_of_leaves (leaves_pairsOf number)).bind fun pairs => ?_
    refine Leads.foldlM (J := fun (entries : Entries) =>
      IsSound size rounds now (entries.map (·.2) ++ vs)) (fun entries pair _ => ?_) []
    refine (yields_value pair.1).bind fun key => ?_
    split
    · rename_i key
      refine (yields_value pair.2).bind fun v => .pure fun s hs => hs.subset fun u hu => ?_
      rcases List.mem_append.1 hu with hu | hu
      · rcases List.mem_cons.1 (values_insert_subset hu) with rfl | hu
        · exact List.mem_cons_self ..
        · exact List.mem_cons_of_mem _ (List.mem_cons_of_mem _ (List.mem_append_left _ hu))
      · exact List.mem_cons_of_mem _ (List.mem_cons_of_mem _ (List.mem_append_right _ hu))
    · exact (yields_of_leaves (leaves_nodeAt pair.1)).bind fun _ => .throw trivial
  · exact .throw trivial

/-- So are keys and values of ordered pairs. -/
lemma yields_orderedPairs (context : Context) (n : Node) :
    Yields (IsSound size rounds now vs) (orderedPairs context n) fun pairs =>
      IsSound size rounds now ((Collection.pairs pairs).values ++ vs) := by
  unfold orderedPairs
  split
  · refine Leads.mono (Leads.mapM (K := fun (pairs : List (Value × Value)) =>
      IsSound size rounds now ((Collection.pairs pairs).values ++ vs))
      (fun pairs item _ => ?_) []) (fun _ hs => hs) fun _ _ hs => hs
    refine (yields_of_leaves (leaves_nodeAt item)).bind fun part => ?_
    split
    · refine (yields_value _).bind fun key => (yields_value _).bind fun v => .pure fun s hs =>
        hs.subset fun u hu => ?_
      simp only [Collection.values, List.flatMap_append, List.flatMap_singleton, List.mem_append,
        List.mem_cons, List.not_mem_nil, or_false] at hu ⊢
      tauto
    · exact .throw trivial
    · exact .throw trivial
  · exact .throw trivial

/-- Of whatever kind a collection is, its parts are known. -/
lemma yields_parts (number : Nat) :
    Yields (IsSound size rounds now vs) (parts number) fun c =>
      IsSound size rounds now (c.values ++ vs) := by
  refine (yields_of_leaves (leaves_nodeAt number)).bind fun n => ?_
  split
  · split
    · refine Leads.bind (Leads.mapM (K := fun values => IsSound size rounds now (values ++ vs))
        (fun values item _ => ?_) []) fun values => .pure fun _ hs => hs
      refine (yields_value item).mono (fun _ hs => hs) fun v s hs => hs.subset fun u hu => ?_
      simp only [List.mem_append, List.mem_cons, List.not_mem_nil, or_false] at hu ⊢
      tauto
    · exact .throw trivial
  · exact (yields_entries number).bind fun entries => .pure fun _ hs =>
      hs.subset (List.subset_append_right ..)
  · exact (yields_orderedPairs _ n).bind fun _ => .pure fun _ hs => hs
  · exact (yields_orderedPairs _ n).bind fun _ => .pure fun _ hs => hs
  · exact (yields_entries number).bind fun _ => .pure fun _ hs => hs

/-- A collection that waited is now getting its parts. -/
lemma IsSound.start {waiting : List Nat} (h : IsSound size rounds [] vs s)
    (hwaiting : s.waiting = number :: waiting) :
    IsSound size (rounds - 1) [number] vs { s with waiting := waiting } := by
  have hknows {u : Value} (hu : Knows [] s u) :
      Knows [number] { s with waiting := waiting } u :=
    Knows.mono (s := s) (fun node hn => .inl (by rwa [hwaiting] at hn))
      (fun node c hc => ⟨c, hc⟩) hu
  refine ⟨h.nodes, h.made, h.collections, ?_, ?_, fun node v hv => hknows (h.cached node v hv),
    fun node c hc v hv => hknows (h.parts node c hc v hv), fun v hv => hknows (h.given v hv)⟩
  · have hleft := h.left
    simp only [State.left, hwaiting, List.length_cons] at hleft ⊢
    omega
  · have := h.waiting
    rwa [hwaiting] at this

/-- A collection that has got its parts is no longer getting them. -/
lemma IsSound.finish {c : Collection} (h : IsSound size rounds [number] (c.values ++ vs) s) :
    IsSound size rounds [] vs
      { s with collections := s.collections.setIfInBounds number (some c) } := by
  obtain ⟨hlt, hwaiting⟩ := List.forall_mem_cons.1 h.waiting
  rw [← h.collections] at hlt
  have hget (node : Nat) : (s.collections.setIfInBounds number (some c))[node]? =
      if number = node then some (some c) else s.collections[node]? := by
    rw [Array.getElem?_setIfInBounds, if_pos hlt]
  have hknows {u : Value} (hu : Knows [number] s u) :
      Knows [] { s with collections := s.collections.setIfInBounds number (some c) } u := by
    refine Knows.mono (s := s) (fun node hn => ?_) (fun node old hold => ?_) hu
    · rcases List.mem_cons.1 hn with rfl | hn
      · exact .inr ⟨c, by rw [hget, if_pos rfl]⟩
      · exact .inl hn
    · by_cases hnode : number = node
      · exact ⟨c, by rw [hget, if_pos hnode]⟩
      · exact ⟨old, by rw [hget, if_neg hnode, hold]⟩
  obtain ⟨hparts, hgiven⟩ := List.forall_mem_append.1 h.given
  refine ⟨h.nodes, h.made, (Array.size_setIfInBounds ..).trans h.collections, h.left, hwaiting,
    fun node v hv => hknows (h.cached node v hv), fun node old hold v hv => ?_,
    fun v hv => hknows (hgiven v hv)⟩
  rw [hget] at hold
  split at hold
  · cases hold
    exact hknows (hparts v hv)
  · exact hknows (h.parts node old hold v hv)

/-- In enough rounds all waiting collections get their parts. -/
lemma yields_complete {fuel : Nat} (hfuel : rounds < fuel) :
    Yields (IsSound size rounds [] vs) (complete fuel) fun _ s =>
      s.waiting = [] ∧ ∃ rounds, IsSound size rounds [] vs s := by
  induction fuel generalizing rounds with
  | zero => exact absurd hfuel (Nat.not_lt_zero _)
  | succ fuel ih =>
    refine Leads.get_bind fun s hs => ?_
    split
    · rename_i hw
      exact .pure fun s' hs' => hs' ▸ ⟨hw, rounds, hs⟩
    · rename_i number waiting hw
      have hpos : 0 < rounds := by
        have hleft := hs.left
        simp only [State.left, hw, List.length_cons] at hleft
        omega
      refine Leads.bind (J := fun _ => IsSound size (rounds - 1) [number] vs)
        (.modify fun s' hs' => hs' ▸ hs.start hw) fun _ => (yields_parts number).bind fun c => ?_
      exact Leads.bind (J := fun _ => IsSound size (rounds - 1) [] vs)
        (.modify fun s' hs' => hs'.finish) fun _ => ih (by omega)

/-- At the start there is nothing but nodes. -/
lemma isSound_start {nodes : Array Node} : IsSound nodes.size nodes.size [] []
    ⟨nodes, .replicate nodes.size none, .replicate nodes.size none, []⟩ := by
  have hempty {β : Type} {n i : Nat} {x : β}
      (h : (Array.replicate n (none : Option β))[i]? = some (some x)) : False := by
    rw [Array.getElem?_replicate] at h
    split at h <;> cases h
  refine ⟨rfl, Array.size_replicate, Array.size_replicate, ?_, nofun, ?_, ?_, nofun⟩
  · simp [State.left]
  · exact fun _ _ hv => (hempty hv).elim
  · exact fun _ _ hc => (hempty hc).elim

end Construction

namespace Document

/-- The document of a graph is whole. -/
theorem isWhole_of_ofGraph {g : Graph} {d : Document} (h : ofGraph g = .ok d) : d.IsWhole := by
  obtain ⟨⟨root, s⟩, hrun, hd⟩ := bind_eq_ok.1 h
  cases hd
  obtain ⟨hwaiting, rounds, hs⟩ : s.waiting = [] ∧
      ∃ rounds, Construction.IsSound g.nodes.size rounds [] [root] s := by
    have hyields : Construction.Yields (Construction.IsSound g.nodes.size g.nodes.size [] [])
        (do
          let root ← Construction.value g.root
          Construction.complete (g.nodes.size + 1)
          return root) fun root s =>
        s.waiting = [] ∧ ∃ rounds, Construction.IsSound g.nodes.size rounds [] [root] s :=
      (Construction.yields_value g.root).bind fun root =>
        (Construction.yields_complete (Nat.lt_succ_self _)).bind fun _ => .pure fun _ hs => hs
    exact hyields.run_ok Construction.isSound_start hrun
  -- nothing waits any more, so that all that is known has its parts
  have hresolves {v : Value} (hv : Construction.Knows [] s v) :
      Document.Resolves ⟨root, s.collections⟩ v := by
    intro node hnode
    rcases hv node hnode with hn | ⟨c, hc⟩
    · rw [hwaiting] at hn
      cases hn
    · rw [hnode, Document.collection?, hc]
      rfl
  refine ⟨hresolves (hs.given root (List.mem_singleton_self _)), fun v c hc u hu => ?_⟩
  cases v with
  | leaf l => cases hc
  | collection node => exact hresolves (hs.parts node c (Option.join_eq_some_iff.1 hc) u hu)

end Document

end SiteAudit.Yaml

namespace SiteAudit.Config

/-- A configuration is whole. -/
theorem parse_isWhole {text : Text} {tree : Tree} (h : parse text = .ok tree) : tree.IsWhole := by
  unfold parse at h
  split at h
  · cases h
  · cases h
    exact Yaml.Document.isWhole_emptyMapping
  · rename_i document hd
    cases h
    split
    · exact Yaml.Document.isWhole_emptyMapping
    · obtain ⟨graph, _, hd⟩ := bind_eq_ok.1 hd
      cases graph with
      | none => cases hd
      | some graph =>
        obtain ⟨document', hgraph, hd⟩ := bind_eq_ok.1 hd
        cases hd
        exact Yaml.Document.isWhole_of_ofGraph hgraph

end SiteAudit.Config
