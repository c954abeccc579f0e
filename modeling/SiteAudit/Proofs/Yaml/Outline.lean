import Mathlib.Data.List.Forall2
import SiteAudit.Proofs.Run
import SiteAudit.Proofs.Yaml.Wholeness
import SiteAudit.Yaml.Outline

/-!
# What outlines tell

The outline of a value of a whole document tells whether it is a given text or truth value
(`Outline.outline_tells`), which collection it is, and the entries of a mapping one by one
(`Outline.outline_spells`): what is written of a value is a word that is told from whatever follows
it (`Outline.IsWord`), as no collection that is entered is left out for want of depth.
-/

namespace SiteAudit.Yaml

/-- The value is the text exactly if it is an atom that is. -/
lemma isText_iff {t : Text} {v : Value} :
    Document.isText t v = true ↔ ∃ node, v = .leaf ⟨.text t, node⟩ := by
  cases v with
  | leaf l =>
    obtain ⟨a, node⟩ := l
    simp [Document.isText]
  | collection node => simp [Document.isText]

/-- The value is true exactly if it is an atom that is. -/
lemma isTrue_iff {v : Value} :
    Document.isTrue v = true ↔ ∃ node, v = .leaf ⟨.bool true, node⟩ := by
  cases v with
  | leaf l =>
    obtain ⟨a, node⟩ := l
    simp [Document.isTrue]
  | collection node => simp [Document.isTrue]

namespace Outline

/-! ### Words -/

/-- What follows the first word, or the brackets that are still open, of which `depth` are. -/
def skip : Nat → List Sign → List Sign
  | _, [] => []
  | depth, sign :: signs =>
    match sign with
    | .openSequence | .openMapping | .openSet => skip (depth + 1) signs
    | .close => if depth ≤ 1 then signs else skip (depth - 1) signs
    | .atom _ | .again _ => if depth = 0 then signs else skip depth signs

/-- The signs are told from whatever follows them. -/
def IsWord (w : List Sign) : Prop :=
  ∀ depth rest, skip depth (w ++ rest) = if depth = 0 then rest else skip depth rest

/-- Between brackets the signs make no difference. -/
def IsInner (w : List Sign) : Prop :=
  ∀ depth rest, skip (depth + 1) (w ++ rest) = skip (depth + 1) rest

variable {w w' rest rest' : List Sign}

/-- An atom is a word. -/
lemma isWord_atom (a : Atom) : IsWord [.atom a] := fun _ _ => rfl

/-- So is a sign for what has been written before. -/
lemma isWord_again (place : Nat) : IsWord [.again place] := fun _ _ => rfl

/-- A word is inside of brackets what it is outside. -/
lemma IsWord.isInner (h : IsWord w) : IsInner w := fun depth rest => h (depth + 1) rest

/-- Signs without a difference may follow each other. -/
lemma isInner_append (h : IsInner w) (h' : IsInner w') : IsInner (w ++ w') := by
  intro depth rest
  rw [List.append_assoc, h, h']

/-- Brackets make a word. -/
lemma isWord_bracket {sign : Sign} (hopen : ∀ depth signs, skip depth (sign :: signs) =
    skip (depth + 1) signs) (h : IsInner w) : IsWord (sign :: (w ++ [.close])) := by
  intro depth rest
  calc skip depth (sign :: (w ++ [.close]) ++ rest)
      = skip (depth + 1) (w ++ (.close :: rest)) := by
        rw [List.cons_append, hopen, List.append_assoc]
        rfl
    _ = skip (depth + 1) (.close :: rest) := h depth _
    _ = if depth = 0 then rest else skip depth rest := by
        rw [skip, Nat.add_sub_cancel]
        exact if_congr (by omega) rfl rfl

/-- Words are told from each other. -/
lemma IsWord.append_inj (h : IsWord w) (h' : IsWord w') (heq : w ++ rest = w' ++ rest') :
    w = w' ∧ rest = rest' := by
  have hrest : rest = rest' :=
    calc rest = skip 0 (w ++ rest) := (h 0 rest).symm
      _ = skip 0 (w' ++ rest') := by rw [heq]
      _ = rest' := h' 0 rest'
  subst hrest
  exact ⟨List.append_cancel_right heq, rfl⟩

/-! ### What is written of values -/

/-- Atoms that are the same everywhere, and are written as themselves. -/
def IsShown : Atom → Prop
  | .nan _ | .date _ | .dateTime _ => False
  | _ => True

/-- The sign for an atom. -/
structure Names (l : Leaf) (sign : Sign) : Prop where
  isWord : IsWord [sign]
  atom : ∀ a, IsShown a → (sign = .atom a ↔ l.atom = a)
  plain : sign ≠ .close

/-- The word for a value. -/
structure Tells (v : Value) (w : List Sign) : Prop where
  isWord : IsWord w
  atom : ∀ a, IsShown a → (w = [.atom a] ↔ ∃ node, v = .leaf ⟨a, node⟩)

/-- The word for an entry: the sign for its key and the word for its value. -/
def Says (entry : Leaf × Value) (word : Sign × List Sign) : Prop :=
  Names entry.1 word.1 ∧ Tells entry.2 word.2

/-- The words for entries one after the other. -/
def spelled (words : List (Sign × List Sign)) : List Sign :=
  words.flatMap fun word => word.1 :: word.2

/-- The bracket before the parts of a collection. -/
def opening : Collection → Sign
  | .sequence _ | .pairs _ => .openSequence
  | .mapping _ => .openMapping
  | .set _ => .openSet

/-- The word for a collection. The entries of a mapping can be told from it. -/
def Spells (c : Collection) (w : List Sign) : Prop :=
  ∃ inner, w = opening c :: (inner ++ [.close]) ∧ IsInner inner ∧
    ∀ entries, c = .mapping entries → ∃ words, List.Forall₂ Says entries words ∧
      inner = spelled words

/-- An atom that is written as such is named, whichever it is. -/
lemma names_atom (l : Leaf) : Names l (.atom l.atom) :=
  ⟨isWord_atom _, fun a _ => by rw [Sign.atom.injEq], nofun⟩

/-- Another sign will do for an atom that is not the same everywhere. -/
lemma names_of_not_isShown {l : Leaf} {sign : Sign} (h : IsWord [sign]) (hl : ¬ IsShown l.atom)
    (hsign : ∀ a, IsShown a → sign ≠ .atom a) (hplain : sign ≠ .close) : Names l sign :=
  ⟨h, fun a ha => iff_of_false (hsign a ha) fun he => hl (he ▸ ha), hplain⟩

/-- The sign for an atom is the word for it. -/
lemma Names.tells {l : Leaf} {sign : Sign} (h : Names l sign) : Tells (.leaf l) [sign] := by
  refine ⟨h.isWord, fun a ha => ?_⟩
  rw [List.cons.injEq, h.atom a ha]
  constructor
  · rintro ⟨rfl, _⟩
    exact ⟨l.node, rfl⟩
  · rintro ⟨node, hl⟩
    cases hl
    exact ⟨rfl, rfl⟩

/-- A word that is no atom will do for a collection. -/
lemma tells_collection {node : Nat} (h : IsWord w) (hw : ∀ a, w ≠ [.atom a]) :
    Tells (.collection node) w := by
  refine ⟨h, fun a _ => iff_of_false (hw a) ?_⟩
  rintro ⟨_, hv⟩
  cases hv

/-- What spells a collection is a word, since it is bracketed. -/
lemma Spells.isWord {c : Collection} (h : Spells c w) : IsWord w := by
  obtain ⟨inner, rfl, hinner, _⟩ := h
  refine isWord_bracket (fun depth signs => ?_) hinner
  cases c <;> rfl

/-- It is no atom and so tells that there is a collection. -/
lemma Spells.tells {c : Collection} {node : Nat} (h : Spells c w) : Tells (.collection node) w := by
  refine tells_collection h.isWord fun a ha => ?_
  obtain ⟨inner, rfl, _⟩ := h
  cases c <;> cases ha

/-! ### Writers -/

variable {α : Type} {size depth : Nat} {write write' : Writer Unit} {P Q : List Sign → Prop}

/-- The collections that have not been seen. -/
def unseen (size : Nat) (s : State) : List Nat := (List.range size).filter (· ∉ s.seen)

/-- The depth suffices for all of them. -/
def Ready (size depth : Nat) (s : State) : Prop := (unseen size s).length < depth

/-- From a state with enough depth the writer, unless it fails, adds a word as stated. -/
def Adds (size depth : Nat) (write : Writer Unit) (P : List Sign → Prop) : Prop :=
  ∀ s s', Ready size depth s → write.run s = .ok ((), s') →
    Ready size depth s' ∧ ∃ w, P w ∧ s'.signs = w.reverse ++ s.signs

/-- Less may be said of what is added. -/
lemma Adds.mono (h : Adds size depth write P) (hPQ : ∀ w, P w → Q w) : Adds size depth write Q := by
  intro s s' hs hrun
  obtain ⟨hs', w, hw, hsigns⟩ := h s s' hs hrun
  exact ⟨hs', w, hPQ w hw, hsigns⟩

/-- A sign adds itself. -/
lemma adds_sign {sign : Sign} : Adds size depth (Outline.sign sign) (· = [sign]) := by
  intro s s' hs hrun
  cases hrun
  exact ⟨hs, _, rfl, rfl⟩

/-- Writers one after the other add one word after the other. -/
lemma Adds.bind (h : Adds size depth write P) (h' : Adds size depth write' Q) :
    Adds size depth (do write; write') fun w => ∃ a b, P a ∧ Q b ∧ w = a ++ b := by
  intro s s' hs hrun
  obtain ⟨⟨⟨⟩, mid⟩, hfirst, hrun⟩ := bind_eq_ok.1 hrun
  obtain ⟨hmid, a, ha, hsigns⟩ := h s mid hs hfirst
  obtain ⟨hs', b, hb, hsigns'⟩ := h' mid s' hmid hrun
  refine ⟨hs', a ++ b, ⟨a, b, ha, hb, rfl⟩, ?_⟩
  rw [hsigns', hsigns, List.reverse_append, List.append_assoc]

/-- Writing each element of a list adds a word for each. -/
lemma adds_forM {f : α → Writer Unit} {R : α → List Sign → Prop} {l : List α}
    (h : ∀ a ∈ l, Adds size depth (f a) (R a)) :
    Adds size depth (l.forM f) fun w => ∃ ws, List.Forall₂ R l ws ∧ w = ws.flatten := by
  induction l with
  | nil =>
    intro s s' hs hrun
    cases hrun
    exact ⟨hs, [], ⟨[], .nil, rfl⟩, rfl⟩
  | cons a l ih =>
    obtain ⟨hnow, hlater⟩ := List.forall_mem_cons.1 h
    refine (hnow.bind (ih hlater)).mono ?_
    rintro _ ⟨w, _, hw, ⟨ws, hws, rfl⟩, rfl⟩
    exact ⟨w :: ws, .cons hw hws, rfl⟩

/-- Writing something between brackets. -/
lemma Adds.bracket {sign : Sign} (h : Adds size depth write P) :
    Adds size depth (do Outline.sign sign; write; Outline.sign .close) fun w =>
      ∃ inner, P inner ∧ w = sign :: (inner ++ [.close]) := by
  refine (adds_sign.bind (h.bind adds_sign)).mono ?_
  rintro _ ⟨_, _, rfl, ⟨inner, _, hinner, rfl, rfl⟩, rfl⟩
  exact ⟨inner, hinner, rfl⟩

/-- What is seen is no longer among the unseen. -/
lemma unseen_see (node : Nat) (s : State) :
    unseen size { s with seen := node :: s.seen } = (unseen size s).filter (· ≠ node) := by
  unfold unseen
  rw [List.filter_filter]
  refine List.filter_congr fun n _ => ?_
  simp [not_or]

/-- The depth suffices whatever is seen. -/
lemma Ready.see {s : State} (h : Ready size depth s) (node : Nat) :
    Ready size depth { s with seen := node :: s.seen } := by
  unfold Ready
  rw [unseen_see]
  exact Nat.lt_of_le_of_lt (List.length_filter_le ..) h

/-- A collection that is seen for the first time takes away one from the depth. -/
lemma Ready.enter {s : State} {node : Nat} (h : Ready size (depth + 1) s) (hnode : node < size)
    (hnew : node ∉ s.seen) : Ready size depth { s with seen := node :: s.seen } := by
  have hmem : node ∈ unseen size s :=
    List.mem_filter.2 ⟨List.mem_range.2 hnode, decide_eq_true hnew⟩
  have hless : ((unseen size s).filter (· ≠ node)).length < (unseen size s).length :=
    List.length_filter_lt_length_iff_exists.2 ⟨node, hmem, by simp⟩
  unfold Ready at h ⊢
  rw [unseen_see]
  omega

/-- What is looked up of what has been seen. -/
lemma run_once (node : Nat) (write : Writer Unit) (s : State) :
    (once node write).run s = match s.seen.reverse.idxOf? node with
      | some place => (Outline.sign (.again place)).run s
      | none => write.run { s with seen := node :: s.seen } := by
  change (match s.seen.reverse.idxOf? node with
    | some place => Outline.sign (.again place)
    | none => do
      modify fun state : State => { state with seen := node :: state.seen }
      write).run s = _
  split <;> rfl

/-- Something is written when it is first seen. -/
lemma run_once_new {node : Nat} {s : State} (h : node ∉ s.seen) :
    (once node write).run s = write.run { s with seen := node :: s.seen } := by
  rw [run_once, List.idxOf?_eq_none_iff.2 (mt List.mem_reverse.1 h)]

/-- It is referred to when it is seen again. -/
lemma run_once_again {node : Nat} {s : State} (h : node ∈ s.seen) :
    ∃ place, (once node write).run s = (Outline.sign (.again place)).run s := by
  cases hplace : s.seen.reverse.idxOf? node with
  | none => exact absurd (List.mem_reverse.2 h) (List.idxOf?_eq_none_iff.1 hplace)
  | some place => exact ⟨place, by rw [run_once, hplace]⟩

/-- Something known by its node is written, or referred to. -/
lemma Adds.once (h : Adds size depth write P) (hagain : ∀ place, P [.again place]) (node : Nat) :
    Adds size depth (once node write) P := by
  intro s s' hs hrun
  by_cases hnode : node ∈ s.seen
  · obtain ⟨place, hw⟩ := run_once_again hnode
    rw [hw] at hrun
    exact adds_sign.mono (fun _ hword => hword ▸ hagain place) s s' hs hrun
  · rw [run_once_new hnode] at hrun
    obtain ⟨hs', hword⟩ := h _ s' (hs.see node) hrun
    exact ⟨hs', hword⟩

/-- A collection is entered with less depth, or referred to. -/
lemma Adds.once_enter {node : Nat} (h : Adds size depth write P)
    (hagain : ∀ place, P [.again place]) (hnode : node < size) :
    Adds size (depth + 1) (Outline.once node write) P := by
  intro s s' hs hrun
  by_cases hseen : node ∈ s.seen
  · obtain ⟨place, hw⟩ := run_once_again hseen
    rw [hw] at hrun
    exact adds_sign.mono (fun _ hword => hword ▸ hagain place) s s' hs hrun
  · rw [run_once_new hseen] at hrun
    obtain ⟨hs', hword⟩ := h _ s' (hs.enter hnode hseen) hrun
    exact ⟨Nat.lt_succ_of_lt hs', hword⟩

/-! ### What the writers add -/

/-- A leaf adds one sign that names it: its atom, or that it has been written before. -/
lemma adds_leaf (l : Leaf) :
    Adds size depth (leaf l) fun w => ∃ sign, w = [sign] ∧ Names l sign := by
  have hself {a : Atom} (ha : l.atom = a) :
      Adds size depth (Outline.sign (.atom a)) fun w => ∃ sign, w = [sign] ∧ Names l sign := by
    subst ha
    exact adds_sign.mono fun _ hw => ⟨_, hw, names_atom l⟩
  have honce {a : Atom} (ha : l.atom = a) (hshown : ¬ IsShown a) :
      Adds size depth (once l.node (Outline.sign (.atom a)))
        fun w => ∃ sign, w = [sign] ∧ Names l sign := by
    refine (hself ha).once (fun place => ⟨_, rfl, ?_⟩) l.node
    exact names_of_not_isShown (isWord_again place) (ha ▸ hshown) (fun _ _ => nofun) nofun
  unfold leaf
  split
  · rename_i ha
    rw [ha]
    exact honce ha id
  · rename_i ha
    rw [ha]
    exact honce ha id
  · -- one number that is none is written like another
    rename_i ha
    refine adds_sign.mono fun _ hw => ⟨_, hw, ?_⟩
    refine names_of_not_isShown (isWord_atom _) (ha ▸ id) (fun a hshown h => ?_) nofun
    cases h
    exact hshown
  · rename_i ha
    split
    · intro _ _ _ hrun
      cases hrun
    · exact hself ha
  · exact hself rfl

/-- What is written of each part is a word. -/
lemma isInner_flatten {R : α → List Sign → Prop} {l : List α} {ws : List (List Sign)}
    (h : List.Forall₂ R l ws) (hR : ∀ a w, R a w → IsInner w) : IsInner ws.flatten := by
  induction h with
  | nil => exact fun _ _ => rfl
  | cons hw _ ih => exact isInner_append (hR _ _ hw) ih

/-- The words for entries are found in what is written of them. -/
lemma exists_spelled {entries : Entries} {ws : List (List Sign)}
    (h : List.Forall₂ (fun entry w => ∃ word, Says entry word ∧ w = word.1 :: word.2) entries ws) :
    ∃ words, List.Forall₂ Says entries words ∧ ws.flatten = spelled words := by
  induction h with
  | nil => exact ⟨[], .nil, rfl⟩
  | cons hw _ ih =>
    obtain ⟨word, hentry, rfl⟩ := hw
    obtain ⟨words, hwords, heq⟩ := ih
    refine ⟨word :: words, .cons hentry hwords, ?_⟩
    rw [List.flatten_cons, heq]
    rfl

/-- A collection is spelled if its values are told. -/
lemma adds_collection {value : Value → Writer Unit} {c : Collection}
    (h : ∀ v ∈ c.values, Adds size depth (value v) (Tells v)) :
    Adds size depth (collection value c) (Spells c) := by
  cases c with
  | sequence items =>
    refine (adds_forM h).bracket.mono ?_
    rintro _ ⟨_, ⟨ws, hws, rfl⟩, rfl⟩
    exact ⟨_, rfl, isInner_flatten hws fun _ _ hw => hw.isWord.isInner, nofun⟩
  | pairs pairs =>
    have hpair : ∀ pair ∈ pairs, Adds size depth (do
        Outline.sign .openSequence
        value pair.1
        value pair.2
        Outline.sign .close) IsWord := by
      intro pair hp
      have h1 := h pair.1 (List.mem_flatMap.2 ⟨pair, hp, by simp⟩)
      have h2 := h pair.2 (List.mem_flatMap.2 ⟨pair, hp, by simp⟩)
      refine (adds_sign.bind (h1.bind (h2.bind adds_sign))).mono ?_
      rintro _ ⟨_, _, rfl, ⟨a, _, ha, ⟨b, _, hb, rfl, rfl⟩, rfl⟩, rfl⟩
      have hword : IsWord (.openSequence :: (a ++ b ++ [.close])) :=
        isWord_bracket (fun _ _ => rfl) (isInner_append ha.isWord.isInner hb.isWord.isInner)
      rwa [List.append_assoc] at hword
    refine (adds_forM (R := fun _ => IsWord) hpair).bracket.mono ?_
    rintro _ ⟨_, ⟨ws, hws, rfl⟩, rfl⟩
    exact ⟨_, rfl, isInner_flatten hws fun _ _ hw => hw.isInner, nofun⟩
  | mapping entries =>
    have hentry : ∀ entry ∈ entries, Adds size depth (do leaf entry.1; value entry.2)
        fun w => ∃ word, Says entry word ∧ w = word.1 :: word.2 := by
      intro entry he
      refine ((adds_leaf entry.1).bind (h entry.2 (List.mem_map_of_mem he))).mono ?_
      rintro _ ⟨_, w, ⟨sign, rfl, hsign⟩, hw, rfl⟩
      exact ⟨(sign, w), ⟨hsign, hw⟩, rfl⟩
    refine (adds_forM hentry).bracket.mono ?_
    rintro _ ⟨_, ⟨ws, hws, rfl⟩, rfl⟩
    refine ⟨_, rfl, isInner_flatten hws fun entry w hw => ?_, fun entries' he => ?_⟩
    · obtain ⟨word, ⟨hkey, hvalue⟩, rfl⟩ := hw
      exact isInner_append hkey.isWord.isInner hvalue.isWord.isInner
    · cases he
      exact exists_spelled hws
  | set members =>
    refine (adds_forM fun l _ => adds_leaf l).bracket.mono ?_
    rintro _ ⟨_, ⟨ws, hws, rfl⟩, rfl⟩
    refine ⟨_, rfl, isInner_flatten hws fun l w hw => ?_, nofun⟩
    obtain ⟨sign, rfl, hsign⟩ := hw
    exact hsign.isWord.isInner

variable {d : Document} {v : Value} {signs : List Sign}

/-- A collection that is in the document has its number there. -/
lemma lt_size {node : Nat} {c : Collection} (hc : d.collection? (.collection node) = some c) :
    node < d.collections.size := by
  have hsome := Option.join_eq_some_iff.1 hc
  exact (Array.getElem?_eq_some_iff.1 hsome).1

/-- With enough depth a value of a whole document is told. -/
lemma adds_value (hd : d.IsWhole) (hv : d.Resolves v) :
    Adds d.collections.size depth (value d depth v) (Tells v) := by
  induction depth generalizing v with
  | zero => exact fun _ _ hs => absurd hs (Nat.not_lt_zero _)
  | succ depth ih =>
    cases v with
    | leaf l =>
      refine (adds_leaf l).mono ?_
      rintro _ ⟨sign, rfl, hsign⟩
      exact hsign.tells
    | collection node =>
      obtain ⟨c, hc⟩ := Option.isSome_iff_exists.1 (hv node rfl)
      have hparts := adds_collection fun v hv => ih (hd.values _ c hc v hv)
      unfold value
      rw [hc]
      exact (hparts.mono fun _ h => h.tells).once_enter
        (fun place => tells_collection (isWord_again place) fun _ => nofun) (lt_size hc)

/-! ### Outlines of values -/

/-- At the start nothing has been seen. -/
lemma ready_start : Ready size (size + 1) ⟨[], []⟩ := by
  have hle : (unseen size ⟨[], []⟩).length ≤ (List.range size).length := List.length_filter_le ..
  rw [List.length_range] at hle
  exact Nat.lt_succ_of_le hle

/-- What a writer leaves is the word that it adds. -/
lemma Adds.run (h : Adds size depth write P) (hs : Ready size depth ⟨[], []⟩)
    (hrun : run write = .ok signs) : P signs := by
  obtain ⟨⟨⟨⟩, s⟩, hrun, hsigns⟩ := bind_eq_ok.1 hrun
  obtain ⟨_, w, hw, hs'⟩ := h ⟨[], []⟩ s hs hrun
  cases hsigns
  rw [hs', List.append_nil, List.reverse_reverse]
  exact hw

/-- The outline of a value tells which value it is. -/
theorem outline_tells (hd : d.IsWhole) (hv : d.Resolves v) (h : d.outline v = .ok signs) :
    Tells v signs :=
  (adds_value hd hv).run ready_start h

/-- The outline of an atom is one sign. -/
lemma outline_leaf {l : Leaf} (h : d.outline (.leaf l) = .ok signs) :
    ∃ sign, signs = [sign] ∧ Names l sign := by
  have hleaf : Adds 0 1 (leaf l) fun w => ∃ sign, w = [sign] ∧ Names l sign := adds_leaf l
  exact hleaf.run ready_start h

/-- The outline of a collection tells which collection it is. -/
theorem outline_spells {c : Collection} (hd : d.IsWhole) (hc : d.collection? v = some c)
    (h : d.outline v = .ok signs) : Spells c signs := by
  cases v with
  | leaf l => cases hc
  | collection node =>
    have hparts : Adds d.collections.size d.collections.size
        (collection (value d d.collections.size) c) (Spells c) :=
      adds_collection fun u hu => adds_value hd (hd.values _ c hc u hu)
    have hseen : node ∉ (⟨[], []⟩ : State).seen := List.not_mem_nil
    -- the collection is seen for the first time, so that it is written
    obtain ⟨⟨⟨⟩, s⟩, hrun, hsigns⟩ := bind_eq_ok.1 h
    unfold value at hrun
    rw [run_once_new hseen, hc] at hrun
    obtain ⟨_, w, hw, hs'⟩ := hparts _ s (ready_start.enter (lt_size hc) hseen) hrun
    cases hsigns
    rw [hs', List.append_nil, List.reverse_reverse]
    exact hw

/-! ### Equal outlines -/

/-- The words of entries come one after the other, each after its key. -/
lemma spelled_cons (word : Sign × List Sign) (words : List (Sign × List Sign)) :
    spelled (word :: words) = word.1 :: (word.2 ++ spelled words) := rfl

/-- Words for entries are told from each other. -/
lemma spelled_injective {words words' : List (Sign × List Sign)}
    (h : ∀ word ∈ words, word.1 ≠ .close ∧ IsWord word.2)
    (h' : ∀ word ∈ words', word.1 ≠ .close ∧ IsWord word.2)
    (heq : spelled words ++ [.close] = spelled words' ++ [.close]) : words = words' := by
  induction words generalizing words' with
  | nil =>
    cases words' with
    | nil => rfl
    | cons word words' =>
      exact absurd (List.cons.inj heq).1.symm (h' word (List.mem_cons_self ..)).1
  | cons word words ih =>
    obtain ⟨hword, hwords⟩ := List.forall_mem_cons.1 h
    cases words' with
    | nil => exact absurd (List.cons.inj heq).1 hword.1
    | cons word' words' =>
      obtain ⟨hword', hwords'⟩ := List.forall_mem_cons.1 h'
      rw [spelled_cons, spelled_cons, List.cons_append, List.cons_append] at heq
      obtain ⟨hkey, heq⟩ := List.cons.inj heq
      rw [List.append_assoc, List.append_assoc] at heq
      obtain ⟨hvalue, heq⟩ := hword.2.append_inj hword'.2 heq
      rw [Prod.ext hkey hvalue, ih hwords hwords' heq]

/-- What is said of entries with the same words is the same. -/
lemma Says.plain {entries : Entries} {words : List (Sign × List Sign)}
    (h : List.Forall₂ Says entries words) :
    ∀ word ∈ words, word.1 ≠ .close ∧ IsWord word.2 := by
  induction h with
  | nil => exact fun _ hw => absurd hw List.not_mem_nil
  | cons hentry _ ih => exact List.forall_mem_cons.2 ⟨⟨hentry.1.plain, hentry.2.isWord⟩, ih⟩

/-- A text is the same key as itself only. -/
lemma sameKey_text {a : Atom} {t : Text} : a.sameKey (.text t) = true ↔ a = .text t := by
  cases a <;> simp [Atom.sameKey, Atom.int?]

/-- The value of a text among entries is that of the entry which has the text for its key. -/
lemma get?_eq_some {entries : Entries} {key : Text} {v : Value} (h : entries.get? key = some v) :
    ∃ entry ∈ entries, entry.1.atom = .text key ∧ entry.2 = v ∧
      entries.find? (.text key) = some entry := by
  obtain ⟨entry, hfind, hv⟩ := Option.map_eq_some_iff.1 h
  have hfound : List.find? (fun entry : Leaf × Value => entry.1.atom.sameKey (.text key)) entries =
      some entry := hfind
  have hkey := List.find?_some hfound
  exact ⟨entry, List.mem_of_find?_eq_some hfound, sameKey_text.1 hkey, hv, hfind⟩

/-- The value of a key is told by the word after the sign for the key. -/
lemma rel_get? {entries : Entries} {words : List (Sign × List Sign)}
    (h : List.Forall₂ Says entries words) (key : Text) :
    Option.Rel Tells (entries.get? key)
      ((words.find? fun word => word.1 == .atom (.text key)).map (·.2)) := by
  unfold Entries.get? Entries.find?
  induction h with
  | nil => exact .none
  | @cons entry word entries words hentry _ ih =>
    have hkey : entry.1.atom.sameKey (.text key) = (word.1 == .atom (.text key)) := by
      rw [Bool.eq_iff_iff, sameKey_text, beq_iff_eq, hentry.1.atom (.text key) trivial]
    rw [List.find?_cons, List.find?_cons, hkey]
    split
    · exact .some hentry.2
    · exact ih

/-- So it is told whether there is a true value. -/
lemma isTrue_of_rel {value : Option Value} {word : Option (List Sign)}
    (h : Option.Rel Tells value word) :
    value.any Document.isTrue = word.any (· == [.atom (.bool true)]) := by
  cases h with
  | none => rfl
  | some htells =>
    rw [Option.any_some, Option.any_some, Bool.eq_iff_iff, isTrue_iff, beq_iff_eq]
    exact (htells.atom (.bool true) trivial).symm

end Outline

/-- The two values, of whole documents, are written in the same way. -/
structure SameOutline (d d' : Document) (v v' : Value) : Prop where
  left : d.IsWhole
  right : d'.IsWhole
  resolves : d.Resolves v
  resolves' : d'.Resolves v'
  outline : ∃ signs, d.outline v = .ok signs ∧ d'.outline v' = .ok signs

namespace SameOutline

open Outline

variable {d d' : Document} {v v' : Value}

/-- The order of the two values does not matter. -/
lemma symm (h : SameOutline d d' v v') : SameOutline d' d v' v := by
  obtain ⟨signs, hs, hs'⟩ := h.outline
  exact ⟨h.right, h.left, h.resolves', h.resolves, signs, hs', hs⟩

/-- They are the same text or not that text. -/
lemma isText (h : SameOutline d d' v v') (t : Text) :
    Document.isText t v = Document.isText t v' := by
  obtain ⟨signs, hs, hs'⟩ := h.outline
  have htells := outline_tells h.left h.resolves hs
  have htells' := outline_tells h.right h.resolves' hs'
  rw [Bool.eq_iff_iff, isText_iff, isText_iff, ← htells.atom (.text t) trivial]
  exact htells'.atom (.text t) trivial

/-- The same is said of their entries. -/
lemma entries (h : SameOutline d d' v v') {entries : Entries} (he : d.entries? v = some entries) :
    ∃ entries' words, d'.entries? v' = some entries' ∧ List.Forall₂ Says entries words ∧
      List.Forall₂ Says entries' words := by
  obtain ⟨signs, hs, hs'⟩ := h.outline
  obtain ⟨inner, hsigns, _, hinner⟩ :=
    outline_spells h.left (Document.entries?_eq_some.1 he) hs
  obtain ⟨words, hwords, rfl⟩ := hinner entries rfl
  cases v' with
  | leaf l =>
    obtain ⟨sign, hsign, _⟩ := outline_leaf hs'
    have hlength := congrArg List.length (hsigns.symm.trans hsign)
    simp at hlength
  | collection node =>
    obtain ⟨c', hc'⟩ := Option.isSome_iff_exists.1 (h.resolves' node rfl)
    obtain ⟨inner', hsigns', _, hinner'⟩ := outline_spells h.right hc' hs'
    obtain ⟨hopen, heq⟩ := List.cons.inj (hsigns.symm.trans hsigns')
    cases c' with
    | mapping entries' =>
      obtain ⟨words', hwords', rfl⟩ := hinner' entries' rfl
      rw [← spelled_injective (Says.plain hwords) (Says.plain hwords') heq] at hwords'
      exact ⟨entries', words, Document.entries?_eq_some.2 hc', hwords, hwords'⟩
    | sequence _ => cases hopen
    | pairs _ => cases hopen
    | set _ => cases hopen

/-- They are both mappings or not. -/
lemma isMapping (h : SameOutline d d' v v') : d.isMapping v = d'.isMapping v' := by
  have himp {d d' : Document} {v v' : Value} (h : SameOutline d d' v v')
      (hm : d.isMapping v = true) : d'.isMapping v' = true := by
    obtain ⟨entries, he⟩ := Option.isSome_iff_exists.1 hm
    obtain ⟨entries', _, he', _⟩ := h.entries he
    unfold Document.isMapping
    rw [he']
    rfl
  rw [Bool.eq_iff_iff]
  exact ⟨himp h, himp h.symm⟩

/-- A key of them is true in both or in none. -/
lemma isTrue_get? (h : SameOutline d d' v v') (key : Text) :
    (d.get? v key).any Document.isTrue = (d'.get? v' key).any Document.isTrue := by
  unfold Document.get?
  cases he : d.entries? v with
  | none =>
    have hmapping := h.isMapping
    rw [Document.isMapping, he] at hmapping
    rw [Option.isSome_eq_false_iff.1 hmapping.symm |> Option.isNone_iff_eq_none.1]
  | some entries =>
    obtain ⟨entries', words, he', hwords, hwords'⟩ := h.entries he
    rw [he', Option.bind_some, Option.bind_some, isTrue_of_rel (rel_get? hwords key),
      isTrue_of_rel (rel_get? hwords' key)]

end SameOutline

end SiteAudit.Yaml
