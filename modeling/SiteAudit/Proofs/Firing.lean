import SiteAudit.Proofs.Linewise

/-!
# Which replacements are made

Of replacements that are made one after the other those are told that change the text that the
others have left to them (`mem_fired_iff`), each of them once and in their order (`fired_sublist`).
Those that are linewise are made in a text if they are made on some line of it (`mem_fired_lines`).
The safe replacements work line by line: neither the new text of a line nor what is told of it
depends on the other lines (`applyAll_safe_lines`).
-/

namespace SiteAudit.Replacement

variable {r : Replacement} {rules before after : List Replacement} {id t : Text}

/-- A replacement fires if it changes the text, and the others if they change what it leaves. -/
lemma mem_fired_cons :
    id ∈ (applyAll (r :: rules) t).2 ↔
      (r.apply t ≠ t ∧ id = r.id) ∨ id ∈ (applyAll rules (r.apply t)).2 := by
  rw [fired_cons]
  split
  · rename_i hsame
    exact (or_iff_right fun h => h.1 hsame).symm
  · rename_i hne
    rw [List.mem_cons, and_iff_right hne]

/-- The second replacements are given what the first ones leave. -/
lemma fired_append (rules more : List Replacement) (t : Text) :
    (applyAll (rules ++ more) t).2 =
      (applyAll rules t).2 ++ (applyAll more (applyAll rules t).1).2 := by
  induction rules generalizing t with
  | nil => rfl
  | cons r rules ih =>
    rw [List.cons_append, fired_cons, fired_cons, ih]
    split <;> rfl

/-- What is told are the names of some of the replacements, in their order. -/
lemma fired_sublist (rules : List Replacement) (t : Text) :
    (applyAll rules t).2.Sublist (rules.map (·.id)) := by
  induction rules generalizing t with
  | nil => exact .slnil
  | cons r rules ih =>
    rw [fired_cons, List.map_cons]
    split
    · exact (ih _).cons r.id
    · exact (ih _).cons_cons r.id

/-- A replacement is told exactly if it changes the text that those before it leave. -/
lemma mem_fired_iff (hids : ((before ++ r :: after).map (·.id)).Nodup) (t : Text) :
    r.id ∈ (applyAll (before ++ r :: after) t).2 ↔
      r.apply (applyAll before t).1 ≠ (applyAll before t).1 := by
  rw [List.map_append, List.map_cons, List.nodup_append] at hids
  obtain ⟨-, hafter, hapart⟩ := hids
  have hearlier : r.id ∉ (applyAll before t).2 := fun hmem =>
    hapart _ ((fired_sublist before t).subset hmem) _ List.mem_cons_self rfl
  have hlater : ∀ u, r.id ∉ (applyAll after u).2 := fun u hmem =>
    (List.nodup_cons.1 hafter).1 ((fired_sublist after u).subset hmem)
  rw [fired_append, List.mem_append, or_iff_right hearlier, mem_fired_cons,
    or_iff_left (hlater _), and_iff_left rfl]

/-- Some of different names, in their order, are those that they hold. -/
lemma eq_filter_of_sublist {ids all : List Text} (h : ids.Sublist all) (hall : all.Nodup) :
    ids = all.filter (ids.contains ·) := by
  induction h with
  | slnil => rfl
  | @cons ids all id h ih =>
    obtain ⟨hid, hall⟩ := List.nodup_cons.1 hall
    have hnot : id ∉ ids := fun hmem => hid (h.subset hmem)
    rw [List.filter_cons_of_neg (mt List.contains_iff_mem.1 hnot)]
    exact ih hall
  | @cons_cons ids all id h ih =>
    obtain ⟨hid, hall⟩ := List.nodup_cons.1 hall
    have hrest : all.filter ((id :: ids).contains ·) = all.filter (ids.contains ·) := by
      apply List.filter_congr
      intro other hother
      have hne : other ≠ id := fun e => hid (e ▸ hother)
      rw [Bool.eq_iff_iff, List.contains_iff_mem, List.contains_iff_mem, List.mem_cons,
        or_iff_right hne]
    rw [List.filter_cons_of_pos (List.contains_iff_mem.2 List.mem_cons_self), hrest, ← ih hall]

/-! ### Lines -/

/-- A linewise replacement is made in a text if it is made on one side of the end of a line. -/
lemma mem_fired_apart (h : ∀ r ∈ rules, Linewise r.apply) {c : Char} (hc : c ∈ ['\n', '\r'])
    (s t : Text) :
    id ∈ (applyAll rules (s ++ c :: t)).2 ↔
      id ∈ (applyAll rules s).2 ∨ id ∈ (applyAll rules t).2 := by
  induction rules generalizing s t with
  | nil => exact (or_self_iff).symm
  | cons r rules ih =>
    obtain ⟨hr, hrules⟩ := List.forall_mem_cons.1 h
    rw [mem_fired_cons, mem_fired_cons, mem_fired_cons, Ne, hr.eq_self_iff hc, hr.apart c hc,
      ih hrules]
    tauto

/-- Linewise replacements fire exactly if they do so on some line. -/
lemma mem_fired_lines (h : ∀ r ∈ rules, Linewise r.apply) (t : Text) :
    id ∈ (applyAll rules t).2 ↔
      ∃ line ∈ Text.splitOn '\n' t, id ∈ (applyAll rules line).2 := by
  induction t using Text.inductionOnPieces ['\n'] with
  | piece t ht =>
    rw [Text.splitOn_of_not_mem (ht _ List.mem_cons_self)]
    simp only [List.mem_singleton, exists_eq_left]
  | append s c t hc hs ih =>
    obtain rfl := List.mem_singleton.1 hc
    rw [mem_fired_apart h List.mem_cons_self, ih, Text.splitOn_append (hs _ List.mem_cons_self),
      List.exists_mem_cons_iff]

/-- The safe replacements have different names. -/
lemma nodup_safe : (safe.map (·.id)).Nodup := by decide

/-- What the safe replacements tell is told by which of them are in it. -/
lemma fired_safe_eq_filter {t : Text} {told : Text → Prop} [DecidablePred told]
    (h : ∀ id, id ∈ (applyAll safe t).2 ↔ told id) :
    (applyAll safe t).2 = (safe.map (·.id)).filter fun id => told id := by
  rw [eq_filter_of_sublist (fired_sublist safe t) nodup_safe]
  apply List.filter_congr
  intro id _
  rw [Bool.eq_iff_iff, List.contains_iff_mem, decide_eq_true_iff]
  exact h id

/-- **The safe replacements work line by line.** On both sides of a line feed a text is changed as
each side is by itself, and a replacement is told if it is told of one side. So the lines of the new
text are those of the text, each changed by itself, and a replacement is told if it is told of some
line. -/
theorem applyAll_safe_lines :
    (∀ s t : Text, applyAll safe (s ++ '\n' :: t) =
      ((applyAll safe s).1 ++ '\n' :: (applyAll safe t).1,
        (safe.map (·.id)).filter fun id =>
          id ∈ (applyAll safe s).2 ∨ id ∈ (applyAll safe t).2)) ∧
    ∀ t : Text,
      Text.splitOn '\n' (applyAll safe t).1 =
        (Text.splitOn '\n' t).map (fun line => (applyAll safe line).1) ∧
      (applyAll safe t).2 = (safe.map (·.id)).filter fun id =>
        ∃ line ∈ Text.splitOn '\n' t, id ∈ (applyAll safe line).2 := by
  refine ⟨fun s t => Prod.ext ?_ ?_, fun t => ⟨linewise_safe.splitOn t, ?_⟩⟩
  · exact linewise_safe.apart '\n' List.mem_cons_self s t
  · exact fired_safe_eq_filter fun _ => mem_fired_apart linewise_of_mem_safe List.mem_cons_self s t
  · exact fired_safe_eq_filter fun _ => mem_fired_lines linewise_of_mem_safe t

end SiteAudit.Replacement
