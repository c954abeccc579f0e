import SiteAudit.Check.Marker
import SiteAudit.Proofs.Matching
import SiteAudit.Proofs.SafeReplacements

/-!
# Markers under replacements

What begins with a text in which no replacement meddles is found after a pass where it was found
before it (`Pass.anyEnd_iff`). The safe replacements meddle with no marker, so that they neither
bring nor take away an attribute or a file (`occursIn_toggle`, `occursIn_asset`); they take away all
addresses of the remote template (`not_occursIn_template`), and bring a call only where the name of
the library ran into such an address (`occursIn_call`).
-/

namespace SiteAudit

namespace Text

variable {p q : Text → Bool} {t : Text}

/-- Some end of a text satisfies a condition if the whole text does, or an end of what follows its
first character. -/
lemma anyEnd_cons (p : Text → Bool) (c : Char) (t : Text) :
    anyEnd p (c :: t) = (p (c :: t) || anyEnd p t) := rfl

/-- A text occurs in another one if an end of that starts with it. -/
lemma occursIn_eq_anyEnd (needle t : Text) :
    occursIn needle t = anyEnd (startsWith · needle) t := by
  induction t with
  | nil => cases needle <;> rfl
  | cons c t ih => rw [occursIn, anyEnd_cons, ih]

/-- One of two conditions holds at some end if one of them does so. -/
lemma anyEnd_or (p q : Text → Bool) (t : Text) :
    anyEnd (fun s => p s || q s) t = (anyEnd p t || anyEnd q t) := by
  induction t with
  | nil => rfl
  | cons c t ih =>
    rw [anyEnd_cons, anyEnd_cons, anyEnd_cons, ih]
    cases p (c :: t) <;> cases q (c :: t) <;> simp

end Text

namespace Replacement

variable {rules : List Replacement} {head : Text}

/-- No rule begins in the text or around it. -/
structure Untouched (rules : List Replacement) (head : Text) : Prop where
  noTarget : ∀ r ∈ rules, mayBeginIn r.target r.wholeWord false [] head = false
  noSubstitute : ∀ r ∈ rules, mayBeginIn r.substitute false false [] head = false

/-- Nor does the text begin in what the rules look for or write. -/
structure Unmade (rules : List Replacement) (head : Text) : Prop extends Untouched rules head where
  inTarget : ∀ r ∈ rules, mayBeginIn head false r.wholeWord [] r.target = false
  inSubstitute : ∀ r ∈ rules, mayBeginIn head false r.wholeWord [] r.substitute = false

instance (rules : List Replacement) (head : Text) : Decidable (Untouched rules head) :=
  decidable_of_iff
    ((∀ r ∈ rules, mayBeginIn r.target r.wholeWord false [] head = false) ∧
      ∀ r ∈ rules, mayBeginIn r.substitute false false [] head = false)
    ⟨fun ⟨ht, hs⟩ => ⟨ht, hs⟩, fun ⟨ht, hs⟩ => ⟨ht, hs⟩⟩

instance (rules : List Replacement) (head : Text) : Decidable (Unmade rules head) :=
  decidable_of_iff
    (Untouched rules head ∧ (∀ r ∈ rules, mayBeginIn head false r.wholeWord [] r.target = false) ∧
      ∀ r ∈ rules, mayBeginIn head false r.wholeWord [] r.substitute = false)
    ⟨fun ⟨hu, ht, hs⟩ => ⟨hu, ht, hs⟩, fun ⟨hu, ht, hs⟩ => ⟨hu, ht, hs⟩⟩

/-- An untouched text stands at a place after a pass if it did before. -/
lemma Pass.append_iff {b : Option Char} {t t' : Text} (hu : Untouched rules head)
    (p : Pass rules b t t') {P Q : Text → Prop}
    (hagree : ∀ rest rest', Pass rules (lastOr b head) rest rest' → (P rest' ↔ Q rest)) :
    (∃ rest', t' = head ++ rest' ∧ P rest') ↔ ∃ rest, t = head ++ rest ∧ Q rest := by
  constructor
  · rintro ⟨rest', rfl, h⟩
    obtain ⟨rest, rfl, q⟩ := Pass.of_append hu.noSubstitute p
    exact ⟨rest, rfl, (hagree rest rest' q).1 h⟩
  · rintro ⟨rest, rfl, h⟩
    obtain ⟨rest', rfl, q⟩ := Pass.keep_append (m := []) hu.noTarget (by simp) p
    exact ⟨rest', rfl, (hagree rest rest' q).2 h⟩

/-- What begins with a text is not found in another one in which that text cannot begin. -/
lemma anyEnd_append {closed : Bool} {p : Text → Bool} {x y : Text}
    (hp : ∀ s, p s = true → ∃ rest, s = head ++ rest)
    (hx : mayBeginIn head false closed [] x = false)
    (hc : closed = true → isEdge y.head? = true) :
    Text.anyEnd p (x ++ y) = Text.anyEnd p y := by
  induction x with
  | nil => rfl
  | cons c x ih =>
    obtain ⟨hnow, hlater⟩ := mayBeginIn_cons.1 hx
    rw [List.append_nil] at hnow
    have hnot : p (c :: (x ++ y)) = false := by
      rw [← Bool.not_eq_true]
      intro h
      obtain ⟨rest, e⟩ := hp _ h
      cases (word_of_mayBegin hnow hc e).1
    rw [List.cons_append, Text.anyEnd_cons, hnot, ih hlater, Bool.false_or]

/-- What begins with a text in which no rule meddles is found after a pass where it was before. -/
lemma Pass.anyEnd_iff {p q : Text → Bool} {b : Option Char} {t t' : Text}
    (hproper : ∀ r ∈ rules, r.Proper) (hu : Unmade rules head) (pass : Pass rules b t t')
    {P Q : Text → Prop} (hp : ∀ s, p s = true ↔ ∃ rest, s = head ++ rest ∧ P rest)
    (hq : ∀ s, q s = true ↔ ∃ rest, s = head ++ rest ∧ Q rest)
    (hagree : ∀ b rest rest', Pass rules (lastOr b head) rest rest' → (P rest' ↔ Q rest)) :
    Text.anyEnd p t' = Text.anyEnd q t := by
  have hhere : ∀ {b t t'}, Pass rules b t t' → p t' = q t := by
    intro b t t' pass
    rw [Bool.eq_iff_iff, hp, hq]
    exact pass.append_iff hu.toUntouched (hagree b)
  have hbegins : ∀ {p : Text → Bool} {P : Text → Prop},
      (∀ s, p s = true ↔ ∃ rest, s = head ++ rest ∧ P rest) →
      ∀ s, p s = true → ∃ rest, s = head ++ rest := by
    intro p P hp s h
    obtain ⟨rest, e, -⟩ := (hp s).1 h
    exact ⟨rest, e⟩
  induction pass with
  | nil =>
    have hnil : Pass rules none [] [] := .nil
    exact hhere hnil
  | keep fresh tail ih =>
    rw [Text.anyEnd_cons, Text.anyEnd_cons, ih, hhere (.keep fresh tail)]
  | @swap b r t t' hr here tail ih =>
    -- neither the target nor the substitute has anything to do with it
    have hedge : r.wholeWord = true → isEdge t.head? = true := by
      intro hword
      obtain ⟨after, e, hw⟩ := occursAt_iff.1 here
      rw [List.append_cancel_left e]
      exact (hw hword).2
    rw [anyEnd_append (hbegins hp) (hu.inSubstitute r hr)
        fun h => tail.isEdge_head hproper (hedge h),
      anyEnd_append (hbegins hq) (hu.inTarget r hr) hedge, ih]

/-- A character that opens neither what is looked for nor what is written is untouched. -/
lemma untouched_singleton {c : Char} (hproper : ∀ r ∈ rules, r.Proper)
    (hc : ∀ r ∈ rules, r.target.head? ≠ some c ∧ r.substitute.head? ≠ some c) :
    Untouched rules [c] := by
  have hone : ∀ (s : Text) (word closed : Bool), s ≠ [] → s.head? ≠ some c →
      mayBeginIn s word closed [] [c] = false := by
    intro s word closed hs hhead
    obtain ⟨d, s, rfl⟩ := List.exists_cons_of_ne_nil hs
    have hd : (d == c) = false := beq_eq_false_iff_ne.2 fun e => hhead (by rw [e]; rfl)
    have hd' : (c == d) = false := beq_eq_false_iff_ne.2 fun e => hhead (by rw [e]; rfl)
    simp [mayBeginIn, mayBegin, List.isPrefixOf, hd, hd']
  exact ⟨fun r hr => hone _ _ _ (hproper r hr).target_ne (hc r hr).1,
    fun r hr => hone _ _ _ (hproper r hr).substitute_ne (hc r hr).2⟩

/-- Untouched characters are dropped from a text after a pass as before. -/
lemma Pass.dropWhile {q : Char → Bool} {b : Option Char} {t t' : Text}
    (hq : ∀ c, q c = true → Untouched rules [c]) (pass : Pass rules b t t') :
    ∃ b', Pass rules b' (t.dropWhile q) (t'.dropWhile q) := by
  induction t generalizing b t' with
  | nil =>
    cases t' with
    | nil => exact ⟨b, pass⟩
    | cons c t' =>
      by_cases hc : q c = true
      · obtain ⟨s, e, -⟩ := Pass.of_append (x := [c]) (hq c hc).noSubstitute pass
        cases e
      · rw [List.dropWhile_cons_of_neg hc]
        exact ⟨b, pass⟩
  | cons d t ih =>
    by_cases hd : q d = true
    · obtain ⟨t'', rfl, tail⟩ :=
        Pass.keep_append (x := [d]) (m := []) (hq d hd).noTarget (by simp) pass
      rw [List.dropWhile_cons_of_pos hd, List.singleton_append, List.dropWhile_cons_of_pos hd]
      exact ih tail
    · rw [List.dropWhile_cons_of_neg hd]
      cases t' with
      | nil => exact ⟨b, pass⟩
      | cons c t' =>
        by_cases hc : q c = true
        · obtain ⟨s, e, -⟩ := Pass.of_append (x := [c]) (hq c hc).noSubstitute pass
          cases e
          exact absurd hc hd
        · rw [List.dropWhile_cons_of_neg hc]
          exact ⟨b, pass⟩

end Replacement

namespace Marker
open Replacement

/-- What must follow the name of the attribute. -/
def startsWithSetting (rest : Text) : Bool :=
  match Text.trimStart rest with
  | '=' :: rest => (dropQuote? (Text.trimStart rest)).any startsWithValue
  | _ => false

/-- An attribute has its name and then a setting of it. -/
lemma startsWithToggle_iff {t : Text} : startsWithToggle t = true ↔
    ∃ rest, t = "data-toggle".toList ++ rest ∧ startsWithSetting rest = true := by
  unfold startsWithToggle
  cases h : Text.dropPrefix? "data-toggle" t with
  | none =>
    refine iff_of_false Bool.false_ne_true ?_
    rintro ⟨rest, rfl, -⟩
    cases h.symm.trans (Text.dropPrefix?_eq_some.2 rfl)
  | some rest =>
    rw [Text.dropPrefix?_eq_some.1 h]
    constructor
    · intro hs
      exact ⟨rest, rfl, hs⟩
    · rintro ⟨rest', e, hs⟩
      rw [List.append_cancel_left e]
      exact hs

/-- There are two kinds of quotes. -/
lemma isQuote_iff {c : Char} : isQuote c = true ↔ c = '"' ∨ c = '\'' := by
  unfold isQuote
  rw [Bool.or_eq_true, beq_iff_eq, beq_iff_eq]

/-- Dropping a quote leaves what follows it. -/
lemma dropQuote?_eq_some {t rest : Text} :
    dropQuote? t = some rest ↔ ∃ c, isQuote c = true ∧ t = [c] ++ rest := by
  cases t with
  | nil => simp [dropQuote?]
  | cons c t =>
    unfold dropQuote?
    by_cases hc : isQuote c = true
    · simp [hc]
    · simp [hc]

/-- A value is one of a list, with a quote after it. -/
lemma startsWithValue_iff {t : Text} : startsWithValue t = true ↔
    ∃ value ∈ toggleValues, ∃ c, isQuote c = true ∧ ∃ rest, t = (value ++ [c]) ++ rest := by
  unfold startsWithValue
  rw [List.any_eq_true]
  refine exists_congr fun value => and_congr_right fun _ => ?_
  rw [Option.isSome_iff_exists]
  constructor
  · rintro ⟨rest, h⟩
    obtain ⟨after, hafter, h⟩ := Option.bind_eq_some_iff.1 h
    obtain ⟨c, hc, rfl⟩ := dropQuote?_eq_some.1 h
    refine ⟨c, hc, rest, ?_⟩
    rw [Text.dropPrefix?_eq_some.1 hafter, List.append_assoc]
  · rintro ⟨c, hc, rest, rfl⟩
    refine ⟨rest, Option.bind_eq_some_iff.2 ⟨[c] ++ rest, ?_, dropQuote?_eq_some.2 ⟨c, hc, rfl⟩⟩⟩
    rw [List.append_assoc, Text.dropPrefix?_eq_some.2 rfl]

/-- Blanks may stand around the sign between the name and the value. -/
lemma startsWithSetting_iff {t : Text} : startsWithSetting t = true ↔
    ∃ rest, Text.trimStart t = ['='] ++ rest ∧ ∃ c, isQuote c = true ∧
      ∃ value, Text.trimStart rest = [c] ++ value ∧ startsWithValue value = true := by
  unfold startsWithSetting
  split
  · rename_i rest h
    rw [h, Option.any_eq_true]
    constructor
    · rintro ⟨value, hquote, hvalue⟩
      obtain ⟨c, hc, e⟩ := dropQuote?_eq_some.1 hquote
      exact ⟨rest, rfl, c, hc, value, e, hvalue⟩
    · rintro ⟨rest', e, c, hc, value, e', hvalue⟩
      cases e
      exact ⟨value, dropQuote?_eq_some.2 ⟨c, hc, e'⟩, hvalue⟩
  · rename_i hnot
    refine iff_of_false Bool.false_ne_true ?_
    rintro ⟨rest, e, -⟩
    exact hnot rest e

/-! ### The safe replacements -/

/-- What the safe replacements look for and write begins with one of few characters, and has nothing
to do with the markers. -/
lemma safe_unmade :
    (∀ r ∈ safe, r.target.head? ∈ ['f', 'h', 'a'].map some ∧
      r.substitute.head? ∈ ['f', '/', 'a'].map some) ∧
    (∀ head ∈ "data-toggle".toList :: "$(".toList :: "jQuery".toList :: assets,
      Unmade safe head) ∧
    ∀ value ∈ toggleValues,
      Untouched safe (value ++ ['"']) ∧ Untouched safe (value ++ ['\'']) := by
  unfold safe Replacement.remoteTemplate assets toggleValues
  repeat rw [String.toList_ofList]
  decide

/-- Other characters are untouched. -/
lemma untouched_of_not_mem {c : Char} (hc : c ∉ ['f', 'h', 'a', '/']) : Untouched safe [c] := by
  refine untouched_singleton safe_compatible.1.proper fun r hr => ?_
  obtain ⟨ht, hs⟩ := safe_unmade.1 r hr
  constructor
  · intro h
    rw [h] at ht
    refine hc ?_
    simp at ht ⊢
    tauto
  · intro h
    rw [h] at hs
    refine hc ?_
    simp at hs ⊢
    tauto

/-- No replacement begins or ends with white space or has any in it. -/
lemma untouched_blank {c : Char} (hc : Text.isBlank c = true) : Untouched safe [c] := by
  refine untouched_of_not_mem ?_
  rintro hmem
  simp only [List.mem_cons, List.not_mem_nil, or_false] at hmem
  rcases hmem with rfl | rfl | rfl | rfl <;> cases hc

/-- Nor has it anything to do with quotes. -/
lemma untouched_quote {c : Char} (hc : isQuote c = true) : Untouched safe [c] := by
  refine untouched_of_not_mem ?_
  rcases isQuote_iff.1 hc with rfl | rfl <;> decide

section
variable {b : Option Char} {t t' : Text} (pass : Pass safe b t t')
include pass

/-- A pass leaves the value of an attribute. -/
lemma startsWithValue_pass : startsWithValue t' = startsWithValue t := by
  rw [Bool.eq_iff_iff, startsWithValue_iff, startsWithValue_iff]
  refine exists_congr fun value => and_congr_right fun hvalue => ?_
  refine exists_congr fun c => and_congr_right fun hc => ?_
  have huntouched : Untouched safe (value ++ [c]) := by
    obtain ⟨hdouble, hsingle⟩ := safe_unmade.2.2 value hvalue
    rcases isQuote_iff.1 hc with rfl | rfl
    · exact hdouble
    · exact hsingle
  have hiff := pass.append_iff (P := fun _ => True) (Q := fun _ => True) huntouched
    fun _ _ _ => Iff.rfl
  simpa using hiff

/-- So it does with the setting, white space and quotes included. -/
lemma startsWithSetting_pass : startsWithSetting t' = startsWithSetting t := by
  rw [Bool.eq_iff_iff, startsWithSetting_iff, startsWithSetting_iff]
  obtain ⟨_, trimmed⟩ := pass.dropWhile fun _ => untouched_blank
  have hsign : Untouched safe ['='] := untouched_of_not_mem (by decide)
  refine trimmed.append_iff hsign fun rest rest' after => ?_
  obtain ⟨_, trimmed⟩ := after.dropWhile fun _ => untouched_blank
  refine exists_congr fun c => and_congr_right fun hc => ?_
  refine trimmed.append_iff (untouched_quote hc) fun value value' after => ?_
  rw [startsWithValue_pass after]

/-- A pass of the safe replacements neither brings nor takes away an attribute. -/
lemma occursIn_toggle : Marker.toggle.occursIn t' = Marker.toggle.occursIn t := by
  have hhead : Unmade safe "data-toggle" := safe_unmade.2.1 _ (List.mem_cons_self ..)
  refine pass.anyEnd_iff safe_compatible.1.proper hhead (fun _ => startsWithToggle_iff)
    (fun _ => startsWithToggle_iff) fun _ rest rest' after => ?_
  rw [startsWithSetting_pass after]

/-- Nor a text of which it knows nothing. -/
lemma occursIn_unmade {head : Text} (hhead : Unmade safe head) :
    Text.occursIn head t' = Text.occursIn head t := by
  rw [Text.occursIn_eq_anyEnd, Text.occursIn_eq_anyEnd]
  refine pass.anyEnd_iff safe_compatible.1.proper hhead (P := fun _ => True) (Q := fun _ => True)
    (fun s => ?_) (fun s => ?_) fun _ _ _ _ => Iff.rfl
  · simp [Text.startsWith_iff]
  · simp [Text.startsWith_iff]

/-- Nor a file. -/
lemma occursIn_file {name : Text} (hname : name ∈ assets) :
    Text.occursIn name t' = Text.occursIn name t :=
  occursIn_unmade pass (safe_unmade.2.1 name
    (List.mem_cons_of_mem _ (List.mem_cons_of_mem _ (List.mem_cons_of_mem _ hname))))

end

/-! ### Calls -/

/-- The name of the library before an edge. -/
def startsWithName (t : Text) : Bool :=
  (Text.dropPrefix? "jQuery" t).any fun rest => isEdge rest.head?

/-- The name of the library has an edge of a word after it. -/
lemma startsWithName_iff {t : Text} : startsWithName t = true ↔
    ∃ rest, t = "jQuery".toList ++ rest ∧ isEdge rest.head? = true := by
  unfold startsWithName
  rw [Option.any_eq_true]
  simp only [Text.dropPrefix?_eq_some]

/-- The name of the library that runs into the address of the remote template. -/
def runIn : Text := "jQuery".toList ++ Replacement.remoteTemplate

/-- A call is the short one or the name of the library. -/
lemma occursIn_call_eq (t : Text) : Marker.call.occursIn t =
    (Text.occursIn "$(" t || Text.anyEnd startsWithName t) := by
  have hcall : Marker.call.occursIn t =
      Text.anyEnd (fun s => Text.startsWith s "$(" || startsWithName s) t := rfl
  rw [hcall, Text.anyEnd_or, Text.occursIn_eq_anyEnd]

/-- Only the remote template is replaced by something that makes an edge. -/
lemma safe_edges : ∀ r ∈ safe,
    (isEdge r.target.head? = false → isEdge r.substitute.head? = true →
      r.target = Replacement.remoteTemplate) ∧
    (r.target.head? = Replacement.remoteTemplate.head? → isEdge r.substitute.head? = true) := by
  unfold safe Replacement.remoteTemplate
  repeat rw [String.toList_ofList]
  decide

/-- After a pass there is an edge at the start of a text if there was one, or the address of the
remote template. -/
lemma isEdge_pass {b : Option Char} {t t' : Text} (pass : Pass safe b t t') :
    isEdge t'.head? = true ↔
      isEdge t.head? = true ∨ ∃ rest, t = Replacement.remoteTemplate ++ rest := by
  have hproper := safe_compatible.1.proper
  constructor
  · intro h
    rcases pass.isEdge_head_inv hproper h with h | ⟨r, hr, htarget, hsubstitute, here⟩
    · exact .inl h
    · obtain ⟨rest, e, -⟩ := occursAt_iff.1 here
      rw [(safe_edges r hr).1 htarget hsubstitute] at e
      exact .inr ⟨rest, e⟩
  · rintro (h | ⟨rest, rfl⟩)
    · exact pass.isEdge_head hproper h
    · obtain ⟨u, hu, htarget⟩ := exists_remoteTemplate
      have hplain := (safe_compatible.2 u hu u hu).2 htarget
      have hhere : u.occursAt b (Replacement.remoteTemplate ++ rest) = true :=
        occursAt_iff.2 ⟨rest, by rw [htarget], fun hword => by cases hplain.symm.trans hword⟩
      have hhead : ∀ s : Text, (Replacement.remoteTemplate ++ s).head? =
        Replacement.remoteTemplate.head? := fun _ => rfl
      cases hc : Replacement.remoteTemplate ++ rest with
      | nil => cases (List.append_eq_nil_iff.1 hc).1
      | cons c s =>
        rw [hc] at pass hhere
        rcases pass.cons_inv with ⟨_, -, fresh, -⟩ | ⟨r, hr, x, x', e, rfl, -, -⟩
        · -- the address does not stay
          cases (fresh u hu).symm.trans hhere
        · have hne := (hproper r hr).target_ne
          have hsame : r.target.head? = Replacement.remoteTemplate.head? := by
            have hfirst := congrArg List.head? (hc.trans e)
            rw [hhead, List.head?_append_of_ne_nil _ hne] at hfirst
            exact hfirst.symm
          rw [isEdge_head_append (hproper r hr).substitute_ne]
          exact (safe_edges r hr).2 hsame

/-- A pass of the safe replacements takes away no call, and brings one only where the name of the
library ran into the address of the remote template. -/
lemma occursIn_call {b : Option Char} {t t' : Text} (pass : Pass safe b t t') :
    Marker.call.occursIn t' = (Marker.call.occursIn t || Text.occursIn runIn t) := by
  have hdollar : Unmade safe "$(" :=
    safe_unmade.2.1 _ (List.mem_cons_of_mem _ (List.mem_cons_self ..))
  have hname : Unmade safe "jQuery" :=
    safe_unmade.2.1 _ (List.mem_cons_of_mem _ (List.mem_cons_of_mem _ (List.mem_cons_self ..)))
  have hnames : Text.anyEnd startsWithName t' =
      Text.anyEnd (fun s => startsWithName s || Text.startsWith s runIn) t := by
    refine pass.anyEnd_iff safe_compatible.1.proper hname (fun _ => startsWithName_iff)
      (fun s => ?_) fun _ rest rest' after => isEdge_pass after
    rw [Bool.or_eq_true, startsWithName_iff, Text.startsWith_iff]
    constructor
    · rintro (⟨rest, rfl, h⟩ | ⟨rest, rfl⟩)
      · exact ⟨rest, rfl, .inl h⟩
      · exact ⟨Replacement.remoteTemplate ++ rest, List.append_assoc .., .inr ⟨rest, rfl⟩⟩
    · rintro ⟨rest, rfl, h | ⟨rest', rfl⟩⟩
      · exact .inl ⟨rest, rfl, h⟩
      · exact .inr ⟨rest', (List.append_assoc ..).symm⟩
  rw [occursIn_call_eq, occursIn_call_eq, occursIn_unmade pass hdollar, hnames, Text.anyEnd_or,
    ← Text.occursIn_eq_anyEnd, Bool.or_assoc]

/-! ### The remote template -/

/-- The safe replacements leave no address of the remote template. -/
lemma not_occursIn_template (t : Text) :
    Marker.remoteTemplate.occursIn (applyAll safe t).1 = false := by
  obtain ⟨r, hr, htarget⟩ := exists_remoteTemplate
  have heq : Marker.remoteTemplate.occursIn (applyAll safe t).1 =
      Text.occursIn Replacement.remoteTemplate (applyAll safe t).1 := rfl
  rw [heq, ← htarget]
  exact not_occursIn_of_plain hr ((safe_compatible.2 r hr r hr).2 htarget) t

end Marker

end SiteAudit
