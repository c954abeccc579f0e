import SiteAudit.Proofs.InsertedText
import SiteAudit.Proofs.Linewise
import SiteAudit.Proofs.Transform

/-!
# How lines end

A text has one style of line ends if a carriage return stands before each of its line feeds
(`FeedsFollowReturns`), or nowhere. A linewise function keeps both styles, and even the sequence of
all line feeds and carriage returns (`Linewise.lineBreaks`). What a completion adds is written with
the line end of the text, and so in its style, whichever it is (`LineStyle`, `style_fill`). Hence a
transform never mixes the two (`transform_keeps_lineEnds`).
-/

namespace SiteAudit

/-- A carriage return stands before every line feed. -/
def FeedsFollowReturns (t : Text) : Prop := ∀ x y, t = x ++ '\n' :: y → x.getLast? = some '\r'

/-- The line feeds and carriage returns of a text, in their order. -/
def lineBreaks (t : Text) : Text := t.filter fun c => ['\n', '\r'].contains c

/-- Line breaks of texts one after the other come one after the other. -/
lemma lineBreaks_append (s t : Text) : lineBreaks (s ++ t) = lineBreaks s ++ lineBreaks t :=
  List.filter_append ..

/-- A text without their characters has no line breaks. -/
lemma lineBreaks_of_not_mem {t : Text} (h : ∀ c ∈ ['\n', '\r'], c ∉ t) : lineBreaks t = [] := by
  apply List.filter_eq_nil_iff.2
  intro c hc hbreak
  exact h c (List.contains_iff_mem.1 hbreak) hc

namespace FeedsFollowReturns

variable {s t : Text}

/-- Where there are no line feeds, none stands alone. -/
lemma of_not_mem (h : '\n' ∉ t) : FeedsFollowReturns t := by
  rintro x y rfl
  exact absurd (List.mem_append_right x List.mem_cons_self) h

/-- The end of a line with both characters is in the style. -/
lemma lineEnd : FeedsFollowReturns ['\r', '\n'] := by
  intro x y e
  rcases x with _ | ⟨c, _ | ⟨d, x⟩⟩
  · cases e
  · cases e
    rfl
  · simp at e

/-- A text may follow another one; it cannot begin with a line feed. -/
lemma append (hs : FeedsFollowReturns s) (ht : FeedsFollowReturns t) :
    FeedsFollowReturns (s ++ t) := by
  intro x y e
  rcases List.append_eq_append_iff.1 e with ⟨z, rfl, hz⟩ | ⟨z, rfl, hz⟩
  · -- a line feed of the second text does not begin it
    have hlast := ht z y hz
    cases z with
    | nil => cases hlast
    | cons c z => rwa [List.getLast?_append_of_ne_nil _ (List.cons_ne_nil c z)]
  · cases z with
    | nil => cases ht [] y hz.symm
    | cons c z =>
      obtain ⟨rfl, -⟩ := List.cons.inj hz
      exact hs x z rfl

/-- A beginning of a text is in its style. -/
lemma left (h : FeedsFollowReturns (s ++ t)) : FeedsFollowReturns s := by
  rintro x y rfl
  exact h x (y ++ t) (by rw [List.append_assoc, List.cons_append])

/-- After a text without a carriage return at its end. -/
lemma right (h : FeedsFollowReturns (s ++ t)) (hs : s.getLast? ≠ some '\r') :
    FeedsFollowReturns t := by
  rintro x y rfl
  have hlast := h (s ++ x) y (List.append_assoc ..).symm
  cases x with
  | nil =>
    rw [List.append_nil] at hlast
    exact absurd hlast hs
  | cons c x => rwa [List.getLast?_append_of_ne_nil _ (List.cons_ne_nil c x)] at hlast

end FeedsFollowReturns

/-! ### Styles -/

/-- A condition on texts that goes with an end of lines: texts of one line satisfy it and so does
the end of a line, it holds of texts one after the other, and of what a text is cut into, unless it
is cut after a carriage return. -/
structure LineStyle (P : Text → Prop) (lineEnd : Text) : Prop where
  plain : ∀ {t}, '\n' ∉ t → '\r' ∉ t → P t
  ends : P lineEnd
  append : ∀ {s t}, P s → P t → P (s ++ t)
  left : ∀ {s t}, P (s ++ t) → P s
  right : ∀ {s t}, P (s ++ t) → s.getLast? ≠ some '\r' → P t

/-- One style has a carriage return before each line feed. -/
lemma lineStyle_returns : LineStyle FeedsFollowReturns ['\r', '\n'] where
  plain hfeed _ := .of_not_mem hfeed
  ends := .lineEnd
  append := .append
  left := .left
  right := .right

/-- The other one has no carriage returns. -/
lemma lineStyle_noReturns : LineStyle (fun t => '\r' ∉ t) ['\n'] where
  plain _ hreturn := hreturn
  ends := by decide
  append hs ht := fun hc => (List.mem_append.1 hc).elim hs ht
  left h := fun hc => h (List.mem_append_left _ hc)
  right h _ := fun hc => h (List.mem_append_right _ hc)

namespace LineStyle

variable {P : Text → Prop} {lineEnd : Text}

/-- Texts in a style are so together. -/
lemma flatMap {α : Type} {f : α → Text} {l : List α} (h : LineStyle P lineEnd)
    (hl : ∀ a ∈ l, P (f a)) : P (l.flatMap f) := by
  induction l with
  | nil => exact h.plain List.not_mem_nil List.not_mem_nil
  | cons a l ih =>
    obtain ⟨ha, hl⟩ := List.forall_mem_cons.1 hl
    rw [List.flatMap_cons]
    exact h.append ha (ih hl)

/-- Parts of one line are in the style with the line end between them. -/
lemma join {parts : List Text} (h : LineStyle P lineEnd)
    (hparts : ∀ part ∈ parts, '\n' ∉ part ∧ '\r' ∉ part) : P (Text.join lineEnd parts) := by
  fun_induction Text.join lineEnd parts with
  | case1 => exact h.plain List.not_mem_nil List.not_mem_nil
  | case2 part =>
    obtain ⟨hfeed, hreturn⟩ := hparts part (List.mem_singleton_self part)
    exact h.plain hfeed hreturn
  | case3 part rest _ ih =>
    obtain ⟨⟨hfeed, hreturn⟩, hrest⟩ := List.forall_mem_cons.1 hparts
    exact h.append (h.append (h.plain hfeed hreturn) h.ends) (ih hrest)

end LineStyle

/-! ### Linewise functions -/

namespace Linewise

variable {f : Text → Text}

/-- A line feed or a carriage return of the new text is one of the text, and each side of it has
been changed by itself. -/
lemma split (hf : Linewise f) {c : Char} (hc : c ∈ ['\n', '\r']) {t x y : Text}
    (h : f t = x ++ c :: y) : ∃ s rest, t = s ++ c :: rest ∧ f s = x ∧ f rest = y := by
  induction t using Text.inductionOnPieces [c] generalizing x with
  | piece t ht =>
    have hnot : c ∉ f t := hf.fresh c hc t (ht c (List.mem_singleton_self c))
    rw [h] at hnot
    exact absurd (List.mem_append_right x List.mem_cons_self) hnot
  | append s d t hd hs ih =>
    obtain rfl := List.mem_singleton.1 hd
    have hs : d ∉ f s := hf.fresh d hc s (hs d (List.mem_singleton_self d))
    rw [hf.apart d hc] at h
    by_cases hx : d ∈ x
    · obtain ⟨first, more, rfl, hfirst⟩ := List.eq_append_cons_of_mem hx
      rw [List.append_assoc, List.cons_append] at h
      obtain ⟨rfl, hmore⟩ := (Text.append_cons_inj hs hfirst).1 h
      obtain ⟨s', rest, rfl, rfl, rfl⟩ := ih hmore
      refine ⟨s ++ d :: s', rest, ?_, hf.apart d hc s s', rfl⟩
      rw [List.append_assoc, List.cons_append]
    · obtain ⟨rfl, rfl⟩ := (Text.append_cons_inj hs hx).1 h
      exact ⟨s, t, rfl, rfl, rfl⟩

/-- A linewise function leaves a carriage return before each line feed. -/
lemma feedsFollowReturns (hf : Linewise f) {t : Text} (h : FeedsFollowReturns t) :
    FeedsFollowReturns (f t) := by
  intro x y e
  obtain ⟨s, rest, rfl, rfl, -⟩ := hf.split List.mem_cons_self e
  apply (hf.getLast?_eq_return s).2
  exact h s rest rfl

/-- It leaves all line breaks as they are. -/
lemma lineBreaks (hf : Linewise f) (t : Text) :
    SiteAudit.lineBreaks (f t) = SiteAudit.lineBreaks t := by
  induction t using Text.inductionOnPieces ['\n', '\r'] with
  | piece t ht =>
    rw [lineBreaks_of_not_mem ht, lineBreaks_of_not_mem fun c hc => hf.fresh c hc t (ht c hc)]
  | append s c t hc hs ih =>
    have hnone := lineBreaks_of_not_mem fun d hd => hf.fresh d hd s (hs d hd)
    have hcons : ∀ u, SiteAudit.lineBreaks (c :: u) = c :: SiteAudit.lineBreaks u := fun u =>
      List.filter_cons_of_pos (List.contains_iff_mem.2 hc)
    rw [hf.apart c hc, lineBreaks_append, lineBreaks_append, hnone, lineBreaks_of_not_mem hs, hcons,
      hcons, ih]

end Linewise

/-! ### Completions -/

namespace Namespace

variable {m : Yaml.Memory} {content indent lineEnd : Text} {groups : List SettingGroup}
  {r : Completion}
  {P : Text → Prop}

/-- In the style with carriage returns their line end is the one of the text. -/
lemma lineEndOf_of_feeds (hfeed : '\n' ∈ content) (h : FeedsFollowReturns content) :
    lineEndOf content = ['\r', '\n'] := by
  obtain ⟨x, y, rfl⟩ := List.append_of_mem hfeed
  obtain ⟨z, rfl⟩ := List.getLast?_eq_some_iff.1 (h x y rfl)
  apply if_pos
  exact Text.occursIn_iff.2 ⟨z, y, by simp⟩

/-- Without carriage returns it is the line feed alone. -/
lemma lineEndOf_of_not_mem (h : '\r' ∉ content) : lineEndOf content = ['\n'] := by
  apply if_neg
  rw [Text.occursIn_iff]
  rintro ⟨x, y, rfl⟩
  exact h (List.mem_append_right x List.mem_cons_self)

/-- The lines of the default namespace are lines. -/
lemma not_mem_defaultLines : ∀ line ∈ defaultLines, '\n' ∉ line ∧ '\r' ∉ line := by
  unfold defaultLines
  decide

/-- The default namespace is written in the style of its line end. -/
lemma style_defaultBlock (h : LineStyle P lineEnd) : P (defaultBlock lineEnd) := by
  apply h.flatMap
  intro line hline
  obtain ⟨hfeed, hreturn⟩ := not_mem_defaultLines line hline
  exact h.append (h.plain hfeed hreturn) h.ends

/-- So are the groups that are inserted. -/
lemma style_insertion (h : LineStyle P lineEnd) (hindent : IsIndent indent)
    (groups : List SettingGroup) : P (insertion indent lineEnd groups) := by
  apply h.flatMap
  intro group _
  apply h.append h.ends
  rw [block_eq_join]
  apply h.join
  exact fun line hline => not_mem_linesOf hindent hline

/-- The text is cut after the header, which does not end with a carriage return. -/
lemma style_insert (h : LineStyle P (lineEndOf content)) (hcontent : P content)
    (groups : List SettingGroup) : P (insert content groups) := by
  rcases findHeader?_cases content with hnone | ⟨start, header, after, hfirst⟩
  · rwa [insert_of_findHeader?_eq_none hnone]
  · have hlast : (start ++ header).getLast? ≠ some '\r' := by
      rw [List.getLast?_append_of_ne_nil _ hfirst.isHeader.ne_nil]
      exact fun e => hfirst.isHeader.not_mem.2 (List.mem_of_getLast? e)
    have hparts : P ((start ++ header) ++ after) := by
      rwa [List.append_assoc, ← hfirst.whole]
    have hinsertion := style_insertion h (isIndent_childIndent (header ++ after)) groups
    rw [insert_eq hfirst]
    exact h.append (h.append (h.left hparts) hinsertion) (h.right hparts hlast)

/-- The default namespace is appended in the style of the text. -/
lemma style_append (h : LineStyle P (lineEndOf content)) (hcontent : P content) (apart : Bool) :
    P (append content apart) := by
  obtain ⟨n, -, e⟩ := append_eq content apart
  have hends : P (List.replicate n (lineEndOf content)).flatten := by
    rw [← List.flatMap_id]
    apply h.flatMap
    intro t ht
    obtain rfl := List.eq_of_mem_replicate ht
    exact h.ends
  rw [e]
  exact h.append hcontent (h.append hends (style_defaultBlock h))

/-- A completion is written in the style of the text. -/
lemma style_fill (h : LineStyle P (lineEndOf content)) (hcontent : P content)
    (hfill : fill m content groups = .ok r) : P r.content := by
  rcases fill_content hfill with hr | ⟨apart, hr⟩ | ⟨missing, hr⟩
  · rwa [hr]
  · rw [hr]
    exact style_append h hcontent apart
  · rw [hr]
    exact style_insert h hcontent missing

end Namespace

/-! ### Transforms -/

namespace Codemod
open Replacement

/-- **A transform never mixes the ends of lines.** A text with a carriage return before each of its
line feeds becomes such a text, and a text without carriage returns gets none. Beside the
configuration the sequence of all line feeds and carriage returns stays the same. -/
theorem transform_keeps_lineEnds {m : Yaml.Memory} {configFile file content : Text} {o : Outcome}
    (h : transform m configFile file content = .ok o) :
    ('\n' ∈ content → FeedsFollowReturns content → FeedsFollowReturns o.content) ∧
      ('\r' ∉ content → '\r' ∉ o.content) ∧
      (file ≠ configFile → lineBreaks o.content = lineBreaks content) := by
  have hlines := linewise_safe
  rcases transform_content h with ⟨-, ho⟩ | ⟨hfile, completion, hfill, ho⟩
  · rw [ho]
    refine ⟨fun _ hall => hlines.feedsFollowReturns hall, ?_, fun _ => hlines.lineBreaks content⟩
    exact hlines.fresh _ (by simp) content
  · rw [ho]
    refine ⟨fun hfeed hall => ?_, fun hnot => ?_, fun hne => absurd hfile hne⟩
    · have hfeed := (hlines.mem_iff (by simp)).2 hfeed
      have hall := hlines.feedsFollowReturns hall
      have hle := Namespace.lineEndOf_of_feeds hfeed hall
      exact Namespace.style_fill (hle ▸ lineStyle_returns) hall hfill
    · have hnot : '\r' ∉ (Replacement.applyAll safe content).1 :=
        hlines.fresh _ (by simp) content hnot
      have hle := Namespace.lineEndOf_of_not_mem hnot
      exact Namespace.style_fill (hle ▸ lineStyle_noReturns) hnot hfill

/-- A configuration without one of the groups, whose lines end with carriage returns. -/
def returned : Text :=
  Text.join ['\r', '\n'] ["al_folio: # theme", "  distill: font-weight-bold", ""]

/-- The same after the replacement of the class name. -/
def returnedReplaced : Text :=
  Text.join ['\r', '\n'] ["al_folio: # theme", "  distill: font-bold", ""]

/-- The lines of the group that is inserted end like the others. -/
theorem transform_keeps_lineEnds_returned :
    transform .inOrder "_config.yml" "_config.yml" returned =
        .ok ⟨Namespace.insert returnedReplaced [.tailwind],
          ["font_weight_bold", "al_folio_namespace"], false⟩ ∧
      '\n' ∈ returned ∧ FeedsFollowReturns returned ∧
      FeedsFollowReturns (Namespace.insert returnedReplaced [.tailwind]) := by
  have h : transform .inOrder "_config.yml" "_config.yml" returned =
      .ok ⟨Namespace.insert returnedReplaced [.tailwind],
        ["font_weight_bold", "al_folio_namespace"], false⟩ := by decide +kernel
  have hfeed : '\n' ∈ returned := by decide
  have hall : FeedsFollowReturns returned := lineStyle_returns.join (by decide)
  exact ⟨h, hfeed, hall, (transform_keeps_lineEnds h).1 hfeed hall⟩

end Codemod

end SiteAudit
