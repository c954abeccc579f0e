import Mathlib.Data.List.Basic
import Mathlib.Data.List.TakeWhile
import Mathlib.Tactic.Common
import SiteAudit.Proofs.Insertion

/-!
# Groups inserted one by one

An insertion goes by the place of the header, the indentation of the lines below it and the end of a
line (`insert_eq_layout`). It changes none of the three (`layout?_insert`): the lines it puts in are
indented like the others and end like them, and they come first. Groups that are inserted one after
the other, the last one first, therefore come out as if inserted at once (`insertNamed?_append`).
-/

namespace SiteAudit.Namespace

variable {content before header after indent lineEnd : Text}

/-! ### The indentation -/

/-- A line with something in it that is no comment. -/
def isContent (line : Text) : Bool :=
  match Text.trim line with
  | [] => false
  | c :: _ => c != '#'

/-- The indentation that is read off such a line. -/
def indentOf : Option Text → Text
  | some line =>
    let indent := line.takeWhile fun c => c == ' ' || c == '\t'
    if indent.isEmpty then [' ', ' '] else indent
  | none => [' ', ' ']

/-- The indentation is read off the first such line below the header. -/
lemma childIndent_eq (t : Text) :
    childIndent t = indentOf (((Text.lines t).drop 1).find? isContent) := by
  unfold childIndent indentOf
  rfl

/-- What ends a line has an empty line first, unless it is empty itself. -/
lemma EndsLine.lines (h : EndsLine after) (hne : after ≠ []) :
    ∃ rest, Text.lines after = [] :: rest := by
  rcases h with rfl | rfl | ⟨rest, rfl⟩ | ⟨rest, rfl⟩
  · exact absurd rfl hne
  · exact ⟨[], rfl⟩
  · exact ⟨_, rfl⟩
  · exact ⟨_, rfl⟩

/-- The end of a line ends an empty line. -/
lemma lines_lineEnd (h : IsLineEnd lineEnd) (t : Text) :
    Text.lines (lineEnd ++ t) = [] :: Text.lines t := by
  rcases h with rfl | rfl
  · rfl
  · rfl

/-- The comment of the header may hold lines of its own. After these comes what follows the
header. -/
lemma find?_lines_append (hheader : IsHeader header) (hafter : EndsLine after) :
    ((Text.lines (header ++ after)).drop 1).find? isContent =
      (((Text.lines header).drop 1).find? isContent).or
        ((Text.lines after).find? isContent) := by
  by_cases hne : after = []
  · rw [hne, List.append_nil]
    exact Option.or_none.symm
  obtain ⟨rest, hrest⟩ := hafter.lines hne
  obtain ⟨line, more, hlines⟩ := List.exists_cons_of_ne_nil (Text.lines_ne_nil hheader.ne_nil)
  have hempty : isContent [] = false := rfl
  rw [Text.lines_append hheader.not_mem.2 hrest, hrest, hlines, List.find?_cons, hempty]
  rcases Text.lines_append_feed hheader.not_mem.2 with h | h
  · rw [h, hlines]
    exact List.find?_append
  · rw [h, hlines]
    simp [List.find?_append, hempty]

/-- Every group has a setting by default. -/
lemma defaults_ne_nil (group : SettingGroup) : group.defaults ≠ [] := by
  cases group <;> exact List.cons_ne_nil _ _

/-- The lines of a group begin with its key. -/
lemma block_eq (group : SettingGroup) (indent lineEnd : Text) :
    ∃ settings, group.block indent lineEnd =
      indent ++ (group.key ++ [':']) ++ (lineEnd ++ settings) := by
  obtain ⟨setting, settings, hsettings⟩ := List.exists_cons_of_ne_nil (defaults_ne_nil group)
  unfold SettingGroup.block
  rw [hsettings, List.map_cons, Text.join]
  · simp only [List.append_assoc]
    exact ⟨_, rfl⟩
  · simp

/-- A key of a group begins with a letter, and it is written without blanks and ends of lines. -/
lemma key_plain (group : SettingGroup) : ∃ c t, group.key ++ [':'] = c :: t ∧
    (c ≠ '#' ∧ c ≠ ' ' ∧ c ≠ '\t') ∧ Text.trim (c :: t) = c :: t ∧
      (c :: t).all (fun d => !Text.isLineEnd d) = true := by
  cases group with
  | tailwind => exact ⟨_, _, rfl, by decide, by decide, by decide⟩
  | distill => exact ⟨_, _, rfl, by decide, by decide, by decide⟩

/-- An indentation is white space. -/
lemma trim_indent (hindent : IsIndent indent) (t : Text) :
    Text.trim (indent ++ t) = Text.trim t := by
  have hblank : ∀ c ∈ indent, Text.isBlank c = true := by
    intro c hc
    rcases hindent.2 c hc with rfl | rfl <;> decide
  unfold Text.trim
  congr 3
  exact List.dropWhile_append_of_pos hblank

/-- The first line of a group is no comment, and is indented as it was to be. -/
lemma indentOf_key (hindent : IsIndent indent) (group : SettingGroup) :
    isContent (indent ++ (group.key ++ [':'])) = true ∧
      indentOf (some (indent ++ (group.key ++ [':']))) = indent := by
  obtain ⟨c, t, hkey, ⟨hcomment, hspace, htab⟩, htrim, -⟩ := key_plain group
  rw [hkey]
  constructor
  · unfold isContent
    rw [trim_indent hindent, htrim]
    simpa using hcomment
  · have htake : (indent ++ c :: t).takeWhile (fun c => c == ' ' || c == '\t') = indent := by
      rw [List.takeWhile_append_of_pos fun d hd => by simpa using hindent.2 d hd,
        List.takeWhile_cons_of_neg (by simp [hspace, htab]), List.append_nil]
    unfold indentOf
    dsimp only
    rw [htake, if_neg (fun e => hindent.1 (List.isEmpty_iff.1 e))]

/-- The first line with something in it is that of the first group. -/
lemma find?_lines_insertion (hindent : IsIndent indent) (h : IsLineEnd lineEnd)
    (group : SettingGroup) (groups : List SettingGroup) (after : Text) :
    (Text.lines (insertion indent lineEnd (group :: groups) ++ after)).find? isContent =
      some (indent ++ (group.key ++ [':'])) := by
  have hline : ∀ c ∈ indent ++ (group.key ++ [':']), Text.isLineEnd c = false := by
    obtain ⟨_, _, hkey, -, -, hplain⟩ := key_plain group
    intro c hc
    rcases List.mem_append.1 hc with hc | hc
    · rcases hindent.2 c hc with rfl | rfl <;> decide
    · simpa using List.all_eq_true.1 hplain c (hkey ▸ hc)
  obtain ⟨settings, hblock⟩ := block_eq group indent lineEnd
  have hlines : Text.lines (indent ++ (group.key ++ [':']) ++
      (lineEnd ++ (settings ++ (insertion indent lineEnd groups ++ after)))) =
        (indent ++ (group.key ++ [':'])) :: _ :=
    Text.lines_append_of_line hline (lines_lineEnd h _)
  rw [insertion_cons, hblock, List.append_assoc, lines_lineEnd h, List.append_assoc,
    List.append_assoc (indent ++ (group.key ++ [':'])), List.append_assoc lineEnd, hlines,
    List.find?_cons_of_neg (by decide), List.find?_cons_of_pos (indentOf_key hindent group).1]

/-- Inserted groups do not change the indentation that is found. -/
lemma childIndent_insertion (hheader : IsHeader header) (hafter : EndsLine after)
    (h : IsLineEnd lineEnd) (groups : List SettingGroup) :
    childIndent (header ++
        (insertion (childIndent (header ++ after)) lineEnd groups ++ after)) =
      childIndent (header ++ after) := by
  cases groups with
  | nil => rfl
  | cons group groups =>
    have hindent := isIndent_childIndent (header ++ after)
    have hinserted := endsLine_insertion h hafter (childIndent (header ++ after)) (group :: groups)
    rw [childIndent_eq, find?_lines_append hheader hinserted, find?_lines_insertion hindent h]
    cases hfind : ((Text.lines header).drop 1).find? isContent with
    | none => exact (indentOf_key hindent group).2
    | some line =>
      -- a line in the comment of the header decides in both texts
      rw [childIndent_eq, find?_lines_append hheader hafter, hfind]
      rfl

/-! ### The end of a line -/

/-- Where lines end without a carriage return there is none in what is inserted. -/
lemma not_mem_insertion (hindent : IsIndent indent) (groups : List SettingGroup) :
    '\r' ∉ insertion indent ['\n'] groups := by
  intro hc
  obtain ⟨group, -, hc⟩ := List.mem_flatMap.1 hc
  rcases List.mem_append.1 hc with hc | hc
  · exact absurd hc (by decide)
  rw [block_eq_join] at hc
  rcases Text.mem_join hc with hc | ⟨line, hline, hc⟩
  · exact absurd hc (by decide)
  · exact (not_mem_linesOf hindent hline).2 hc

/-- An insertion does not change how the lines of the text end. -/
lemma lineEndOf_insert (h : FirstHeader content before header after)
    (groups : List SettingGroup) : lineEndOf (insert content groups) = lineEndOf content := by
  have hindent := isIndent_childIndent (header ++ after)
  have hinsert := insert_eq h groups
  have hlast : (before ++ header).getLast? ≠ some '\r' := by
    rw [List.getLast?_append_of_ne_nil _ h.isHeader.ne_nil]
    exact fun e => h.isHeader.not_mem.2 (List.mem_of_getLast? e)
  by_cases hreturn : Text.occursIn ['\r', '\n'] content = true
  · have hle : lineEndOf content = ['\r', '\n'] := if_pos hreturn
    rw [hle] at hinsert ⊢
    refine if_pos ?_
    cases groups with
    | nil =>
      rw [hinsert]
      simpa [insertion, ← h.whole] using hreturn
    | cons group groups =>
      rw [hinsert, insertion_cons]
      exact Text.occursIn_iff.2 ⟨before ++ header, _, by simp only [List.append_assoc]; rfl⟩
  · have hle : lineEndOf content = ['\n'] := if_neg hreturn
    rw [hle] at hinsert ⊢
    refine if_neg ?_
    have hnot := not_mem_insertion hindent groups
    have hinserted : Text.occursIn ['\r', '\n']
        (insertion (childIndent (header ++ after)) ['\n'] groups) = false := by
      rw [← Bool.not_eq_true, Text.occursIn_iff]
      rintro ⟨x, y, e⟩
      exact hnot (e ▸ List.mem_append_right x List.mem_cons_self)
    rw [h.whole, ← List.append_assoc, Text.occursIn_pair_append hlast] at hreturn
    rwa [hinsert, List.append_assoc, Text.occursIn_pair_append hlast,
      Text.occursIn_pair_append fun e => hnot (List.mem_of_getLast? e), hinserted, Bool.false_or]

/-! ### Layouts -/

/-- What an insertion goes by. -/
structure Layout where
  /-- The number of characters before the header. -/
  start : Nat
  /-- The number of characters up to the end of the header. -/
  stop : Nat
  indent : Text
  lineEnd : Text
  deriving DecidableEq

/-- The layout of a text with a header. -/
def layout? (content : Text) : Option Layout :=
  (findHeader? 0 true content).map fun (start, stop) =>
    ⟨start, stop, childIndent (content.drop start), lineEndOf content⟩

/-- The layout of a text is that of its first header. -/
lemma layout?_eq_some (h : FirstHeader content before header after) :
    layout? content = some ⟨before.length, before.length + header.length,
      childIndent (header ++ after), lineEndOf content⟩ := by
  unfold layout?
  rw [findHeader?_eq_some_iff.2 ⟨before, header, after, h, rfl, rfl⟩, Option.map_some]
  dsimp only
  rw [h.whole, List.drop_left]

/-- An insertion goes by the layout and by nothing else. -/
lemma insert_eq_layout (content : Text) (groups : List SettingGroup) :
    insert content groups = (layout? content).elim content fun layout =>
      content.take layout.stop ++ insertion layout.indent layout.lineEnd groups ++
        content.drop layout.stop := by
  rcases findHeader?_cases content with hnone | ⟨before, header, after, h⟩
  · rw [insert_of_findHeader?_eq_none hnone, layout?, hnone]
    rfl
  · rw [insert_eq h, layout?_eq_some h, Option.elim_some, h.take, h.drop]

/-- After an insertion the header is still the first one. -/
lemma firstHeader_insert (h : FirstHeader content before header after)
    (groups : List SettingGroup) : FirstHeader (insert content groups) before header
      (insertion (childIndent (header ++ after)) (lineEndOf content) groups ++ after) := by
  have hstop := endsLine_insertion (isLineEnd_lineEndOf content) h.stop
    (childIndent (header ++ after)) groups
  have hwhole := h.whole
  rw [insert_eq h, List.append_assoc, List.append_assoc]
  exact (hwhole ▸ h).append_congr hstop

/-- An insertion leaves the layout as it is. -/
lemma layout?_insert (content : Text) (groups : List SettingGroup) :
    layout? (insert content groups) = layout? content := by
  rcases findHeader?_cases content with hnone | ⟨before, header, after, h⟩
  · rw [insert_of_findHeader?_eq_none hnone]
  · rw [layout?_eq_some h, layout?_eq_some (firstHeader_insert h groups), lineEndOf_insert h,
      childIndent_insertion h.isHeader h.stop (isLineEnd_lineEndOf content)]

/-! ### One after the other -/

/-- Groups inserted before others come out as if inserted with them. -/
lemma insert_append (content : Text) (groups more : List SettingGroup) :
    insert content (groups ++ more) = insert (insert content more) groups := by
  rcases findHeader?_cases content with hnone | ⟨before, header, after, h⟩
  · simp only [insert_of_findHeader?_eq_none hnone]
  · have hindent := childIndent_insertion h.isHeader h.stop (isLineEnd_lineEndOf content) more
    rw [insert_eq (firstHeader_insert h more), lineEndOf_insert h, hindent, insert_eq h]
    simp only [insertion, List.flatMap_append, List.append_assoc]

/-- Without groups nothing is inserted. -/
lemma insert_nil (content : Text) : insert content [] = content := by
  rw [insert_eq_layout]
  cases layout? content with
  | none => rfl
  | some layout => simp [insertion]

/-- A text has a layout exactly if it has a header. -/
lemma isNone_layout? (content : Text) :
    (layout? content).isNone = (findHeader? 0 true content).isNone := by
  unfold layout?
  rw [Option.isNone_map]

/-- A text without a header stays as it is, whatever the keys are. -/
lemma insertNamed?_of_isNone (h : (layout? content).isNone = true) (keys : List Text) :
    insertNamed? content keys = some content :=
  if_pos (isNone_layout? content ▸ h)

/-- After a header the groups with the keys are inserted, if all of them are known. -/
lemma insertNamed?_of_isSome (h : (layout? content).isNone = false) (keys : List Text) :
    insertNamed? content keys = (keys.mapM SettingGroup.ofKey?).map (insert content) :=
  if_neg (by rw [← isNone_layout?, h]; exact Bool.false_ne_true)

/-- The groups with some keys are inserted after those with further keys. -/
lemma insertNamed?_bind (content : Text) (keys more : List Text) :
    insertNamed? content (keys ++ more) =
      (insertNamed? content more).bind (insertNamed? · keys) := by
  cases hlayout : (layout? content).isNone with
  | true =>
    rw [insertNamed?_of_isNone hlayout, insertNamed?_of_isNone hlayout, Option.bind_some,
      insertNamed?_of_isNone hlayout]
  | false =>
    rw [insertNamed?_of_isSome hlayout, insertNamed?_of_isSome hlayout, List.mapM_append]
    have hstep (groups : List SettingGroup) : insertNamed? (insert content groups) keys =
        (keys.mapM SettingGroup.ofKey?).map (insert (insert content groups)) :=
      insertNamed?_of_isSome (by rw [layout?_insert, hlayout]) keys
    cases more.mapM SettingGroup.ofKey? with
    | none => cases keys.mapM SettingGroup.ofKey? <;> rfl
    | some later =>
      rw [Option.map_some, Option.bind_some, hstep]
      cases keys.mapM SettingGroup.ofKey? with
      | none => rfl
      | some groups => exact congrArg some (insert_append content groups later)

/-- An insertion of groups by their keys leaves the layout as it is. -/
lemma layout?_insertNamed? {t : Text} {keys : List Text} (h : insertNamed? content keys = some t) :
    layout? t = layout? content := by
  cases hlayout : (layout? content).isNone with
  | true =>
    rw [insertNamed?_of_isNone hlayout] at h
    rw [Option.some.inj h]
  | false =>
    rw [insertNamed?_of_isSome hlayout] at h
    obtain ⟨groups, -, rfl⟩ := Option.map_eq_some_iff.1 h
    exact layout?_insert content groups

/-- A group is known by its key. -/
lemma mapM_ofKey? (groups : List SettingGroup) :
    (groups.map SettingGroup.key).mapM SettingGroup.ofKey? = some groups := by
  induction groups with
  | nil => rfl
  | cons group groups ih =>
    have hgroup : SettingGroup.ofKey? group.key = some group := by cases group <;> decide
    rw [List.map_cons, List.mapM_cons, hgroup, ih]
    rfl

/-- By their keys the groups themselves are inserted. -/
lemma insertNamed?_key (content : Text) (groups : List SettingGroup) :
    insertNamed? content (groups.map SettingGroup.key) = some (insert content groups) := by
  rcases findHeader?_cases content with hnone | ⟨before, header, after, h⟩
  · rw [insert_of_findHeader?_eq_none hnone]
    exact if_pos (by rw [hnone]; rfl)
  · have hlayout : (layout? content).isNone = false := by rw [layout?_eq_some h]; rfl
    rw [insertNamed?_of_isSome hlayout, mapM_ofKey?, Option.map_some]

/-- **Insertions compose.** Inserting the groups with two lists of keys at once is inserting those
of the second list, and then those of the first one; so the keys may be inserted one at a time, the
last one first. No insertion changes the place of the header, the indentation and the end of a line
that the next one goes by. Any keys of groups can be inserted. -/
theorem insertNamed?_append (content : Text) (keys more : List Text) :
    insertNamed? content (keys ++ more) =
        (insertNamed? content more).bind (insertNamed? · keys) ∧
      insertNamed? content keys = keys.foldrM (fun key t => insertNamed? t [key]) content ∧
      (∀ t, insertNamed? content keys = some t → layout? t = layout? content) ∧
      ∀ groups : List SettingGroup,
        insertNamed? content (groups.map SettingGroup.key) = some (insert content groups) := by
  refine ⟨insertNamed?_bind content keys more, ?_, fun t h => layout?_insertNamed? h,
    insertNamed?_key content⟩
  induction keys with
  | nil =>
    rw [List.foldrM_nil]
    exact (insertNamed?_key content []).trans (congrArg some (insert_nil content))
  | cons key keys ih =>
    rw [List.foldrM_cons, ← ih]
    exact insertNamed?_bind content [key] keys

/-- A comment with a line separator in it. What follows the separator is indented by a tabulator and
a blank, unlike the line below. -/
def separated : Text := "al_folio: # one\u2028\t two\r\n  style: 1\r\n"

/-- The indentation is that in the comment, before and after the groups have been inserted. -/
theorem insertNamed?_append_separated :
    layout? separated = some ⟨0, 21, "\t ", "\r\n"⟩ ∧
      insertNamed? separated ["tailwind", "distill"] =
        some (insert separated [.tailwind, .distill]) ∧
      insertNamed? separated ["tailwind", "distill"] =
        (insertNamed? separated ["distill"]).bind (insertNamed? · ["tailwind"]) ∧
      layout? (insert separated [.tailwind, .distill]) = some ⟨0, 21, "\t ", "\r\n"⟩ := by
  have hlayout : layout? separated = some ⟨0, 21, "\t ", "\r\n"⟩ := by decide
  obtain ⟨-, -, hkept, hgroups⟩ :=
    insertNamed?_append separated (["tailwind", "distill"] : List Text) []
  obtain ⟨hsplit, -, -, -⟩ :=
    insertNamed?_append separated (["tailwind"] : List Text) ["distill"]
  have hboth := hgroups [.tailwind, .distill]
  exact ⟨hlayout, hboth, hsplit, (hkept _ hboth).trans hlayout⟩

end SiteAudit.Namespace
