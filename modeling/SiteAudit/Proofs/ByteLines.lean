import SiteAudit.Proofs.LineFindings
import SiteAudit.Proofs.Text

/-!
# Lines of bytes

A line feed ends a character that is not whole just as the end of the content does. So the content
of a file may be cut at its line feeds before it is read (`Lines.ofBytes_eq`), and the number of a
line is told by the line feeds before it (`Lines.ofFile_segments`).
-/

namespace SiteAudit

/-- The byte of a line feed. -/
def feed : UInt8 := 0x0A

namespace Utf8

variable {b : UInt8} {c : Char} {p : Pending} {bytes rest : Bytes}

/-- The character that a piece is read as. -/
def Piece.lenient : Piece → Char
  | .char c => c
  | .malformed _ _ => Char.ofNat 0xFFFD

/-- Neither does a line feed go on with the character, nor will the character be one. -/
structure Pending.Proper (p : Pending) : Prop where
  least : 0x80 ≤ p.least.toNat
  large : 16 ≤ p.value * 64 + (p.least.toNat - 0x80)

/-- Only one number is the code point of a line feed. -/
lemma ofNat_ne_feed {n : Nat} (h : n ≠ 10) : Char.ofNat n ≠ '\n' := by
  intro e
  by_cases hn : n.isValidChar
  · rw [Char.ofNat, dif_pos hn] at e
    exact h (congrArg Char.toNat e)
  · rw [Char.ofNat, dif_neg hn] at e
    cases e

/-- A byte that is a character is a line feed only if it is the byte of one. -/
lemma start_whole (h : start b = .whole c) (hb : b ≠ feed) : c ≠ '\n' := by
  unfold start at h
  dsimp only at h
  split_ifs at h
  cases h
  exact ofNat_ne_feed fun e => hb (UInt8.toNat_inj.1 e)

/-- What the first byte of a longer character leaves open is proper. -/
lemma start_longer (h : start b = .longer p) : p.Proper := by
  unfold start at h
  dsimp only at h
  simp only [UInt8.lt_iff_toNat_lt, ← UInt8.toNat_inj] at h
  split_ifs at h
  all_goals
    cases h
    constructor <;> simp at * <;> omega

/-- What goes on with a character is at least the least that does. -/
lemma Pending.le_of_accepts (h : p.accepts b = true) : p.least.toNat ≤ b.toNat := by
  unfold accepts at h
  rw [Bool.and_eq_true, decide_eq_true_eq] at h
  exact UInt8.le_iff_toNat_le.1 h.1

/-- So a line feed does not go on with a character. -/
lemma Pending.Proper.not_accepts_feed (hp : p.Proper) : p.accepts feed = false := by
  rw [Bool.eq_false_iff]
  intro h
  have hle := (le_of_accepts h).trans (by decide : feed.toNat ≤ 10)
  have := hp.least
  omega

/-- A character that has gone on is no control character. -/
lemma Pending.Proper.sixteen_le (hp : p.Proper) (h : p.accepts b = true) :
    16 ≤ (p.push b).value := by
  have hle := le_of_accepts h
  have hlarge := hp.large
  show 16 ≤ p.value * 64 + (b.toNat - 0x80)
  omega

/-- What is left open stays proper while the character goes on. -/
lemma Pending.Proper.push (hp : p.Proper) (h : p.accepts b = true) : (p.push b).Proper := by
  have hvalue := hp.sixteen_le h
  exact ⟨Nat.le_refl 0x80, by omega⟩

/-- The states that reading can reach. -/
inductive Reached : Option Pending → Prop where
  | between : Reached none
  | within {p : Pending} : p.Proper → Reached (some p)

/-- The text that pieces are read as. -/
def lenient (found : List Piece) : Text := found.map Piece.lenient

variable {state : Option Pending} {x y : Bytes} {f g : Option Pending → List Piece} {more : Text}

/-- A replacement character is no line feed. -/
lemma feed_ne_replaced : '\n' ≠ Char.ofNat 0xFFFD := by decide

/-- What is added to whatever follows a byte is added to what is read from it on. -/
lemma between_append (b : UInt8)
    (h : ∀ state, Reached state → lenient (f state) = lenient (g state) ++ more) :
    lenient (between b f) = lenient (between b g) ++ more := by
  unfold between
  cases hstart : start b with
  | whole c => exact congrArg _ (h none .between)
  | longer p => exact h (some p) (.within (start_longer hstart))
  | never => exact congrArg _ (h none .between)

/-- A byte that is no line feed brings none between characters. -/
lemma not_mem_between (hb : b ≠ feed) (h : ∀ state, Reached state → '\n' ∉ lenient (f state)) :
    '\n' ∉ lenient (between b f) := by
  unfold between
  cases hstart : start b with
  | whole c =>
    exact List.not_mem_cons_of_ne_of_not_mem (start_whole hstart hb).symm (h none .between)
  | longer p => exact h (some p) (.within (start_longer hstart))
  | never => exact List.not_mem_cons_of_ne_of_not_mem feed_ne_replaced (h none .between)

/-- Something is read of a byte between characters. -/
lemma between_ne_nil (b : UInt8) (h : ∀ p, f (some p) ≠ []) : between b f ≠ [] := by
  unfold between
  cases start b with
  | whole c => exact List.cons_ne_nil _ _
  | longer p => exact h p
  | never => exact List.cons_ne_nil _ _

/-- Reading starts anew after a line feed, wherever it stands. -/
lemma lenient_pieces_append (hstate : Reached state) (x y : Bytes) :
    lenient (pieces state (x ++ feed :: y)) =
      lenient (pieces state x) ++ '\n' :: lenient (pieces none y) := by
  induction x generalizing state with
  | nil =>
    cases hstate with
    | between => rfl
    | @within p hp =>
      have hnot : ¬ p.accepts feed = true := Bool.not_eq_true _ ▸ hp.not_accepts_feed
      -- the piece before the line feed is malformed as it is at the end
      have hcut : pieces (some p) (feed :: y) =
          .malformed p.taken .invalidContinuation :: .char '\n' :: pieces none y := by
        rw [pieces, if_neg hnot]
        rfl
      rw [List.nil_append, hcut]
      rfl
  | cons b x ih =>
    rw [List.cons_append]
    cases hstate with
    | between => exact between_append b fun state hstate => ih hstate
    | @within p hp =>
      rw [pieces, pieces]
      split
      · rename_i haccepts
        dsimp only
        split
        · exact congrArg _ (ih .between)
        · exact ih (.within (hp.push haccepts))
      · exact congrArg _ (between_append b fun state hstate => ih hstate)

/-- No line feed is read where there is none. -/
lemma not_mem_lenient_pieces (hstate : Reached state) (hx : feed ∉ x) :
    '\n' ∉ lenient (pieces state x) := by
  induction x generalizing state with
  | nil =>
    cases hstate with
    | between => exact List.not_mem_nil
    | within _ => exact List.not_mem_cons_of_ne_of_not_mem feed_ne_replaced List.not_mem_nil
  | cons b x ih =>
    obtain ⟨hb, hx⟩ := not_or.1 (mt List.mem_cons.2 hx)
    have hbetween := not_mem_between (Ne.symm hb) fun state hstate => ih hstate hx
    cases hstate with
    | between => exact hbetween
    | @within p hp =>
      rw [pieces]
      split
      · rename_i haccepts
        dsimp only
        split
        · have hvalue := hp.sixteen_le haccepts
          refine List.not_mem_cons_of_ne_of_not_mem (Ne.symm ?_) (ih .between hx)
          exact ofNat_ne_feed (by omega)
        · exact ih (.within (hp.push haccepts)) hx
      · exact List.not_mem_cons_of_ne_of_not_mem feed_ne_replaced hbetween

/-- Something is read of what is not empty. -/
lemma pieces_ne_nil (h : state ≠ none ∨ x ≠ []) : pieces state x ≠ [] := by
  induction x generalizing state with
  | nil =>
    cases state with
    | none => simp at h
    | some p => exact List.cons_ne_nil _ _
  | cons b x ih =>
    cases state with
    | none => exact between_ne_nil b fun p => ih (.inl (Option.some_ne_none p))
    | some p =>
      rw [pieces]
      split
      · dsimp only
        split
        · exact List.cons_ne_nil _ _
        · exact ih (.inl (Option.some_ne_none _))
      · exact List.cons_ne_nil _ _

/-! ### Whole contents -/

/-- A content is read up to a line feed and anew after it. -/
lemma decodeLenient_append (x y : Bytes) :
    decodeLenient (x ++ feed :: y) = decodeLenient x ++ '\n' :: decodeLenient y :=
  lenient_pieces_append .between x y

/-- A content without line feeds is read as a text without them. -/
lemma not_mem_decodeLenient (hx : feed ∉ x) : '\n' ∉ decodeLenient x :=
  not_mem_lenient_pieces .between hx

/-- The empty text is read of the empty content only. -/
lemma decodeLenient_eq_nil : decodeLenient x = [] ↔ x = [] := by
  refine ⟨fun h => ?_, fun h => h ▸ rfl⟩
  by_contra hx
  exact pieces_ne_nil (.inr hx) (List.map_eq_nil_iff.1 h)

end Utf8

namespace Lines

variable {content before segment x y : Bytes} {files : FileTree} {root path : Path}

/-- The content between line feeds. What follows the last one counts if there is something. -/
def segments (content : Bytes) : List Bytes :=
  let pieces := content.splitOn feed
  if pieces.getLast? = some [] then pieces.dropLast else pieces

/-- The line that a segment is read as by itself. -/
def ofSegment (segment : Bytes) : Text := dropReturn (Utf8.decodeLenient segment)

/-- The content has the segment after what stands before it. -/
structure HasSegment (content before segment : Bytes) : Prop where
  /-- It begins where a line feed has ended what stands before. -/
  starts : ∀ b ∈ before.getLast?, b = feed
  no_feed : feed ∉ segment
  /-- It ends with a line feed, or with the content if it is not empty. -/
  stops : (∃ after, content = before ++ (segment ++ feed :: after)) ∨
    content = before ++ segment ∧ segment ≠ []

/-! ### Segments -/

/-- A content without line feeds is one segment, unless it is empty. -/
lemma segments_of_not_mem (h : feed ∉ content) :
    segments content = if content = [] then [] else [content] := by
  unfold segments
  rw [List.splitOn_eq_singleton h]
  simp

/-- A line feed ends the first segment. -/
lemma segments_append (hx : feed ∉ x) (y : Bytes) :
    segments (x ++ feed :: y) = x :: segments y := by
  unfold segments
  rw [List.splitOn_append_cons_self_of_not_mem hx]
  have hne := List.splitOn_ne_nil feed y
  dsimp only
  rw [List.getLast?_cons_of_ne_nil hne, List.dropLast_cons_of_ne_nil hne]
  split <;> rfl

/-- A text without line feeds is one line, unless it is empty. -/
lemma ofText_of_not_mem {t : Text} (h : '\n' ∉ t) :
    ofText t = if t = [] then [] else [dropReturn t] := by
  unfold ofText
  rw [Text.splitOn_of_not_mem h]
  by_cases ht : t = []
  · simp [ht]
  · simp [ht]

/-- A line feed ends the first line. -/
lemma ofText_append {s : Text} (hs : '\n' ∉ s) (t : Text) :
    ofText (s ++ '\n' :: t) = dropReturn s :: ofText t := by
  unfold ofText
  rw [Text.splitOn_append hs]
  have hne := Text.splitOn_ne_nil '\n' t
  dsimp only
  rw [List.getLast?_cons_of_ne_nil hne, List.dropLast_cons_of_ne_nil hne]
  split <;> rfl

/-- **Reading the lines of a content is reading its segments one by one.** -/
theorem ofBytes_eq (content : Bytes) : ofBytes content = (segments content).map ofSegment := by
  unfold ofBytes
  induction content using Text.inductionOnPieces [feed] with
  | piece x hx =>
    have hx := hx feed (List.mem_singleton_self feed)
    rw [ofText_of_not_mem (Utf8.not_mem_decodeLenient hx), segments_of_not_mem hx]
    by_cases hnil : x = []
    · rw [if_pos hnil, if_pos (Utf8.decodeLenient_eq_nil.2 hnil), List.map_nil]
    · rw [if_neg hnil, if_neg (mt Utf8.decodeLenient_eq_nil.1 hnil)]
      rfl
  | append x c y hc hx ih =>
    have hx := hx feed (List.mem_singleton_self feed)
    rw [List.mem_singleton.1 hc, Utf8.decodeLenient_append,
      ofText_append (Utf8.not_mem_decodeLenient hx), segments_append hx, List.map_cons, ih]
    rfl

/-! ### Places of segments -/

/-- Before the first line feed a segment starts with the content only. -/
lemma HasSegment.before_eq_nil (h : HasSegment content before segment) (hnot : feed ∉ before) :
    before = [] := by
  by_contra hne
  have hlast := List.getLast?_eq_getLast_of_ne_nil hne
  exact hnot (h.starts _ hlast ▸ List.getLast_mem hne)

/-- A content without line feeds has itself as a segment and no other. -/
lemma hasSegment_of_not_mem (hx : feed ∉ x) :
    HasSegment x before segment ↔ before = [] ∧ segment = x ∧ x ≠ [] := by
  constructor
  · intro h
    rcases h.stops with ⟨after, rfl⟩ | ⟨rfl, hne⟩
    · simp at hx
    · obtain ⟨hbefore, -⟩ := not_or.1 (mt List.mem_append.2 hx)
      cases h.before_eq_nil hbefore
      exact ⟨rfl, rfl, hne⟩
  · rintro ⟨rfl, rfl, hne⟩
    exact ⟨nofun, hx, .inr ⟨rfl, hne⟩⟩

/-- A segment is the one that the first line feed ends, or one of what follows. -/
lemma hasSegment_append (hx : feed ∉ x) :
    HasSegment (x ++ feed :: y) before segment ↔
      before = [] ∧ segment = x ∨
        ∃ before', before = x ++ feed :: before' ∧ HasSegment y before' segment := by
  constructor
  · intro h
    by_cases hmem : feed ∈ before
    · right
      obtain ⟨x', before', rfl, hx'⟩ := List.eq_append_cons_of_mem hmem
      have hstarts : ∀ b ∈ before'.getLast?, b = feed := fun b hb => h.starts b (by
        rw [List.getLast?_append, List.getLast?_cons, hb]
        rfl)
      rcases h.stops with ⟨after, e⟩ | ⟨e, hne⟩
      · rw [List.append_assoc, List.cons_append] at e
        obtain ⟨rfl, rfl⟩ := (Text.append_cons_inj hx hx').1 e
        exact ⟨before', rfl, hstarts, h.no_feed, .inl ⟨after, rfl⟩⟩
      · rw [List.append_assoc, List.cons_append] at e
        obtain ⟨rfl, rfl⟩ := (Text.append_cons_inj hx hx').1 e
        exact ⟨before', rfl, hstarts, h.no_feed, .inr ⟨rfl, hne⟩⟩
    · left
      cases h.before_eq_nil hmem
      rcases h.stops with ⟨after, e⟩ | ⟨e, -⟩
      · exact ⟨rfl, ((Text.append_cons_inj hx h.no_feed).1 e).1.symm⟩
      · rw [List.nil_append] at e
        exact absurd (e ▸ List.mem_append_right x List.mem_cons_self) h.no_feed
  · rintro (⟨rfl, rfl⟩ | ⟨before', rfl, h⟩)
    · exact ⟨nofun, hx, .inl ⟨y, rfl⟩⟩
    · refine ⟨fun b hb => ?_, h.no_feed, ?_⟩
      · rw [List.getLast?_append, List.getLast?_cons] at hb
        cases hlast : before'.getLast? with
        | none =>
          rw [hlast] at hb
          exact (Option.some.inj hb).symm
        | some c =>
          rw [hlast] at hb
          exact Option.some.inj hb ▸ h.starts c hlast
      · rcases h.stops with ⟨after, rfl⟩ | ⟨rfl, hne⟩
        · exact .inl ⟨after, by rw [List.append_assoc, List.cons_append]⟩
        · exact .inr ⟨by rw [List.append_assoc, List.cons_append], hne⟩

/-- As many line feeds stand before a segment as there are segments before it. -/
lemma getElem?_segments {i : Nat} :
    (segments content)[i]? = some segment ↔
      ∃ before, HasSegment content before segment ∧ before.count feed = i := by
  induction content using Text.inductionOnPieces [feed] generalizing i with
  | piece x hx =>
    have hx := hx feed (List.mem_singleton_self feed)
    rw [segments_of_not_mem hx]
    constructor
    · intro h
      split at h
      · cases h
      · rename_i hne
        cases i with
        | zero =>
          have hsegment := (Option.some.inj h).symm
          exact ⟨[], (hasSegment_of_not_mem hx).2 ⟨rfl, hsegment, hne⟩, rfl⟩
        | succ i => cases h
    · rintro ⟨before, h, rfl⟩
      obtain ⟨rfl, rfl, hne⟩ := (hasSegment_of_not_mem hx).1 h
      rw [if_neg hne]
      rfl
  | append x c y hc hx ih =>
    have hx := hx feed (List.mem_singleton_self feed)
    rw [List.mem_singleton.1 hc, segments_append hx]
    constructor
    · intro h
      cases i with
      | zero => exact ⟨[], (hasSegment_append hx).2 (.inl ⟨rfl, (Option.some.inj h).symm⟩), rfl⟩
      | succ i =>
        obtain ⟨before, hbefore, rfl⟩ := ih.1 h
        refine ⟨_, (hasSegment_append hx).2 (.inr ⟨before, rfl, hbefore⟩), ?_⟩
        rw [List.count_append, List.count_cons_self, List.count_eq_zero.2 hx, Nat.zero_add]
    · rintro ⟨before, h, rfl⟩
      rcases (hasSegment_append hx).1 h with ⟨rfl, rfl⟩ | ⟨before, rfl, hbefore⟩
      · rfl
      · rw [List.count_append, List.count_cons_self, List.count_eq_zero.2 hx, Nat.zero_add]
        exact ih.2 ⟨before, hbefore, rfl⟩

/-- A line has a number one higher than there are line feeds before its segment. -/
lemma mem_numbered_ofBytes {n : Nat} {line : Text} :
    (n, line) ∈ numbered (ofBytes content) ↔ ∃ before segment,
      HasSegment content before segment ∧ n = before.count feed + 1 ∧ line = ofSegment segment := by
  rw [mem_numbered, ofBytes_eq]
  constructor
  · rintro ⟨i, rfl, h⟩
    rw [List.getElem?_map, Option.map_eq_some_iff] at h
    obtain ⟨segment, hsegment, rfl⟩ := h
    obtain ⟨before, hbefore, rfl⟩ := getElem?_segments.1 hsegment
    exact ⟨before, segment, hbefore, rfl, rfl⟩
  · rintro ⟨before, segment, hbefore, rfl, rfl⟩
    refine ⟨_, rfl, ?_⟩
    rw [List.getElem?_map, getElem?_segments.2 ⟨before, hbefore, rfl⟩, Option.map_some]

end Lines

/-! ### Findings -/

/-- The finding is about a segment of the content, and tells how many line feeds stand before it. -/
def Finding.PointsInto (content : Bytes) (f : Finding) : Prop :=
  ∃ before segment, Lines.HasSegment content before segment ∧
    f.line = before.count feed + 1 ∧ f.snippet = Text.trim (Lines.ofSegment segment)

namespace Lines

/-- A finding about a numbered line points to the segment of the line. -/
lemma pointsInto_of_numbered {f : Finding} {line : Nat × Text}
    (h : line ∈ numbered (ofBytes content)) (hline : f.line = line.1)
    (hsnippet : f.snippet = Text.trim line.2) : f.PointsInto content := by
  obtain ⟨before, segment, hbefore, hn, htext⟩ := mem_numbered_ofBytes.1 h
  refine ⟨before, segment, hbefore, ?_, ?_⟩
  · rw [hline, hn]
    rfl
  · rw [hsnippet, htext]

/-- **The lines of a file are its segments, read one by one**, whatever its bytes are. A line is
numbered by the line feeds before it, and each finding on a line of the file tells that number. -/
theorem ofFile_segments (h : files.read path = .ok content) (notices : List Notice) :
    runFrom (ofFile files path) notices = (.ok ((segments content).map ofSegment), notices) ∧
    (∀ n line, (n, line) ∈ numbered (ofBytes content) ↔ ∃ before segment,
      HasSegment content before segment ∧ n = before.count feed + 1 ∧ line = ofSegment segment) ∧
    (∀ root, (path.relativeTo? root).isSome → ∃ findings,
      (runFrom (Legacy.fileFindings files root path) notices).1 = .ok findings ∧
        ∀ f ∈ findings, f.PointsInto content) ∧
    (∀ root file, Path.joinText root file = path → ∃ findings,
      (runFrom (Legacy.assetFindings files root file) notices).1 = .ok findings ∧
        ∀ f ∈ findings, f.PointsInto content) ∧
    ∀ root, ∃ findings,
      (runFrom (RemoteLoader.fileFindings files root path) notices).1 = .ok findings ∧
        ∀ f ∈ findings, f.PointsInto content := by
  have hlines := ofPath_of_read h
  refine ⟨?_, fun n line => mem_numbered_ofBytes, fun root hbelow => ?_, fun root file hfile => ?_,
    fun root => ?_⟩
  · unfold ofFile
    rw [h, ← ofBytes_eq]
    rfl
  · obtain ⟨names, hnames⟩ := Option.isSome_iff_exists.1 hbelow
    rw [Legacy.runFrom_fileFindings hnames, hlines]
    refine ⟨_, rfl, fun f hf => ?_⟩
    obtain ⟨line, hline, hf⟩ := List.mem_flatMap.1 hf
    obtain ⟨m, -, rfl⟩ := List.mem_map.1 hf
    exact pointsInto_of_numbered hline rfl rfl
  · rw [Legacy.runFrom_assetFindings, hfile, hlines]
    refine ⟨_, rfl, List.forall_mem_map.2 fun line hline => ?_⟩
    exact pointsInto_of_numbered (List.mem_of_mem_filter hline) rfl rfl
  · rw [RemoteLoader.runFrom_runtimeFindings, hlines]
    refine ⟨_, rfl, List.forall_mem_map.2 fun line hline => ?_⟩
    exact pointsInto_of_numbered (List.mem_of_mem_filter hline) rfl rfl

/-- A content whose first line ends within a character. -/
def tornContent : Bytes := [0xE2, 0x82, 0x0A, 0x0D, 0x0A] ++ Utf8.encode "$(a)"

/-- A tree with that content. -/
def tornFiles : FileTree := .ofFiles [(.ofText "/a.html", tornContent)]

/-- The call is on the third line, after two line feeds. -/
theorem ofFile_segments_torn :
    tornFiles.read (.ofText "/a.html") = .ok tornContent ∧
      runFrom (ofFile tornFiles (.ofText "/a.html")) [] =
        (.ok [[Char.ofNat 0xFFFD], [], "$(a)".toList], []) ∧
      ∃ findings,
        (runFrom (Legacy.fileFindings tornFiles (.ofText "/") (.ofText "/a.html")) []).1 =
          .ok findings ∧
        findings.map Finding.line = [3] ∧ ∀ f ∈ findings, f.PointsInto tornContent := by
  have hread : tornFiles.read (.ofText "/a.html") = .ok tornContent := by decide +kernel
  have hlines : (segments tornContent).map ofSegment =
      [[Char.ofNat 0xFFFD], [], "$(a)".toList] := by decide +kernel
  have hfound : (runFrom (Legacy.fileFindings tornFiles (.ofText "/") (.ofText "/a.html")) []).1.map
      (List.map Finding.line) = .ok [3] := by decide +kernel
  obtain ⟨hrun, -, hinline, -⟩ := ofFile_segments hread []
  obtain ⟨findings, hfindings, hpoints⟩ := hinline (.ofText "/") (by decide +kernel)
  rw [hlines] at hrun
  rw [hfindings] at hfound
  exact ⟨hread, hrun, findings, hfindings, Except.ok.inj hfound, hpoints⟩

end Lines

end SiteAudit
