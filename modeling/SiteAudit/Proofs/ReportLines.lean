import SiteAudit.Proofs.Findings
import SiteAudit.Proofs.Outputs
import SiteAudit.Proofs.Reasons
import SiteAudit.Proofs.RemoteLoading
import SiteAudit.Proofs.Repetition

/-!
# Lines of reports

A finding takes two lines of a report, and one more for each line feed in its message or in the name
of its file (`Report.count_markdown`). An audit of a site gives such findings exactly if a place in
the configuration is wrong, or something is found in a file whose name holds a line feed; otherwise
the report can be read back line by line (`Site.report_lines_iff`).
-/

namespace SiteAudit

namespace Finding

variable {f : Finding} {findings blocking warnings : List Finding}

/-- The line feeds in what a finding tells of the site. -/
def feeds (f : Finding) : Nat := f.message.count '\n' + f.file.count '\n'

/-- What a finding tells of the site holds no line feed. -/
def IsOneLine (f : Finding) : Prop := '\n' ∉ f.message ∧ '\n' ∉ f.file

/-- Neither the identifier nor the snippet holds a line feed. -/
structure Plain (f : Finding) : Prop where
  id : '\n' ∉ f.id
  snippet : '\n' ∉ f.snippet

/-- A finding tells no line feed exactly if it needs none. -/
lemma feeds_eq_zero : f.feeds = 0 ↔ f.IsOneLine := by
  unfold feeds IsOneLine
  rw [Nat.add_eq_zero_iff, List.count_eq_zero, List.count_eq_zero]

/-- What is added up over the findings is added up over both sides. -/
lemma Splits.sum (h : Splits findings blocking warnings) (g : Finding → Nat) :
    (blocking.map g).sum + (warnings.map g).sum = (findings.map g).sum := by
  induction h with
  | nil => rfl
  | blocking _ _ ih =>
    rw [List.map_cons, List.map_cons, List.sum_cons, List.sum_cons, ← ih, Nat.add_assoc]
  | warning _ _ ih =>
    rw [List.map_cons, List.map_cons, List.sum_cons, List.sum_cons, ← ih, Nat.add_left_comm]

end Finding

/-! ### Lines with line feeds -/

namespace Report
open Finding

variable {f : Finding} {findings blocking warnings : List Finding} {rows : List Text}

/-- The line feeds that are in the lines. -/
def feedsIn (rows : List Text) : Nat := (rows.map (List.count '\n')).sum

/-- Line feeds in lines add up. -/
lemma feedsIn_append (rows more : List Text) :
    feedsIn (rows ++ more) = feedsIn rows + feedsIn more := by
  unfold feedsIn
  rw [List.map_append, List.sum_append]

/-- So they do line by line. -/
lemma feedsIn_cons (row : Text) (rows : List Text) :
    feedsIn (row :: rows) = row.count '\n' + feedsIn rows := rfl

/-- The text of lines has a line feed for each of them, and those that they hold. -/
lemma count_rows (rows : List Text) :
    (rows.flatMap (· ++ ['\n'])).count '\n' = rows.length + feedsIn rows := by
  induction rows with
  | nil => rfl
  | cons row rows ih =>
    rw [List.flatMap_cons, List.count_append, List.count_append, ih, feedsIn_cons, List.length_cons,
      List.count_singleton_self]
    omega

/-- The lines can be read back exactly if none of them holds a line feed. -/
lemma splitOn_rows :
    Text.splitOn '\n' (rows.flatMap (· ++ ['\n'])) = rows ++ [[]] ↔ feedsIn rows = 0 := by
  constructor
  · intro h
    have hlength := congrArg List.length h
    rw [Text.length_splitOn, count_rows, List.length_append, List.length_singleton] at hlength
    omega
  · intro h
    induction rows with
    | nil => rfl
    | cons row rows ih =>
      obtain ⟨hrow, hrows⟩ := Nat.add_eq_zero_iff.1 h
      rw [List.flatMap_cons, List.append_assoc, List.singleton_append,
        Text.splitOn_append (List.count_eq_zero.1 hrow), ih hrows, List.cons_append]

/-- The lines of a finding hold no line feeds but those it tells; the words around hold none. -/
lemma feedsIn_findingLines (h : f.Plain) : feedsIn (findingLines f) = f.feeds := by
  have hid := List.count_eq_zero.2 h.id
  have hsnippet := List.count_eq_zero.2 h.snippet
  have hline := List.count_eq_zero.2 (Text.feed_not_mem_ofInt f.line)
  have hwords : "- [".toList.count '\n' = 0 ∧ "] ".toList.count '\n' = 0 ∧
      " (`".toList.count '\n' = 0 ∧ "`)".toList.count '\n' = 0 ∧ [':'].count '\n' = 0 ∧
      "  - Snippet: `".toList.count '\n' = 0 ∧ "`".toList.count '\n' = 0 := by decide +kernel
  obtain ⟨hopen, hclose, hat, hend, hcolon, hbullet, hquote⟩ := hwords
  unfold findingLines location feeds
  simp only [feedsIn_cons, List.count_append, hid, hsnippet, hline, hopen, hclose, hat, hend,
    hcolon, hbullet, hquote]
  unfold feedsIn
  simp

/-- A section has two lines for each finding, or one that says there are none. -/
lemma length_sectionLines (findings : List Finding) :
    (sectionLines findings).length = max 1 (2 * findings.length) := by
  cases findings with
  | nil => rfl
  | cons f findings =>
    have hlength : (sectionLines (f :: findings)).length = 2 * (f :: findings).length := by
      unfold sectionLines findingLines
      simp [List.length_flatMap]
      omega
    rw [hlength, List.length_cons]
    omega

/-- The lines of a section hold the line feeds that its findings tell. -/
lemma feedsIn_sectionLines (h : ∀ f ∈ findings, f.Plain) :
    feedsIn (sectionLines findings) = (findings.map feeds).sum := by
  have hall : feedsIn (findings.flatMap findingLines) = (findings.map feeds).sum := by
    induction findings with
    | nil => rfl
    | cons f findings ih =>
      obtain ⟨hf, hfindings⟩ := List.forall_mem_cons.1 h
      rw [List.flatMap_cons, feedsIn_append, feedsIn_findingLines hf, ih hfindings, List.map_cons,
        List.sum_cons]
  rw [← hall]
  unfold sectionLines
  split
  · decide
  · rfl

/-- The lines of a report whose findings take two lines each. -/
def regularLength (findings : List Finding) : Nat :=
  14 + max 1 (2 * (ofSeverity .blocking findings).length)
    + max 1 (2 * (ofSeverity .warning findings).length)

/-- A report has as many lines as its form says. -/
lemma length_lines (findings : List Finding) :
    (lines findings).length = regularLength findings := by
  obtain ⟨blocking, warnings, h⟩ := exists_splits findings
  obtain ⟨hblocking, hwarnings⟩ := h.ofSeverity
  unfold regularLength
  rw [lines_of_splits h, hblocking, hwarnings, ← length_sectionLines, ← length_sectionLines]
  simp [opening, countLines]
  omega

/-- The numbers of findings hold no line feeds. -/
lemma feedsIn_countLines (blocking warnings : List Finding) :
    feedsIn (countLines blocking warnings) = 0 := by
  have hfirst : '\n' ∉ "- Blocking findings: ".toList ++ Text.ofNat blocking.length :=
    List.not_mem_append (by decide) (Text.feed_not_mem_ofNat _)
  have hsecond : '\n' ∉ "- Non-blocking findings: ".toList ++ Text.ofNat warnings.length :=
    List.not_mem_append (by decide) (Text.feed_not_mem_ofNat _)
  unfold countLines
  rw [feedsIn_cons, feedsIn_cons, List.count_eq_zero.2 hfirst, List.count_eq_zero.2 hsecond]
  rfl

/-- The lines of a report hold the line feeds that the findings tell. -/
lemma feedsIn_lines (h : ∀ f ∈ findings, f.Plain) :
    feedsIn (lines findings) = (findings.map feeds).sum := by
  obtain ⟨blocking, warnings, hsplits⟩ := exists_splits findings
  obtain ⟨hblocking, hwarnings⟩ := hsplits.ofSeverity
  have hplain : (∀ f ∈ blocking, f.Plain) ∧ ∀ f ∈ warnings, f.Plain := by
    rw [← hblocking, ← hwarnings]
    exact ⟨fun f hf => h f (List.mem_of_mem_filter hf), fun f hf => h f (List.mem_of_mem_filter hf)⟩
  have hfixed : feedsIn opening = 0 ∧ "## Summary".toList.count '\n' = 0 ∧
      "## Blocking".toList.count '\n' = 0 ∧ "## Non-blocking".toList.count '\n' = 0 ∧
      feedsIn [] = 0 := by decide +kernel
  obtain ⟨hopening, hsummary, hstop, hgo, hnil⟩ := hfixed
  rw [lines_of_splits hsplits, ← hsplits.sum, ← feedsIn_sectionLines hplain.1,
    ← feedsIn_sectionLines hplain.2]
  simp only [feedsIn_append, feedsIn_cons, feedsIn_countLines, hopening, hsummary, hstop, hgo, hnil,
    List.count_nil, Nat.zero_add, Nat.add_zero]

/-- **A report has the lines of its form, and one more for each line feed in the findings.** -/
theorem count_markdown (h : ∀ f ∈ findings, f.Plain) :
    (markdown findings).count '\n' = regularLength findings + (findings.map feeds).sum := by
  unfold markdown
  rw [count_rows, length_lines, feedsIn_lines h]

end Report

/-! ### Findings of checks -/

namespace Finding

variable {f : Finding} {findings : List Finding} {plainly : Prop}

/-- The findings take two lines each exactly if the condition holds. -/
structure Reports (findings : List Finding) (plainly : Prop) : Prop where
  plain : ∀ f ∈ findings, f.Plain
  oneLine : (∀ f ∈ findings, f.IsOneLine) ↔ plainly

/-- Where nothing is found, the condition has to hold. -/
lemma reports_nil (h : plainly) : Reports [] plainly where
  plain _ hf := absurd hf List.not_mem_nil
  oneLine := iff_of_true (fun _ hf => absurd hf List.not_mem_nil) h

/-- What tells of nothing but the site as such takes two lines. -/
lemma reports_of_forall (h : ∀ f ∈ findings, f.Plain ∧ f.IsOneLine) : Reports findings True where
  plain f hf := (h f hf).1
  oneLine := iff_of_true (fun f hf => (h f hf).2) trivial

/-- A condition may be put in other words. -/
lemma Reports.iff {plainly' : Prop} (h : Reports findings plainly) (hiff : plainly ↔ plainly') :
    Reports findings plainly' :=
  ⟨h.plain, h.oneLine.trans hiff⟩

/-- Findings that tell of a file do so under its name. -/
lemma reports_of_file {file : Text} (hplain : ∀ f ∈ findings, f.Plain)
    (hmessage : ∀ f ∈ findings, '\n' ∉ f.message) (hfile : ∀ f ∈ findings, f.file = file) :
    Reports findings (findings ≠ [] → '\n' ∉ file) where
  plain := hplain
  oneLine := by
    constructor
    · intro h hne
      obtain ⟨f, hf⟩ := List.exists_mem_of_ne_nil findings hne
      exact hfile f hf ▸ (h f hf).2
    · intro h f hf
      refine ⟨hmessage f hf, ?_⟩
      rw [hfile f hf]
      exact h (List.ne_nil_of_mem hf)

/-- Findings file by file take two lines each if they do for each of the files. -/
lemma Reports.flatMap {α : Type} {l : List α} {g : α → List Finding} {plainly : α → Prop}
    (h : ∀ a ∈ l, Reports (g a) (plainly a)) :
    Reports (l.flatMap g) (∀ a ∈ l, plainly a) where
  plain := List.forall_mem_flatMap.2 fun a ha => (h a ha).plain
  oneLine := List.forall_mem_flatMap.trans (forall₂_congr fun a ha => (h a ha).oneLine)

/-- The findings of checks take two lines each if the conditions of all checks hold. -/
lemma Reports.flatten {found : List (List Finding)} {conditions : List Prop}
    (h : List.Forall₂ (fun condition findings => Reports findings condition) conditions found) :
    Reports found.flatten (∀ condition ∈ conditions, condition) := by
  induction h with
  | nil => exact reports_nil fun _ h => absurd h List.not_mem_nil
  | @cons condition findings conditions found hone _ ih =>
    rw [List.flatten_cons]
    refine ⟨List.forall_mem_append.2 ⟨hone.plain, ih.plain⟩, ?_⟩
    rw [List.forall_mem_append, List.forall_mem_cons, hone.oneLine, ih.oneLine]

/-- Findings on the lines of a file tell of it under its name. -/
lemma reports_of_lines (files : FileTree) (path : Path) {file : Text}
    (hwords : ∀ f ∈ findings, '\n' ∉ f.id ∧ '\n' ∉ f.message)
    (hlines : ∀ f ∈ findings, f.file = file ∧
      ∃ line ∈ Lines.numbered (Lines.ofPath files path), f.snippet = Text.trim line.2) :
    Reports findings (findings ≠ [] → '\n' ∉ file) := by
  refine reports_of_file (fun f hf => ⟨(hwords f hf).1, ?_⟩) (fun f hf => (hwords f hf).2)
    fun f hf => (hlines f hf).1
  obtain ⟨-, ⟨n, line⟩, hline, hsnippet⟩ := hlines f hf
  rw [hsnippet]
  intro hfeed
  have hmem := Lines.exists_mem_numbered.1 ⟨n, hline⟩
  exact Lines.not_mem_of_mem_ofPath hmem (Text.mem_of_mem_trim hfeed)

end Finding

open Finding

variable {site : Site} {files : FileTree} {root path : Path} {paths roots : List Path} {file : Text}

/-- That manifests are missing is told in fixed words. -/
lemma Manifests.reports_check (notices : List Notice) :
    Reports (findingsOf (runFrom (check.run site files paths) notices).1) True := by
  have hmissing : missing.Plain ∧ missing.IsOneLine :=
    ⟨⟨by decide +kernel, by decide +kernel⟩, by decide +kernel, by decide +kernel⟩
  have hreturns : Returns (fun findings => ∀ f ∈ findings, f = missing)
      (check.run site files paths) := by
    refine (Returns.any _).bind fun found _ => .pure ?_
    split
    · exact List.forall_mem_singleton.2 rfl
    · exact fun _ h => absurd h List.not_mem_nil
  cases hrun : (runFrom (check.run site files paths) notices).1 with
  | error e => exact reports_nil trivial
  | ok findings =>
    exact reports_of_forall fun f hf => hreturns notices findings hrun f hf ▸ hmissing

/-- An override is told by the name of a file of the theme, which holds no line feed. -/
lemma Overrides.reports_foundIn (loaded : Except Text (Option Config.Tree)) :
    Reports (foundIn files root loaded) True := by
  have hfiles : ∀ file ∈ themeFiles, '\n' ∉ file := by decide +kernel
  have hwords : '\n' ∉ (finding []).id ∧ '\n' ∉ (finding []).snippet ∧
      '\n' ∉ (finding []).message := by decide +kernel
  obtain ⟨hid, hsnippet, hmessage⟩ := hwords
  unfold foundIn
  split
  · split
    · refine reports_of_forall (List.forall_mem_map.2 fun file hfile => ?_)
      exact ⟨⟨hid, hsnippet⟩, hmessage, hfiles file (List.mem_of_mem_filter hfile)⟩
    · exact reports_nil trivial
  · exact reports_nil trivial

/-- Remains are looked for in files whose names hold no line feed. -/
lemma Legacy.reports_assetsIn : Reports (assetsIn files root) True := by
  have hincludes : ∀ file ∈ includes, '\n' ∉ file := by decide +kernel
  have hwords : '\n' ∉ (assetFinding [] (0, [])).id ∧
      '\n' ∉ (assetFinding [] (0, [])).message := by decide +kernel
  have hall : Reports (assetsIn files root) (∀ file ∈ includes, assetsOn file
      (Lines.ofPath files (root.joinText file)) ≠ [] → '\n' ∉ file) := by
    refine Reports.flatMap fun file _ => reports_of_lines files (root.joinText file) ?_ ?_
    · exact List.forall_mem_map.2 fun _ _ => hwords
    · exact List.forall_mem_map.2 fun line hline =>
        ⟨rfl, line, List.mem_of_mem_filter hline, rfl⟩
  exact hall.iff (iff_of_true (fun file hfile _ => hincludes file hfile) trivial)

/-- Markers are told by lines of the file, and under its name. -/
lemma Legacy.reports_inlineFindings :
    Reports (inlineFindings file (Lines.ofPath files path))
      (inlineFindings file (Lines.ofPath files path) ≠ [] → '\n' ∉ file) := by
  have hwords : ∀ m ∈ inlineMarkers, '\n' ∉ m.id ∧ '\n' ∉ m.message := by decide +kernel
  refine reports_of_lines files path (fun f hf => ?_) fun f hf => ?_
  · obtain ⟨line, -, hf⟩ := List.mem_flatMap.1 hf
    obtain ⟨m, hm, rfl⟩ := List.mem_map.1 hf
    exact hwords m (List.mem_of_mem_filter hm)
  · obtain ⟨line, hline, hf⟩ := List.mem_flatMap.1 hf
    obtain ⟨m, -, rfl⟩ := List.mem_map.1 hf
    exact ⟨rfl, line, hline, rfl⟩

/-- References to the remote template are told under the label of the file. -/
lemma RemoteLoader.reports_templatesOn :
    Reports (templatesOn file (Lines.ofPath files path))
      (RefersToTemplate files path → '\n' ∉ file) := by
  have hwords : '\n' ∉ (finding [] (0, [])).id ∧ '\n' ∉ (finding [] (0, [])).message := by
    decide +kernel
  have hfile : Reports (templatesOn file (Lines.ofPath files path))
      (templatesOn file (Lines.ofPath files path) ≠ [] → '\n' ∉ file) := by
    refine reports_of_lines files path ?_ ?_
    · exact List.forall_mem_map.2 fun _ _ => hwords
    · exact List.forall_mem_map.2 fun line hline =>
        ⟨rfl, line, List.mem_of_mem_filter hline, rfl⟩
  rwa [Ne, templatesOn_eq_nil, not_not] at hfile

namespace Contract

/-- What is wrong with the configuration is told on one line, and so is its name. -/
structure TellsPlainly (content : Option Bytes) (file : Text) : Prop where
  reason : ∀ bytes, content = some bytes → ¬ Config.IsWrongAtPlace bytes
  file : ∀ loaded, Config.loaded content = .ok loaded → foundIn file loaded ≠ [] → '\n' ∉ file

/-- Reasons have one line exactly if there is no place that they tell. -/
lemma forall_reason_iff {content : Option Bytes} :
    (∀ reason, Config.loaded content = .ok (.error reason) → '\n' ∉ reason) ↔
      ∀ bytes, content = some bytes → ¬ Config.IsWrongAtPlace bytes := by
  constructor
  · rintro h bytes rfl hwrong
    obtain ⟨reason, hloaded, hfeed⟩ := Config.feed_mem_reason_iff.2 hwrong
    exact h reason hloaded hfeed
  · intro h reason hloaded hfeed
    cases content with
    | none => cases hloaded
    | some bytes => exact h bytes rfl (Config.feed_mem_reason_iff.1 ⟨reason, hloaded, hfeed⟩)

/-- For a configuration that is read, it is the reason or the name that counts. -/
lemma tellsPlainly_iff {content : Option Bytes} {loaded : Except Text (Option Config.Tree)}
    (h : Config.loaded content = .ok loaded) :
    TellsPlainly content file ↔ (∀ reason, loaded = .error reason → '\n' ∉ reason) ∧
      (foundIn file loaded ≠ [] → '\n' ∉ file) := by
  constructor
  · rintro ⟨hreason, hfile⟩
    refine ⟨fun reason hr => forall_reason_iff.2 hreason reason ?_, hfile loaded h⟩
    rw [h, hr]
  · rintro ⟨hreason, hfile⟩
    refine ⟨forall_reason_iff.1 fun reason hr => hreason reason ?_, fun other hother => ?_⟩
    · exact Except.ok.inj (h.symm.trans hr)
    · cases h.symm.trans hother
      exact hfile

/-- What is found in a configuration takes two lines each exactly if it can be told so. -/
lemma reports_foundIn (content : Option Bytes) (file : Text) :
    Reports (findingsOf ((Config.loaded content).map (foundIn file)))
      (TellsPlainly content file) := by
  cases h : Config.loaded content with
  | error e =>
    refine reports_nil ⟨forall_reason_iff.1 fun reason hr => ?_, fun loaded hloaded => ?_⟩
    · cases h.symm.trans hr
    · cases h.symm.trans hloaded
  | ok loaded =>
    refine Reports.iff ?_ (tellsPlainly_iff h).symm
    show Reports (foundIn file loaded) _
    rcases loaded with reason | _ | tree
    · have hwords : '\n' ∉ (unreadable [] []).id ∧ '\n' ∉ (unreadable [] []).snippet ∧
          '\n' ∉ " could not be parsed: ".toList := by decide +kernel
      have hone : (unreadable file reason).IsOneLine ↔ '\n' ∉ reason ∧ '\n' ∉ file := by
        show ('\n' ∉ file ++ " could not be parsed: ".toList ++ reason ∧ '\n' ∉ file) ↔ _
        rw [List.mem_append, List.mem_append, not_or, not_or]
        tauto
      refine ⟨List.forall_mem_singleton.2 ⟨hwords.1, hwords.2.1⟩, ?_⟩
      rw [foundIn, List.forall_mem_singleton, hone]
      constructor
      · rintro ⟨hreason, hfile⟩
        exact ⟨fun _ h => Except.error.inj h ▸ hreason, fun _ => hfile⟩
      · rintro ⟨hreason, hfile⟩
        exact ⟨hreason reason rfl, hfile (List.cons_ne_nil _ _)⟩
    · exact reports_nil ⟨nofun, fun hne => absurd rfl hne⟩
    · have hwords : ∀ r ∈ requirements, '\n' ∉ r.id ∧ '\n' ∉ r.snippet ∧ '\n' ∉ r.message := by
        decide +kernel
      have hall : Reports (violations file tree) (violations file tree ≠ [] → '\n' ∉ file) := by
        refine reports_of_file ?_ ?_ ?_
        · refine List.forall_mem_map.2 fun r hr => ?_
          obtain ⟨hid, hsnippet, -⟩ := hwords r (List.mem_of_mem_filter hr)
          exact ⟨hid, hsnippet⟩
        · exact List.forall_mem_map.2 fun r hr => (hwords r (List.mem_of_mem_filter hr)).2.2
        · exact List.forall_mem_map.2 fun _ _ => rfl
      exact hall.iff ⟨fun hfile => ⟨nofun, hfile⟩, fun hfile => hfile.2⟩

end Contract

/-! ### Audits -/

namespace Site
open Codemod Report

variable {places : List Path} {findings : List Finding} {notices : List Notice}

/-- Nothing is found in candidates whose names hold a line feed. -/
def CandidatesPlain (root : Path) (files : FileTree) (paths : List Path) : Prop :=
  ∀ path ∈ paths, Legacy.inlineFindings (nameUnder root path) (Lines.ofPath files path) ≠ [] →
    '\n' ∉ nameUnder root path

/-- Nothing is found in runtime files that are known by names with a line feed. -/
def RuntimesPlain (site : Site) (files : FileTree) (places : List Path)
    (loaded : Except Failure (Except Text (Option Config.Tree))) : Prop :=
  ∀ tree, loaded = .ok tree → ¬ RemoteLoader.SaysAllowed tree → ∀ path ∈ places,
    RemoteLoader.RefersToTemplate files (site.seen path) → '\n' ∉ RemoteLoader.label site.root path

/-- Nothing that an audit finds needs a line feed to be told: no place in the configuration is
wrong, and nothing is found in files whose names hold one. -/
structure TellsPlainly (site : Site) (files : FileTree) (paths places : List Path) : Prop where
  contract : Contract.TellsPlainly (files.content? (site.root.joinText site.settings.configFile))
    site.settings.configFile
  candidates : CandidatesPlain site.root files paths
  runtimes : RuntimesPlain site files places
    (Config.loaded (files.content? (site.root.joinText site.settings.configFile)))

/-- The runtime files count unless the configuration allows remote loading. -/
lemma reports_remoteLoader (loaded : Except Failure (Except Text (Option Config.Tree))) :
    Reports
      (findingsOf (loaded.map fun loaded =>
        if RemoteLoader.isAllowedIn loaded then [] else RemoteLoader.foundIn site files roots))
      (RuntimesPlain site files (RemoteLoader.runtimesIn site files roots) loaded) := by
  cases loaded with
  | error e => exact reports_nil nofun
  | ok tree =>
    show Reports (if RemoteLoader.isAllowedIn tree then [] else _) _
    split
    · rename_i hallowed
      refine reports_nil fun _ h hnot => ?_
      cases h
      exact absurd (RemoteLoader.isAllowedIn_iff.1 hallowed) hnot
    · rename_i hnot
      have hall : Reports (RemoteLoader.foundIn site files roots)
          (∀ path ∈ RemoteLoader.runtimesIn site files roots,
            RemoteLoader.RefersToTemplate files (site.seen path) →
              '\n' ∉ RemoteLoader.label site.root path) :=
        Reports.flatMap fun _ _ => RemoteLoader.reports_templatesOn
      refine hall.iff ⟨fun h _ _ _ => h, fun h => h tree rfl ?_⟩
      exact mt RemoteLoader.isAllowedIn_iff.2 hnot

/-- What the findings of each check need to take two lines. -/
def conditions (site : Site) (files : FileTree) (paths places : List Path) : List Prop :=
  let content := files.content? (site.root.joinText site.settings.configFile)
  [True, Contract.TellsPlainly content site.settings.configFile, True,
    CandidatesPlain site.root files paths, RuntimesPlain site files places (Config.loaded content),
    True]

/-- The conditions of the checks together say that nothing needs a line feed. -/
lemma forall_conditions_iff {places : List Path} :
    (∀ condition ∈ site.conditions files paths places, condition) ↔
      site.TellsPlainly files paths places := by
  unfold conditions
  simp only [List.forall_mem_cons, true_and, List.not_mem_nil, false_implies, implies_true,
    and_true]
  exact ⟨fun ⟨hcontract, hcandidates, hruntimes⟩ => ⟨hcontract, hcandidates, hruntimes⟩,
    fun h => ⟨h.contract, h.candidates, h.runtimes⟩⟩

/-- Each check has its condition, in the order in which they are run. -/
lemma reports_all (hbelow : ∀ path ∈ paths, (path.relativeTo? site.root).isSome)
    (hroots : ∀ notices, (runFrom (site.locator.roots Package.distill) notices).1 = .ok roots) :
    List.Forall₂ (fun check condition => ∀ notices,
      Reports (findingsOf (runFrom (check.run site files paths) notices).1) condition)
      Check.all (site.conditions files paths (RemoteLoader.runtimesIn site files roots)) := by
  refine .cons Manifests.reports_check (.cons (fun notices => ?_) (.cons (fun notices => ?_)
    (.cons (fun notices => ?_) (.cons (fun notices => ?_) (.cons (fun notices => ?_) .nil)))))
  · rw [Contract.runFrom_check_content]
    exact Contract.reports_foundIn _ _
  · rw [Legacy.runFrom_assetCheck]
    exact Legacy.reports_assetsIn
  · rw [Legacy.runFrom_patternCheck hbelow]
    exact Reports.flatMap fun _ _ => Legacy.reports_inlineFindings
  · rw [RemoteLoader.runFrom_check_roots hroots]
    exact reports_remoteLoader _
  · rw [Overrides.runFrom_check_content]
    cases Config.loaded (files.content? (site.root.joinText site.settings.configFile)) with
    | error e => exact reports_nil trivial
    | ok loaded => exact Overrides.reports_foundIn loaded

/-- The findings of an audit take two lines each exactly if they can be told so. -/
lemma reports_audit (h : (runFrom (site.audit Check.all files) notices).1 = .ok findings) :
    ∃ paths roots, site.candidatesOf files = .ok paths ∧
      (∀ notices, (runFrom (site.locator.roots Package.distill) notices).1 = .ok roots) ∧
      Reports findings
        (site.TellsPlainly files paths (RemoteLoader.runtimesIn site files roots)) := by
  obtain ⟨roots, hroots⟩ := RemoteLoader.exists_roots site.locator Package.distill
  cases hc : site.candidatesOf files with
  | error e =>
    have hrun := (runFrom_candidates site files notices).trans hc
    unfold audit at h
    rw [runFrom_bind, runFrom_of_fst hrun] at h
    cases h
  | ok paths =>
    obtain ⟨found, rfl, hgives⟩ :=
      gives_of_audit ((runFrom_candidates site files notices).trans hc) h
    have hall : List.Forall₂ (fun condition findings => Reports findings condition) _ found :=
      forall₂_of_gives (reports_all (candidates_below hc) hroots) hgives
    exact ⟨paths, roots, rfl, hroots, (Reports.flatten hall).iff forall_conditions_iff⟩

/-- **The report of an audit has a line of its own for each line feed that a finding tells.** So its
findings take two lines each, and it can be read back line by line, exactly if no place in the
configuration is wrong and nothing is found in files whose names hold a line feed. -/
theorem report_lines_iff (h : (runFrom (site.audit Check.all files) notices).1 = .ok findings) :
    ∃ paths roots places, site.candidatesOf files = .ok paths ∧
      (∀ notices, (runFrom (site.locator.roots Package.distill) notices).1 = .ok roots) ∧
      RemoteLoader.AreRuntimes site files roots places ∧
      (markdown findings).count '\n' = regularLength findings + (findings.map feeds).sum ∧
      ((markdown findings).count '\n' = regularLength findings ↔
        site.TellsPlainly files paths places) ∧
      (Text.splitOn '\n' (markdown findings) = lines findings ++ [[]] ↔
        site.TellsPlainly files paths places) ∧
      ∀ base p p' path, site.settings = .default → site.AtNames base → p.files.WellFormed →
        runFrom (site.writeReport findings) p = (.ok path, p') →
          p'.files.entry? (site.reportPlace base) =
            some (.file (Utf8.encode (markdown findings))) := by
  obtain ⟨paths, roots, hc, hroots, hplain, hone⟩ := reports_audit h
  have hcount := count_markdown hplain
  have hsum : (findings.map feeds).sum = 0 ↔
      site.TellsPlainly files paths (RemoteLoader.runtimesIn site files roots) := by
    rw [List.sum_eq_zero_iff_forall_eq_nat, List.forall_mem_map, ← hone]
    exact forall₂_congr fun f _ => feeds_eq_zero
  refine ⟨paths, roots, _, hc, hroots, RemoteLoader.areRuntimes_runtimesIn site files roots, hcount,
    ?_, ?_, fun base p p' path hdefault hroot hf hwrite => ?_⟩
  · rw [hcount, ← hsum]
    omega
  · rw [← hsum, ← feedsIn_lines hplain]
    exact splitOn_rows
  · exact (reported_of_writeReport hdefault hroot hwrite hf).report

/-- A configuration that ends within a list. -/
def openFiles : FileTree :=
  .ofFiles [(.ofText "/site/_config.yml", Utf8.encode "al_folio: [\n")]

/-- The place that is wrong takes four lines more. -/
theorem report_lines_iff_open :
    ∃ findings,
      (runFrom ((usual (.ofText "/site")).audit Check.all openFiles) []).1 = .ok findings ∧
      (markdown findings).count '\n' = 22 ∧ regularLength findings = 18 ∧
      ∃ paths places, (usual (.ofText "/site")).candidatesOf openFiles = .ok paths ∧
        ¬ (usual (.ofText "/site")).TellsPlainly openFiles paths places := by
  have haudit : (runFrom ((usual (.ofText "/site")).audit Check.all openFiles) []).1.map
      (fun findings => ((markdown findings).count '\n', regularLength findings)) =
        .ok (22, 18) := by
    decide +kernel
  cases hrun : (runFrom ((usual (.ofText "/site")).audit Check.all openFiles) []).1 with
  | error e =>
    rw [hrun] at haudit
    cases haudit
  | ok findings =>
    rw [hrun] at haudit
    obtain ⟨hcount, hregular⟩ := Prod.mk.inj (Except.ok.inj haudit)
    obtain ⟨paths, -, places, hc, -, -, -, hplain, -⟩ := report_lines_iff hrun
    refine ⟨findings, rfl, hcount, hregular, paths, places, hc, fun htells => ?_⟩
    have hequal := hplain.2 htells
    rw [hcount, hregular] at hequal
    cases hequal

end Site

end SiteAudit
