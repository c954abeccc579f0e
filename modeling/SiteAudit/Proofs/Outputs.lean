import Mathlib.Data.List.Basic
import SiteAudit.Report
import SiteAudit.Result

/-!
# What is told of findings

Results, reports, the line of the summary and exit codes are made of the same findings, each in its
own way. The findings are split into those that stand in the way and the warnings
(`Finding.Splits`), and everything that is told is told of these two lists (`Result.outputs_tell`):
their lengths are the counts, their findings are the sections, and the gates are shut where the
first of them has a finding. The text of a report is theirs to the last character
(`Report.markdown_of_splits`).
-/

namespace SiteAudit

namespace Finding

variable {f : Finding} {findings blocking warnings : List Finding}

/-! ### Splitting findings -/

/-- The findings are those that stand in the way and the warnings, each of both in their order. -/
inductive Splits : List Finding → List Finding → List Finding → Prop
  | nil : Splits [] [] []
  | blocking {f : Finding} {findings blocking warnings : List Finding}
      (hseverity : f.severity = .blocking) (rest : Splits findings blocking warnings) :
      Splits (f :: findings) (f :: blocking) warnings
  | warning {f : Finding} {findings blocking warnings : List Finding}
      (hseverity : f.severity = .warning) (rest : Splits findings blocking warnings) :
      Splits (f :: findings) blocking (f :: warnings)

/-- Each finding is on one side only. -/
lemma Splits.length_add (h : Splits findings blocking warnings) :
    blocking.length + warnings.length = findings.length := by
  induction h with
  | nil => rfl
  | blocking _ _ ih => rw [List.length_cons, List.length_cons, Nat.add_right_comm, ih]
  | warning _ _ ih => rw [List.length_cons, List.length_cons, ← Nat.add_assoc, ih]

/-- There is only one way of splitting findings: by their severities. -/
lemma Splits.ofSeverity (h : Splits findings blocking warnings) :
    ofSeverity .blocking findings = blocking ∧ ofSeverity .warning findings = warnings := by
  induction h with
  | nil => exact ⟨rfl, rfl⟩
  | blocking hseverity _ ih =>
    obtain ⟨hblocking, hwarnings⟩ := ih
    unfold Finding.ofSeverity at hblocking hwarnings ⊢
    rw [List.filter_cons_of_pos (by rw [hseverity]; rfl), hblocking,
      List.filter_cons_of_neg (by rw [hseverity]; decide), hwarnings]
    exact ⟨rfl, rfl⟩
  | warning hseverity _ ih =>
    obtain ⟨hblocking, hwarnings⟩ := ih
    unfold Finding.ofSeverity at hblocking hwarnings ⊢
    rw [List.filter_cons_of_neg (by rw [hseverity]; decide), hblocking,
      List.filter_cons_of_pos (by rw [hseverity]; rfl), hwarnings]
    exact ⟨rfl, rfl⟩

/-- All findings can be split. -/
lemma exists_splits (findings : List Finding) :
    ∃ blocking warnings, Splits findings blocking warnings := by
  induction findings with
  | nil => exact ⟨[], [], .nil⟩
  | cons f findings ih =>
    obtain ⟨blocking, warnings, hrest⟩ := ih
    cases hseverity : f.severity with
    | blocking => exact ⟨f :: blocking, warnings, .blocking hseverity hrest⟩
    | warning => exact ⟨blocking, f :: warnings, .warning hseverity hrest⟩

/-- A finding stands in the way where there is one on that side. -/
lemma Splits.anyBlocking (h : Splits findings blocking warnings) :
    anyBlocking findings = true ↔ blocking ≠ [] := by
  unfold Finding.anyBlocking isBlocking
  induction h with
  | nil => exact iff_of_false Bool.false_ne_true fun hne => hne rfl
  | blocking hseverity _ _ =>
    rw [List.any_cons, hseverity]
    exact iff_of_true rfl (List.cons_ne_nil _ _)
  | warning hseverity _ ih =>
    rw [List.any_cons, hseverity]
    exact ih

/-! ### Findings in JSON -/

/-- The severity of the given name. -/
def severity? (name : Text) : Option Severity :=
  [Severity.blocking, Severity.warning].find? fun severity => severity.name == name

/-- The finding that is written as a JSON object. -/
def ofJson? (value : Json) : Option Finding :=
  match value.get? "id", value.get? "severity", value.get? "message", value.get? "file",
    value.get? "line", value.get? "snippet" with
  | some (.text id), some (.text name), some (.text message), some (.text file), some (.int line),
    some (.text snippet) =>
    (severity? name).map fun severity => ⟨id, severity, message, file, line, snippet⟩
  | _, _, _, _, _, _ => none

/-- Nothing of a finding is lost in JSON. -/
lemma ofJson?_toJson (f : Finding) : ofJson? f.toJson = some f := by
  obtain ⟨id, severity, message, file, line, snippet⟩ := f
  cases severity with
  | blocking => rfl
  | warning => rfl

/-- Findings are read back from their JSON values. -/
lemma mapM_ofJson?_toJson (findings : List Finding) :
    (findings.map toJson).mapM ofJson? = some findings := by
  induction findings with
  | nil => rfl
  | cons f findings ih =>
    rw [List.map_cons, List.mapM_cons, ofJson?_toJson, ih]
    rfl

end Finding

/-! ### Sections of reports -/

namespace Report

variable {findings blocking warnings : List Finding} {heading other : Text}
  {before body after : List Text}

/-- The lines of the section with the given heading: what follows the empty line after it, up to the
next empty line. -/
def sectionBelow (heading : Text) (lines : List Text) : List Text :=
  ((lines.dropWhile (· != heading)).drop 2).takeWhile fun line => !line.isEmpty

/-- A section is not looked for before its heading. -/
lemma sectionBelow_append (h : heading ∉ before) :
    sectionBelow heading (before ++ after) = sectionBelow heading after := by
  unfold sectionBelow
  rw [List.dropWhile_append_of_pos]
  intro line hline
  rw [bne_iff_ne]
  rintro rfl
  exact h hline

/-- It ends where an empty line follows. -/
lemma sectionBelow_self (hbody : ∀ line ∈ body, line ≠ [])
    (hafter : ∀ line ∈ after.head?, line = []) :
    sectionBelow heading (heading :: [] :: (body ++ after)) = body := by
  have hstop : after.takeWhile (fun line : Text => !line.isEmpty) = [] := by
    cases after with
    | nil => rfl
    | cons line after =>
      rw [hafter line rfl]
      rfl
  unfold sectionBelow
  rw [List.dropWhile_cons_of_neg (by simp), List.drop_succ_cons, List.drop_succ_cons,
    List.drop_zero, List.takeWhile_append_of_pos, hstop, List.append_nil]
  intro line hline
  rw [Bool.not_eq_true', List.isEmpty_eq_false_iff]
  exact hbody line hline

/-- A section with another heading is passed over. -/
lemma sectionBelow_of_ne (hother : heading ≠ other) (hempty : heading ≠ [])
    (hbody : heading ∉ body) :
    sectionBelow heading (other :: [] :: (body ++ [] :: after)) = sectionBelow heading after := by
  have hlines : other :: [] :: (body ++ [] :: after) =
      (other :: [] :: (body ++ [[]])) ++ after := by
    simp
  rw [hlines]
  refine sectionBelow_append ?_
  simp [hother, hempty, hbody]

/-! ### Findings in reports -/

/-- A line about findings is a bullet or stands under one. -/
lemma head?_of_mem_sectionLines {line : Text} (h : line ∈ sectionLines findings) :
    line.head? = some '-' ∨ line.head? = some ' ' := by
  unfold sectionLines at h
  split at h
  · rw [List.mem_singleton.1 h]
    exact .inl rfl
  · obtain ⟨f, -, hline⟩ := List.mem_flatMap.1 h
    rcases List.mem_cons.1 hline with rfl | hline
    · exact .inl rfl
    · rw [List.mem_singleton.1 hline]
      exact .inr rfl

/-- No line of a section is empty. -/
lemma ne_nil_of_mem_sectionLines : ∀ line ∈ sectionLines findings, line ≠ [] := by
  rintro line h rfl
  rcases head?_of_mem_sectionLines h with h | h
  · cases h
  · cases h

/-- It is no heading. -/
lemma not_mem_sectionLines (h : heading.head? = some '#') : heading ∉ sectionLines findings := by
  intro hmem
  rcases head?_of_mem_sectionLines hmem with h' | h'
  · cases h.symm.trans h'
  · cases h.symm.trans h'

/-- The lines of a section, written out. -/
lemma sectionLines_eq (findings : List Finding) :
    sectionLines findings =
      if findings = [] then ["- None".toList]
      else findings.flatMap fun f =>
        ["- [" ++ f.id ++ "] " ++ f.message
            ++ " (`" ++ f.file ++ [':'] ++ Text.ofInt f.line ++ "`)",
          "  - Snippet: `" ++ f.snippet ++ "`"] := by
  cases findings with
  | nil => rfl
  | cons f findings =>
    rw [if_neg (List.cons_ne_nil f findings)]
    refine List.flatMap_congr fun f _ => ?_
    simp only [findingLines, Finding.location, List.append_assoc]

/-- There are findings in a section unless its only line says that there are none. -/
lemma sectionLines_eq_none_iff : sectionLines findings = ["- None"] ↔ findings = [] := by
  refine ⟨fun h => ?_, fun h => by rw [h]; rfl⟩
  cases findings with
  | nil => rfl
  | cons f findings =>
    -- a finding takes two lines
    have hlength := congrArg List.length h
    simp [sectionLines, findingLines] at hlength

/-- The lines before the first section. -/
def opening : List Text :=
  ["# al-folio upgrade report", [], "Generated by `al-folio-upgrade upgrade report`.", []]

/-- The lines about the counts. -/
def countLines (blocking warnings : List Finding) : List Text :=
  ["- Blocking findings: " ++ Text.ofNat blocking.length,
    "- Non-blocking findings: " ++ Text.ofNat warnings.length]

/-- No heading is one of the lines with numbers. -/
lemma not_mem_countLines (h : heading.head? = some '#') :
    heading ∉ countLines blocking warnings := by
  rintro hmem
  simp only [countLines, List.mem_cons, List.not_mem_nil, or_false] at hmem
  rcases hmem with rfl | rfl
  · cases h
  · cases h

/-- A report has three sections: the counts, the findings that stand in the way, and the
warnings. -/
lemma lines_of_splits (h : Finding.Splits findings blocking warnings) :
    lines findings = opening ++ "## Summary".toList :: [] :: (countLines blocking warnings
      ++ [] :: "## Blocking".toList :: [] :: (sectionLines blocking
        ++ [] :: "## Non-blocking".toList :: [] :: (sectionLines warnings ++ []))) := by
  obtain ⟨hblocking, hwarnings⟩ := h.ofSeverity
  unfold lines
  rw [hblocking, hwarnings]
  simp [headLines, opening, countLines]

/-- What the text of a report has below one of the two headings: two lines for each finding. -/
def sectionText (findings : List Finding) : Text :=
  if findings = [] then "- None\n"
  else findings.flatMap fun f =>
    "- [" ++ f.id ++ "] " ++ f.message ++ " (`" ++ f.file ++ [':'] ++ Text.ofInt f.line ++ "`)\n"
      ++ "  - Snippet: `" ++ f.snippet ++ "`\n"

/-- The lines of a section with their ends. -/
lemma flatMap_sectionLines (findings : List Finding) :
    (sectionLines findings).flatMap (· ++ ['\n']) = sectionText findings := by
  rw [sectionLines_eq]
  unfold sectionText
  split
  · rfl
  · rw [List.flatMap_assoc]
    refine List.flatMap_congr fun f _ => ?_
    have hlocation : ("`)\n" : Text) = "`)".toList ++ ['\n'] := rfl
    have hsnippet : ("`\n" : Text) = "`".toList ++ ['\n'] := rfl
    rw [hlocation, hsnippet]
    simp only [List.flatMap_cons, List.flatMap_nil, List.append_assoc, List.append_nil]

/-- The text of a report. -/
lemma markdown_of_splits (h : Finding.Splits findings blocking warnings) :
    markdown findings =
      "# al-folio upgrade report\n\nGenerated by `al-folio-upgrade upgrade report`.\n\n".toList
        ++ "## Summary\n\n- Blocking findings: " ++ Text.ofNat blocking.length
        ++ "\n- Non-blocking findings: " ++ Text.ofNat warnings.length
        ++ "\n\n## Blocking\n\n" ++ sectionText blocking
        ++ "\n## Non-blocking\n\n" ++ sectionText warnings := by
  -- the words between the parts that depend on findings, cut at the ends of lines
  have hopening : opening.flatMap (· ++ ['\n']) =
      "# al-folio upgrade report\n\nGenerated by `al-folio-upgrade upgrade report`.\n\n".toList :=
    rfl
  have hcounts : (countLines blocking warnings).flatMap (· ++ ['\n']) =
      "- Blocking findings: " ++ Text.ofNat blocking.length
        ++ ("\n- Non-blocking findings: " ++ Text.ofNat warnings.length ++ ['\n']) := by
    have hline : ("\n- Non-blocking findings: " : Text) =
        ['\n'] ++ "- Non-blocking findings: " := rfl
    rw [hline]
    simp only [countLines, List.flatMap_cons, List.flatMap_nil, List.append_assoc, List.append_nil]
  have hsummary : ("## Summary\n\n- Blocking findings: " : Text) =
      "## Summary" ++ ['\n', '\n'] ++ "- Blocking findings: " := rfl
  have hblocking : ("\n\n## Blocking\n\n" : Text) =
      ['\n', '\n'] ++ "## Blocking" ++ ['\n', '\n'] := rfl
  have hwarnings : ("\n## Non-blocking\n\n" : Text) =
      ['\n'] ++ "## Non-blocking" ++ ['\n', '\n'] := rfl
  unfold markdown
  rw [lines_of_splits h, hsummary, hblocking, hwarnings]
  simp only [List.flatMap_append, List.flatMap_cons, hopening, hcounts,
    flatMap_sectionLines, List.append_assoc, List.append_nil, List.nil_append, List.cons_append]

/-- Each of the sections can be read off a report. -/
lemma sections_of_splits (h : Finding.Splits findings blocking warnings) :
    sectionBelow "## Summary" (lines findings) = countLines blocking warnings ∧
      sectionBelow "## Blocking" (lines findings) = sectionLines blocking ∧
      sectionBelow "## Non-blocking" (lines findings) = sectionLines warnings := by
  rw [lines_of_splits h]
  refine ⟨?_, ?_, ?_⟩
  · rw [sectionBelow_append (by decide)]
    exact sectionBelow_self (by simp [countLines]) (by simp)
  · rw [sectionBelow_append (by decide)]
    refine (sectionBelow_of_ne (by decide) (by decide) (not_mem_countLines rfl)).trans ?_
    exact sectionBelow_self ne_nil_of_mem_sectionLines (by simp)
  · rw [sectionBelow_append (by decide)]
    refine (sectionBelow_of_ne (by decide) (by decide) (not_mem_countLines rfl)).trans ?_
    refine (sectionBelow_of_ne (by decide) (by decide) (not_mem_sectionLines rfl)).trans ?_
    exact sectionBelow_self ne_nil_of_mem_sectionLines (by simp)

end Report

/-! ### Results -/

namespace Result
open Finding

/-- The value that the keys lead to in a JSON object, one inside the other. -/
def entryAt? (value : Json) (keys : List Text) : Option Json := keys.foldlM Json.get? value

/-- What is told of a result with the given findings that stand in the way and the given
warnings. -/
structure Tells (r : Result) (blocking warnings : List Finding) : Prop where
  /-- Its own lists are these. -/
  lists : r.blocking = blocking ∧ r.warnings = warnings
  /-- The report is made of its lines. -/
  report : Report.markdown r.findings = (Report.lines r.findings).flatMap (· ++ ['\n'])
  /-- They are counted in JSON, in the report and in the line of the summary. -/
  jsonCounts : entryAt? r.toJson ["summary", "blocking"] = some (.int blocking.length) ∧
    entryAt? r.toJson ["summary", "non_blocking"] = some (.int warnings.length)
  reportCounts : Report.sectionBelow "## Summary" (Report.lines r.findings) =
    ["- Blocking findings: " ++ Text.ofNat blocking.length,
      "- Non-blocking findings: " ++ Text.ofNat warnings.length]
  lineCounts : Report.summary r.findings =
    "Upgrade audit complete. Blocking: " ++ Text.ofNat blocking.length ++ ", Non-blocking: "
      ++ Text.ofNat warnings.length ++ ['.']
  /-- The sections of the report list them. -/
  blockingSection : Report.sectionBelow "## Blocking" (Report.lines r.findings) =
    if blocking = [] then ["- None".toList]
    else blocking.flatMap fun f =>
      ["- [" ++ f.id ++ "] " ++ f.message ++ " (`" ++ f.file ++ [':'] ++ Text.ofInt f.line ++ "`)",
        "  - Snippet: `" ++ f.snippet ++ "`"]
  warningSection : Report.sectionBelow "## Non-blocking" (Report.lines r.findings) =
    if warnings = [] then ["- None".toList]
    else warnings.flatMap fun f =>
      ["- [" ++ f.id ++ "] " ++ f.message ++ " (`" ++ f.file ++ [':'] ++ Text.ofInt f.line ++ "`)",
        "  - Snippet: `" ++ f.snippet ++ "`"]
  /-- The text of the report, from its first character to the last one. -/
  text : Report.markdown r.findings =
    "# al-folio upgrade report\n\nGenerated by `al-folio-upgrade upgrade report`.\n\n".toList
      ++ "## Summary\n\n- Blocking findings: " ++ Text.ofNat blocking.length
      ++ "\n- Non-blocking findings: " ++ Text.ofNat warnings.length
      ++ "\n\n## Blocking\n\n" ++ Report.sectionText blocking
      ++ "\n## Non-blocking\n\n" ++ Report.sectionText warnings
  /-- Whatever can stand in the way does if one of the findings does. -/
  findingsGate : anyBlocking r.findings = true ↔ blocking ≠ []
  resultGate : r.hasBlocking = true ↔ blocking ≠ []
  jsonGate : entryAt? r.toJson ["summary", "has_blocking"] = some (.bool true) ↔ blocking ≠ []
  reportGate : Report.sectionBelow "## Blocking" (Report.lines r.findings) ≠ ["- None"] ↔
    blocking ≠ []
  exitGate : ∀ failOnBlocking, r.exitCode failOnBlocking =
    if r.command = "audit" ∧ failOnBlocking = true ∧ blocking ≠ [] then .violation else .success
  /-- The findings in JSON are all of them. -/
  jsonFindings : ∃ items, entryAt? r.toJson ["findings"] = some (.array items) ∧
    items.mapM ofJson? = some r.findings

variable {r : Result} {blocking warnings : List Finding}

/-- The gates of a result are shut by its findings that stand in the way. -/
lemma hasBlocking_iff (h : Splits r.findings blocking warnings) :
    r.hasBlocking = true ↔ blocking ≠ [] := h.anyBlocking

/-- The exit code tells whether an audit that may fail has a blocking finding. -/
lemma exitCode_of_splits (h : Splits r.findings blocking warnings) (failOnBlocking : Bool) :
    r.exitCode failOnBlocking =
      if r.command = "audit" ∧ failOnBlocking = true ∧ blocking ≠ [] then .violation
      else .success := by
  unfold exitCode
  refine if_congr ?_ rfl rfl
  rw [Bool.and_eq_true, Bool.and_eq_true, beq_iff_eq, hasBlocking_iff h, and_assoc]

/-- **Whatever is told of findings is the same.** The findings of a result are split into those that
stand in the way and the warnings, none of them lost and each of both in their order, and results,
JSON, reports, the line of the summary and exit codes tell of these two lists. -/
theorem outputs_tell (r : Result) : ∃ blocking warnings, Splits r.findings blocking warnings ∧
    blocking.length + warnings.length = r.findings.length ∧ r.Tells blocking warnings := by
  obtain ⟨blocking, warnings, h⟩ := exists_splits r.findings
  obtain ⟨hblocking, hwarnings⟩ := h.ofSeverity
  obtain ⟨hsummary, hstop, hgo⟩ := Report.sections_of_splits h
  have hjson : entryAt? r.toJson ["summary", "has_blocking"] = some (.bool r.hasBlocking) := rfl
  refine ⟨blocking, warnings, h, h.length_add, ?_⟩
  exact {
    lists := ⟨hblocking, hwarnings⟩
    report := rfl
    jsonCounts := by rw [← hblocking, ← hwarnings]; exact ⟨rfl, rfl⟩
    reportCounts := hsummary
    lineCounts := by rw [← hblocking, ← hwarnings]; rfl
    blockingSection := hstop.trans (Report.sectionLines_eq blocking)
    warningSection := hgo.trans (Report.sectionLines_eq warnings)
    text := Report.markdown_of_splits h
    findingsGate := h.anyBlocking
    resultGate := hasBlocking_iff h
    jsonGate := by rw [hjson, Option.some.injEq, Json.bool.injEq, hasBlocking_iff h]
    reportGate := by rw [hstop, Ne, Report.sectionLines_eq_none_iff]
    exitGate := exitCode_of_splits h
    jsonFindings := ⟨_, rfl, mapM_ofJson?_toJson r.findings⟩ }

end Result

end SiteAudit
