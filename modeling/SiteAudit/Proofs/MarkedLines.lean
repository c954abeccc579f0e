import SiteAudit.Proofs.LineFindings
import SiteAudit.Proofs.Linewise
import SiteAudit.Proofs.Markers
import SiteAudit.Proofs.Preview
import SiteAudit.Proofs.Transform

/-!
# Marked lines

The safe replacements leave the lines of a text where they are, and mark none that was not marked,
unless on some line the name of the library ran into the address of the remote template
(`noneAdded_iff`). After they have been made in a site the same holds of the lines of its
candidate files, and of the findings on them (`applyCodemods_marks`).
-/

namespace SiteAudit

namespace Marker
open Replacement

/-- What is looked for on lines: the markers, and the files one by one. -/
def patterns : List (Text → Bool) :=
  [toggle.occursIn, call.occursIn, remoteTemplate.occursIn] ++ assets.map Text.occursIn

/-- Whatever is found on one of the later lines was found there before. -/
def NoneAdded (lines lines' : List Text) : Prop :=
  ∀ pattern ∈ patterns, ∀ (n : Nat) (line' : Text), lines'[n]? = some line' → pattern line' = true →
    ∃ line, lines[n]? = some line ∧ pattern line = true

/-- On some line without a call the name of the library runs into the address of the remote
template. -/
def RunsIntoCall (lines : List Text) : Prop :=
  ∃ line ∈ lines, Text.occursIn runIn line = true ∧ call.occursIn line = false

/-- The same lines have nothing added. -/
lemma noneAdded_refl (lines : List Text) : NoneAdded lines lines :=
  fun _ _ _ line h hfound => ⟨line, h, hfound⟩

/-- On a single line the safe replacements bring at most a call. -/
lemma pattern_applyAll {pattern : Text → Bool} (hp : pattern ∈ patterns) {line : Text}
    (hcall : Text.occursIn runIn line = true → call.occursIn line = true)
    (h : pattern (applyAll safe line).1 = true) : pattern line = true := by
  have pass : Pass safe none line (applyAll safe line).1 :=
    pass_applyAll safe_compatible.1.proper safe_compatible.1.ordered line
  rcases List.mem_append.1 hp with hp | hp
  · simp only [List.mem_cons, List.not_mem_nil, or_false] at hp
    rcases hp with rfl | rfl | rfl
    · rw [occursIn_toggle pass] at h
      exact h
    · rw [occursIn_call pass, Bool.or_eq_true] at h
      exact h.elim id hcall
    · rw [not_occursIn_template] at h
      cases h
  · obtain ⟨name, hname, rfl⟩ := List.mem_map.1 hp
    rw [occursIn_file pass hname] at h
    exact h

/-- The safe replacements mark no other lines, exactly if on no line without a call the name of the
library ran into the address of the remote template. -/
lemma noneAdded_iff {lines : List Text} :
    NoneAdded lines (lines.map fun line => (applyAll safe line).1) ↔ ¬ RunsIntoCall lines := by
  constructor
  · rintro hnone ⟨line, hmem, hruns, hcall⟩
    obtain ⟨n, hn⟩ := List.mem_iff_getElem?.1 hmem
    have pass : Pass safe none line (applyAll safe line).1 :=
      pass_applyAll safe_compatible.1.proper safe_compatible.1.ordered line
    have hafter : call.occursIn (applyAll safe line).1 = true := by
      rw [occursIn_call pass, hruns, Bool.or_true]
    have hpattern : call.occursIn ∈ patterns :=
      List.mem_append_left _ (List.mem_cons_of_mem _ (List.mem_cons_self ..))
    obtain ⟨line', hline', hfound⟩ :=
      hnone _ hpattern n _ (by rw [List.getElem?_map, hn]; rfl) hafter
    cases hn.symm.trans hline'
    cases hcall.symm.trans hfound
  · intro hseam pattern hp n line' hline' hfound
    rw [List.getElem?_map, Option.map_eq_some_iff] at hline'
    obtain ⟨line, hline, rfl⟩ := hline'
    refine ⟨line, hline, pattern_applyAll hp (fun hruns => ?_) hfound⟩
    by_contra hcall
    exact hseam ⟨line, List.mem_of_getElem? hline, hruns, Bool.not_eq_true _ ▸ hcall⟩

/-- The lines of the text after a transform are those before, each changed by itself. -/
lemma ofText_transform {m : Yaml.Memory} {configFile file content : Text} {o : Codemod.Outcome}
    (hfile : file ≠ configFile) (h : Codemod.transform m configFile file content = .ok o) :
    Lines.ofText o.content = (Lines.ofText content).map fun line => (applyAll safe line).1 := by
  cases (Codemod.transform_eq m hfile content).symm.trans h
  exact linewise_safe.ofText content

end Marker

namespace Codemod
open Marker

variable {m : Yaml.Memory} {root path : Path} {configFile : Text} {files : FileTree}

/-- The lines of a file that is changed, unless it is the configuration. -/
lemma ofPath_rewrittenAll {paths : List Path} (hapart : paths.Pairwise (Apart files))
    (hmem : path ∈ paths) (hbelow : (path.relativeTo? root).isSome)
    (hfile : nameUnder root path ≠ configFile) :
    Lines.ofPath (rewrittenAll m root configFile files paths) path =
      match textAt? files path with
      | some content =>
        (Lines.ofText content).map fun line => (Replacement.applyAll Replacement.safe line).1
      | none => Lines.ofPath files path := by
  have hread := read_rewrittenAll m root configFile hapart hmem
  cases htext : textAt? files path with
  | none =>
    have hnone : rewriteOf? m root configFile files path = none := by
      simp [rewriteOf?, htext]
    rw [hnone] at hread
    exact Lines.ofPath_congr hread
  | some content =>
    have htransform := transform_eq m hfile content
    dsimp only
    rw [← ofText_transform hfile htransform]
    dsimp only
    by_cases hsame : (Replacement.applyAll Replacement.safe content).1 = content
    · have hnone : rewriteOf? m root configFile files path = none := by
        simp [rewriteOf?, htext, htransform, hsame]
      rw [hnone] at hread
      rw [Lines.ofPath_congr hread, Lines.ofPath_of_text htext, hsame]
    · have hsome := rewriteOf?_eq_some.2 ⟨hbelow, content, htext, htransform, hsame⟩
      rw [hsome] at hread
      exact Lines.ofPath_of_text (textAt?_eq_some.2 ⟨_, hread, Utf8.decode_encode _⟩)

/-- In a file that is changed no lines are marked beside those that were marked, exactly if the name
of the library did not run into the address of the remote template there. -/
lemma noneAdded_rewrittenAll {paths : List Path} (hapart : paths.Pairwise (Apart files))
    (hmem : path ∈ paths) (hbelow : (path.relativeTo? root).isSome)
    (hfile : nameUnder root path ≠ configFile) :
    NoneAdded (Lines.ofPath files path)
        (Lines.ofPath (rewrittenAll m root configFile files paths) path) ↔
      ∀ content, textAt? files path = some content → ¬ RunsIntoCall (Lines.ofText content) := by
  rw [ofPath_rewrittenAll hapart hmem hbelow hfile]
  cases htext : textAt? files path with
  | none => exact iff_of_true (noneAdded_refl _) fun _ h => by cases h
  | some content =>
    dsimp only
    rw [Lines.ofPath_of_text htext, noneAdded_iff]
    constructor
    · rintro hseam content' h
      cases h
      exact hseam
    · intro hall
      exact hall content rfl

end Codemod

/-! ### Findings -/

/-- Each of the later findings was there before, at the same line of the same file. -/
def NoneNew (findings findings' : List Finding) : Prop :=
  ∀ finding' ∈ findings', ∃ finding ∈ findings,
    finding.id = finding'.id ∧ finding.file = finding'.file ∧ finding.line = finding'.line

namespace Marker

variable {lines lines' : List Text}

/-- A line that is marked was marked before. -/
lemma NoneAdded.numbered (h : NoneAdded lines lines') {pattern : Text → Bool}
    (hp : pattern ∈ patterns) {line' : Nat × Text} (hmem : line' ∈ Lines.numbered lines')
    (hfound : pattern line'.2 = true) :
    ∃ line ∈ Lines.numbered lines, line.1 = line'.1 ∧ pattern line.2 = true := by
  obtain ⟨i, hi, hline'⟩ := Lines.mem_numbered.1 hmem
  obtain ⟨line, hline, hbefore⟩ := h pattern hp i line'.2 hline' hfound
  exact ⟨(line'.1, line), Lines.mem_numbered.2 ⟨i, hi, hline⟩, rfl, hbefore⟩

/-- Attributes are looked for on lines. -/
lemma toggle_mem : toggle.occursIn ∈ patterns := List.mem_append_left _ (List.mem_cons_self ..)

/-- So are calls. -/
lemma call_mem : call.occursIn ∈ patterns :=
  List.mem_append_left _ (List.mem_cons_of_mem _ (List.mem_cons_self ..))

/-- So is the remote template. -/
lemma remoteTemplate_mem : remoteTemplate.occursIn ∈ patterns :=
  List.mem_append_left _ (List.mem_cons_of_mem _ (List.mem_cons_of_mem _ (List.mem_cons_self ..)))

/-- Where nothing is added, no finding about a marker is new. -/
lemma NoneAdded.inlineFindings (h : NoneAdded lines lines') (file : Text) :
    NoneNew (Legacy.inlineFindings file lines) (Legacy.inlineFindings file lines') := by
  intro finding' hmem
  obtain ⟨line', hline', hmem⟩ := List.mem_flatMap.1 hmem
  obtain ⟨m, hm, rfl⟩ := List.mem_map.1 hmem
  obtain ⟨hmarker, hfound⟩ := List.mem_filter.1 hm
  have hp : m.marker.occursIn ∈ patterns := by
    simp only [Legacy.inlineMarkers, List.mem_cons, List.not_mem_nil, or_false] at hmarker
    rcases hmarker with rfl | rfl
    · exact toggle_mem
    · exact call_mem
  obtain ⟨line, hline, hnumber, hbefore⟩ := h.numbered hp hline' hfound
  refine ⟨_, List.mem_flatMap.2 ⟨line, hline, List.mem_map.2
    ⟨m, List.mem_filter.2 ⟨hmarker, hbefore⟩, rfl⟩⟩, rfl, rfl, ?_⟩
  exact congrArg Nat.cast hnumber

/-- Neither is one about a file of a library. -/
lemma NoneAdded.assetsOn (h : NoneAdded lines lines') (file : Text) :
    NoneNew (Legacy.assetsOn file lines) (Legacy.assetsOn file lines') := by
  intro finding' hmem
  obtain ⟨line', hline', rfl⟩ := List.mem_map.1 hmem
  obtain ⟨hline', hfound⟩ := List.mem_filter.1 hline'
  obtain ⟨name, hname, hfound⟩ := List.any_eq_true.1 hfound
  have hp : Text.occursIn name ∈ patterns :=
    List.mem_append_right _ (List.mem_map.2 ⟨name, hname, rfl⟩)
  obtain ⟨line, hline, hnumber, hbefore⟩ := h.numbered hp hline' hfound
  have hmarked : asset.occursIn line.2 = true := List.any_eq_true.2 ⟨name, hname, hbefore⟩
  refine ⟨_, List.mem_map.2 ⟨line, List.mem_filter.2 ⟨hline, hmarked⟩, rfl⟩, rfl, rfl, ?_⟩
  exact congrArg Nat.cast hnumber

/-- Nor is one about the remote template. -/
lemma NoneAdded.templatesOn (h : NoneAdded lines lines') (file : Text) :
    NoneNew (RemoteLoader.templatesOn file lines) (RemoteLoader.templatesOn file lines') := by
  intro finding' hmem
  obtain ⟨line', hline', rfl⟩ := List.mem_map.1 hmem
  obtain ⟨hline', hfound⟩ := List.mem_filter.1 hline'
  obtain ⟨line, hline, hnumber, hbefore⟩ := h.numbered remoteTemplate_mem hline' hfound
  refine ⟨_, List.mem_map.2 ⟨line, List.mem_filter.2 ⟨hline, hbefore⟩, rfl⟩, rfl, rfl, ?_⟩
  exact congrArg Nat.cast hnumber

end Marker

/-! ### Sites -/

namespace Site
open Codemod Marker

/-- What is found in a file, if it can be looked at. -/
def foundBy (s : Survey (List Finding)) : List Finding := findingsOf (runFrom s []).1

/-- No finding on the lines of a file is new. -/
structure NoneNewIn (root path : Path) (files files' : FileTree) : Prop where
  inline : NoneNew (foundBy (Legacy.fileFindings files root path))
    (foundBy (Legacy.fileFindings files' root path))
  assets : ∀ file, root.joinText file = path →
    NoneNew (foundBy (Legacy.assetFindings files root file))
      (foundBy (Legacy.assetFindings files' root file))
  templates : NoneNew (foundBy (RemoteLoader.fileFindings files root path))
    (foundBy (RemoteLoader.fileFindings files' root path))

/-- So nothing is new in a file on whose lines nothing is added. -/
lemma noneNewIn_of_noneAdded {root path : Path} {files files' : FileTree}
    (hbelow : (path.relativeTo? root).isSome)
    (h : NoneAdded (Lines.ofPath files path) (Lines.ofPath files' path)) :
    NoneNewIn root path files files' := by
  obtain ⟨names, hnames⟩ := Option.isSome_iff_exists.1 hbelow
  refine ⟨?_, fun file hfile => ?_, ?_⟩
  · unfold foundBy
    rw [Legacy.runFrom_fileFindings hnames, Legacy.runFrom_fileFindings hnames]
    exact h.inlineFindings _
  · unfold foundBy
    rw [Legacy.runFrom_assetFindings, Legacy.runFrom_assetFindings, hfile]
    exact h.assetsOn file
  · unfold foundBy
    rw [RemoteLoader.runFrom_runtimeFindings, RemoteLoader.runFrom_runtimeFindings]
    exact h.templatesOn _

/-- **The safe replacements mark no line that was not marked, exactly if the name of the library did
not run into the address of the remote template on a line without a call.** This holds of the text
of a file that is transformed, and of each candidate file of a site that is changed, if it is not
the configuration; and no finding on the lines of such a file is new then. -/
theorem applyCodemods_marks (site : Site) :
    (∀ file content, file ≠ site.settings.configFile →
      ∃ o, transform site.memory site.settings.configFile file content = .ok o ∧
        (Lines.ofText o.content).length = (Lines.ofText content).length ∧
        (NoneAdded (Lines.ofText content) (Lines.ofText o.content) ↔
          ¬ RunsIntoCall (Lines.ofText content))) ∧
    ∀ p p' applied, runFrom (site.applyCodemods true false) p = (.ok applied, p') →
      ∃ paths, (runFrom (site.candidates p.files) p.notices).1 = .ok paths ∧
        ∀ path ∈ paths, nameUnder site.root path ≠ site.settings.configFile →
          (NoneAdded (Lines.ofPath p.files path) (Lines.ofPath p'.files path) ↔
            ∀ content, textAt? p.files path = some content →
              ¬ RunsIntoCall (Lines.ofText content)) ∧
          ((∀ content, textAt? p.files path = some content →
              ¬ RunsIntoCall (Lines.ofText content)) →
            NoneNewIn site.root path p.files p'.files) := by
  constructor
  · intro file content hfile
    have h := transform_eq site.memory hfile content
    refine ⟨_, h, ?_, ?_⟩
    · rw [ofText_transform hfile h, List.length_map]
    · rw [ofText_transform hfile h]
      exact noneAdded_iff
  · intro p p' applied h
    obtain ⟨after, hrun, hfiles⟩ := runFrom_realRun site p
    obtain ⟨hok, rfl⟩ := Prod.ext_iff.1 (hrun.symm.trans h)
    obtain ⟨paths, _, hc, -, -⟩ := preview_eq_ok.1 hok
    refine ⟨paths, (runFrom_candidates site p.files p.notices).trans hc, ?_⟩
    intro path hpath hfile
    have hbelow := candidates_below hc path hpath
    have hiff := noneAdded_rewrittenAll (m := site.memory) (candidates_apart hc) hpath hbelow hfile
    rw [← hfiles paths _ hc hok] at hiff
    exact ⟨hiff, fun hseam => noneNewIn_of_noneAdded hbelow (hiff.2 hseam)⟩

/-- A line without a call. -/
def silent : Text := runIn

/-- The same line after the safe replacements, with a call. -/
def calling : Text := "jQuery/assets/js/distillpub/template.v2.js"

/-- A file of a site with that line. -/
def silentFiles : FileTree := .ofFiles [(.ofText "/site/_includes/a.html", Utf8.encode silent)]

/-- The text has such a line. -/
lemma runsIntoCall_silent : RunsIntoCall (Lines.ofText silent) := by
  have hlines : Lines.ofText silent = [silent] := by decide +kernel
  rw [hlines]
  exact ⟨silent, List.mem_singleton_self _, by decide +kernel, by decide +kernel⟩

/-- There the safe replacements bring a call. -/
theorem applyCodemods_marks_silent :
    ("_includes/a.html".toList ≠ (usual (.ofText "/site")).settings.configFile ∧
      transform .inOrder (usual (.ofText "/site")).settings.configFile "_includes/a.html" silent =
        .ok ⟨calling, ["distill_local_template"], false⟩ ∧
      ¬ NoneAdded (Lines.ofText silent) (Lines.ofText calling)) ∧
    ∃ applied p', runFrom ((usual (.ofText "/site")).applyCodemods true false) ⟨silentFiles, []⟩ =
        (.ok applied, p') ∧
      (runFrom ((usual (.ofText "/site")).candidates silentFiles) []).1 =
        .ok [.ofText "/site/_includes/a.html"] ∧
      ¬ NoneAdded (Lines.ofPath silentFiles (.ofText "/site/_includes/a.html"))
        (Lines.ofPath p'.files (.ofText "/site/_includes/a.html")) := by
  have hfile : "_includes/a.html".toList ≠ (usual (.ofText "/site")).settings.configFile := by
    decide
  have htransform : transform .inOrder (usual (.ofText "/site")).settings.configFile
      "_includes/a.html" silent = .ok ⟨calling, ["distill_local_template"], false⟩ := by
    decide +kernel
  have hrun : (runFrom ((usual (.ofText "/site")).applyCodemods true false) ⟨silentFiles, []⟩).1 =
      .ok ⟨[⟨"_includes/a.html", ["distill_local_template"]⟩], []⟩ := by decide +kernel
  have hpaths : (runFrom ((usual (.ofText "/site")).candidates silentFiles) []).1 =
      .ok [.ofText "/site/_includes/a.html"] := by decide +kernel
  have hname : nameUnder (usual (.ofText "/site")).root (.ofText "/site/_includes/a.html") ≠
      (usual (.ofText "/site")).settings.configFile := by decide +kernel
  have htext : textAt? silentFiles (.ofText "/site/_includes/a.html") = some silent := by
    decide +kernel
  obtain ⟨hpure, hsite⟩ := applyCodemods_marks (usual (.ofText "/site"))
  obtain ⟨o, ho, -, hiff⟩ := hpure _ silent hfile
  cases htransform.symm.trans ho
  obtain ⟨paths, hc, hall⟩ := hsite _ _ _ (runFrom_of_fst hrun)
  cases hpaths.symm.trans hc
  obtain ⟨hpath, -⟩ := hall _ (List.mem_singleton_self _) hname
  exact ⟨⟨hfile, htransform, fun h => hiff.1 h runsIntoCall_silent⟩, _, _, runFrom_of_fst hrun,
    hpaths, fun h => hpath.1 h silent htext runsIntoCall_silent⟩

end Site

end SiteAudit
