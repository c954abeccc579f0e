import SiteAudit.Proofs.Audit
import SiteAudit.Proofs.Preview
import SiteAudit.Proofs.Transform

/-!
# The second pass

After the safe replacements have been made in a whole site, making them again changes nothing,
unless in some candidate file a class name ran into the address of the remote template
(`applyCodemods_again_iff`). A second pass changes nothing if what it would find is settled
(`applyCodemods_settled_iff`), and what a first pass leaves is settled but for such files
(`settled_iff_of_treated`).
-/

namespace SiteAudit.Codemod
open Replacement

variable {m m' : Yaml.Memory} {root path : Path} {configFile : Text} {files files' : FileTree}
  {outcome : FileOutcome}

/-- The file at a path has no text, or a transform leaves it as it is. -/
def Settled (m : Yaml.Memory) (root : Path) (configFile : Text) (files : FileTree)
    (path : Path) : Prop :=
  ∃ names, path.relativeTo? root = some names ∧
    ∀ content, textAt? files path = some content →
      ∃ o, transform m configFile (Path.text ⟨[], names⟩) content = .ok o ∧ o.content = content

/-- A file is settled exactly if it can be changed and is not rewritten. -/
lemma settled_iff : Settled m root configFile files path ↔
    (∃ outcome, outcomeOf m root configFile files path = .ok outcome) ∧
      rewriteOf? m root configFile files path = none := by
  unfold Settled outcomeOf rewriteOf? nameUnder
  cases path.relativeTo? root with
  | none => simp
  | some names =>
    cases textAt? files path with
    | none => simp
    | some content =>
      cases h : transform m configFile (Path.text ⟨[], names⟩) content with
      | error cause => simp [h]
      | ok o => simp [h]

/-- Files that are settled stay as they are. -/
lemma rewrittenAll_of_settled {paths : List Path}
    (h : ∀ path ∈ paths, rewriteOf? m root configFile files path = none) :
    rewrittenAll m root configFile files paths = files := by
  induction paths with
  | nil => rfl
  | cons path paths ih =>
    obtain ⟨hone, hrest⟩ := List.forall_mem_cons.1 h
    have hsame : rewritten m root configFile files path = files := by
      rcases rewritten_cases m root configFile files path with ⟨_, hsame⟩ | ⟨_, _, _, ho, _⟩
      · exact hsame
      · cases hone.symm.trans ho
    have hcons : rewrittenAll m root configFile files (path :: paths) =
        rewrittenAll m root configFile (rewritten m root configFile files path) paths := rfl
    rw [hcons, hsame]
    exact ih hrest

/-- The file at a path has no text before and after, or a transform has made the text after of the
one before. -/
def Treated (m : Yaml.Memory) (root : Path) (configFile : Text) (files files' : FileTree)
    (path : Path) : Prop :=
  ∃ names, path.relativeTo? root = some names ∧
    ((textAt? files path = none ∧ textAt? files' path = none) ∨
      ∃ content o, textAt? files path = some content ∧
        transform m configFile (Path.text ⟨[], names⟩) content = .ok o ∧
        textAt? files' path = some o.content)

/-- A file that is rewritten, or left as it is for the same text, has been treated. -/
lemma treated_of_outcome (hok : outcomeOf m root configFile files path = .ok outcome)
    (hanew : ∀ o, rewriteOf? m root configFile files path = some o →
      textAt? files' path = some o.content)
    (hsame : rewriteOf? m root configFile files path = none →
      textAt? files' path = textAt? files path) :
    Treated m root configFile files files' path := by
  unfold Treated
  unfold outcomeOf nameUnder at hok
  unfold rewriteOf? nameUnder at hanew hsame
  cases hnames : path.relativeTo? root with
  | none => simp [hnames] at hok
  | some names =>
    refine ⟨names, rfl, ?_⟩
    cases htext : textAt? files path with
    | none => exact .inl ⟨rfl, by simp [hnames, htext, hsame]⟩
    | some content =>
      refine .inr ⟨content, ?_⟩
      cases h : transform m configFile (Path.text ⟨[], names⟩) content with
      | error cause => simp [hnames, htext, h] at hok
      | ok o =>
        refine ⟨o, rfl, rfl, ?_⟩
        by_cases heq : o.content = content
        · simpa [hnames, htext, h, heq] using hsame
        · exact hanew o (by simp [hnames, htext, h, heq])

/-- Each of the files that are changed has been treated. -/
lemma treated_rewrittenAll {paths : List Path} (hapart : paths.Pairwise (Apart files))
    (hmem : path ∈ paths) (hok : outcomeOf m root configFile files path = .ok outcome) :
    Treated m root configFile files (rewrittenAll m root configFile files paths) path := by
  have hread := read_rewrittenAll m root configFile hapart hmem
  refine treated_of_outcome hok (fun o ho => ?_) fun hnone => ?_
  · rw [ho] at hread
    exact textAt?_eq_some.2 ⟨_, hread, Utf8.decode_encode o.content⟩
  · rw [hnone] at hread
    exact textAt?_congr hread

/-- A file that has been treated is settled, in the same memory and in any that leaves what is read
in the same order, exactly if no class name ran into the address of the remote template. -/
lemma settled_iff_of_treated (h : Treated m root configFile files files' path)
    (hsame : ∀ content, textAt? files path = some content →
      SameOrder m m' configFile (nameUnder root path) content) :
    Settled m' root configFile files' path ↔
      ∀ content, textAt? files path = some content → ¬ RunsIntoTemplate content := by
  obtain ⟨names, hnames, ⟨hbefore, hafter⟩ | ⟨content, o, hbefore, ho, hafter⟩⟩ := h
  · refine iff_of_true ⟨names, hnames, fun content hc => ?_⟩ fun content hc => ?_
    · cases hafter.symm.trans hc
    · cases hbefore.symm.trans hc
  · constructor
    · rintro ⟨names', hnames', hall⟩ content' hc
      cases hbefore.symm.trans hc
      cases hnames.symm.trans hnames'
      obtain ⟨again, hagain, heq⟩ := hall o.content hafter
      exact (isFree_transform ho).1 (isFree_of_transform ho hagain heq)
    · intro hall
      have horder := hsame content hbefore
      unfold nameUnder at horder
      rw [hnames] at horder
      refine ⟨names, hnames, fun content' hc => ?_⟩
      cases hafter.symm.trans hc
      obtain ⟨again, hagain, heq, _⟩ :=
        (transform_again_iff ho horder).2 (hall content hbefore)
      exact ⟨again, hagain, heq⟩

end SiteAudit.Codemod

namespace SiteAudit.Site
open Codemod Replacement

variable {site : Site} {m : Yaml.Memory} {files files' : FileTree} {p p' : Progress}
  {paths : List Path} {notices notices' : List Notice} {applied : Applied}

/-- Nothing is changed exactly if all candidate files are settled. -/
lemma applyCodemods_settled_iff (hc : site.candidatesOf p.files = .ok paths) :
    (∃ applied p', runFrom (site.applyCodemods true false) p = (.ok applied, p') ∧
      applied.changes = [] ∧ p'.files = p.files) ↔
        ∀ path ∈ paths, Settled site.memory site.root site.settings.configFile p.files path := by
  obtain ⟨p', hrun, hfiles⟩ := runFrom_realRun site p
  constructor
  · rintro ⟨applied, p'', h, hnil, -⟩ path hpath
    obtain ⟨hok, -⟩ := Prod.ext_iff.1 (hrun.symm.trans h)
    obtain ⟨paths', outcomes, hc', ho, rfl⟩ := preview_eq_ok.1 hok
    cases hc.symm.trans hc'
    rw [changes_eq_filterMap ho, List.filterMap_eq_nil_iff] at hnil
    exact settled_iff.2 ⟨exists_mapM_eq_ok.1 ⟨_, ho⟩ path hpath,
      Option.map_eq_none_iff.1 (hnil path hpath)⟩
  · intro hall
    have hsettled := fun path hpath => settled_iff.1 (hall path hpath)
    obtain ⟨outcomes, ho⟩ := exists_mapM_eq_ok.2 fun path hpath => (hsettled path hpath).1
    have hok : site.preview p.files = .ok (.ofOutcomes outcomes) :=
      preview_eq_ok.2 ⟨paths, outcomes, hc, ho, rfl⟩
    refine ⟨_, p', hok ▸ hrun, ?_, ?_⟩
    · rw [changes_eq_filterMap ho, List.filterMap_eq_nil_iff]
      exact fun path hpath => Option.map_eq_none_iff.2 (hsettled path hpath).2
    · rw [hfiles paths _ hc hok]
      exact rewrittenAll_of_settled fun path hpath => (hsettled path hpath).2

/-- In the text of a candidate file a class name runs into the address of the remote template. -/
def HasSeam (site : Site) (files : FileTree) : Prop :=
  ∃ before paths after, runFrom (site.candidates files) before = (.ok paths, after) ∧
    ∃ path ∈ paths, ∃ content, textAt? files path = some content ∧ RunsIntoTemplate content

/-- A seam is one in a candidate file. -/
lemma hasSeam_iff (hc : site.candidatesOf files = .ok paths) : site.HasSeam files ↔
    ∃ path ∈ paths, ∃ content, textAt? files path = some content ∧ RunsIntoTemplate content := by
  constructor
  · rintro ⟨before, paths', after, h, hseam⟩
    have hc' := (runFrom_candidates site files before).symm.trans (congrArg Prod.fst h)
    cases hc.symm.trans hc'
    exact hseam
  · intro hseam
    exact ⟨[], paths, _, runFrom_of_fst hc, hseam⟩

/-- Once the safe replacements have been made in a site, making them again changes nothing, exactly
if in none of the candidate files a class name ran into the address of the remote template. -/
lemma applyCodemods_again_iff (hm : p.files.IsMap) (hsame : site.SameOrder m p.files)
    (h : runFrom (site.applyCodemods true false) p = (.ok applied, p')) :
    (∃ again p'', runFrom ({ site with memory := m }.applyCodemods true false) p' =
        (.ok again, p'') ∧ again.changes = [] ∧ p''.files = p'.files) ↔
      ¬ site.HasSeam p.files := by
  obtain ⟨after, hrun, hfiles⟩ := runFrom_realRun site p
  obtain ⟨hok, rfl⟩ := Prod.ext_iff.1 (hrun.symm.trans h)
  obtain ⟨paths, outcomes, hc, ho, rfl⟩ := preview_eq_ok.1 hok
  have hafter := hfiles paths _ hc hok
  have hagain : { site with memory := m }.candidatesOf after.files = .ok paths := by
    rw [hafter]
    exact (candidatesOf_of_erase (erase_rewrittenAll hm _ _ _ _)).trans hc
  have hsettled : ∀ path ∈ paths, (Settled m site.root site.settings.configFile after.files path ↔
      ∀ content, textAt? p.files path = some content → ¬ RunsIntoTemplate content) := by
    intro path hpath
    obtain ⟨outcome, hone⟩ := exists_mapM_eq_ok.1 ⟨_, ho⟩ path hpath
    rw [hafter]
    exact settled_iff_of_treated (treated_rewrittenAll (candidates_apart hc) hpath hone)
      (hsame paths hc path hpath)
  rw [applyCodemods_settled_iff hagain, forall₂_congr hsettled, hasSeam_iff hc]
  push Not
  rfl

/-- **The second pass changes nothing exactly if there was no seam.** No class name may have run
into the address of the remote template before the first pass: neither in the text of a file that is
transformed, nor in a candidate file of a site that is changed. The second pass may be made in any
memory that leaves what the first one read in the same order, such as that of the first one. -/
theorem second_pass_iff (site : Site) (m : Yaml.Memory) :
    (∀ file content o, Codemod.SameOrder site.memory m site.settings.configFile file content →
      transform site.memory site.settings.configFile file content = .ok o →
      ((∃ again, transform m site.settings.configFile file o.content = .ok again ∧
        again.content = o.content ∧ again.fired = []) ↔ ¬ RunsIntoTemplate content)) ∧
    ∀ p p' applied, p.files.IsMap → site.SameOrder m p.files →
      runFrom (site.applyCodemods true false) p = (.ok applied, p') →
      ((∃ again p'', runFrom ({ site with memory := m }.applyCodemods true false) p' =
        (.ok again, p'') ∧ again.changes = [] ∧ p''.files = p'.files) ↔ ¬ site.HasSeam p.files) :=
  ⟨fun _ _ _ hsame h => transform_again_iff h hsame,
    fun _ _ _ hm hsame h => applyCodemods_again_iff hm hsame h⟩

/-- A class name that runs into the address of the remote template. -/
def seam : Text := "font-weight-bold" ++ remoteTemplate

/-- The same text after the first pass. -/
def opened : Text := "font-weight-bold/assets/js/distillpub/template.v2.js"

/-- The class name is replaced as a word, and the address follows it. -/
lemma runsIntoTemplate_seam : RunsIntoTemplate seam :=
  ⟨_, List.mem_cons_self .., rfl, [], [], (List.append_nil _).symm, rfl⟩

/-- A site with the usual settings. -/
def seamSite : Site := .usual (.ofText "/site")

/-- Files of that site, one of them with that text. -/
def seamFiles : FileTree := .ofFiles [(.ofText "/site/_includes/a.html", Utf8.encode seam)]

/-- The text is found in a candidate file of the site. -/
lemma hasSeam_seamSite : seamSite.HasSeam seamFiles := by
  have hc : (runFrom (seamSite.candidates seamFiles) []).1 =
      .ok [.ofText "/site/_includes/a.html"] := by decide +kernel
  have htext : textAt? seamFiles (.ofText "/site/_includes/a.html") = some seam := by decide +kernel
  exact ⟨[], _, _, runFrom_of_fst hc, _, List.mem_singleton_self _, seam, htext,
    runsIntoTemplate_seam⟩

/-- The class name is replaced in the second pass only. -/
theorem second_pass_seam :
    Codemod.SameOrder .inOrder .inOrder "_config.yml" "_includes/a.html" seam ∧
      transform .inOrder seamSite.settings.configFile "_includes/a.html" seam =
        .ok ⟨opened, ["distill_local_template"], false⟩ ∧
      (¬ ∃ again, transform .inOrder seamSite.settings.configFile "_includes/a.html" opened =
        .ok again ∧ again.content = opened ∧ again.fired = []) ∧
      seamFiles.IsMap ∧ seamSite.SameOrder .inOrder seamFiles ∧
      (runFrom (seamSite.applyCodemods true false) ⟨seamFiles, []⟩).1 =
        .ok ⟨[⟨"_includes/a.html", ["distill_local_template"]⟩], []⟩ ∧
      ¬ ∃ again p'', runFrom (seamSite.applyCodemods true false)
          (runFrom (seamSite.applyCodemods true false) ⟨seamFiles, []⟩).2 = (.ok again, p'') ∧
        again.changes = [] ∧
        p''.files = (runFrom (seamSite.applyCodemods true false) ⟨seamFiles, []⟩).2.files := by
  have htext : transform .inOrder seamSite.settings.configFile "_includes/a.html" seam =
      .ok ⟨opened, ["distill_local_template"], false⟩ := by decide +kernel
  have hmap : seamFiles.IsMap := by decide +kernel
  have happly : (runFrom (seamSite.applyCodemods true false) ⟨seamFiles, []⟩).1 =
      .ok ⟨[⟨"_includes/a.html", ["distill_local_template"]⟩], []⟩ := by decide +kernel
  have hseam : ¬ ¬ RunsIntoTemplate seam := not_not.2 runsIntoTemplate_seam
  have hsite : ¬ ¬ seamSite.HasSeam seamFiles := not_not.2 hasSeam_seamSite
  have horder := Codemod.SameOrder.refl .inOrder "_config.yml" "_includes/a.html" seam
  have horder' := SameOrder.refl seamSite seamFiles
  obtain ⟨htransform, hpass⟩ := second_pass_iff seamSite .inOrder
  exact ⟨horder, htext, mt (htransform _ _ _ horder htext).1 hseam, hmap, horder', happly,
    mt (hpass ⟨seamFiles, []⟩ _ _ hmap horder' (runFrom_of_fst happly)).1 hsite⟩

end SiteAudit.Site
