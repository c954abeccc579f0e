import SiteAudit.Proofs.Codemod
import SiteAudit.Proofs.Firing
import SiteAudit.Proofs.InsertedText
import SiteAudit.Proofs.Transform

/-!
# Changes that are told

A transform tells what it did: nothing exactly if the text is as it was, and otherwise the steps
that changed the text that they were given (`tells_transform`). No later step can undo an earlier
one, since every text that a transform changes advances (`advances_transform`): the address of the
remote template is never written, after it is gone the targets go as well, and a text without
targets only grows. Hence no chain of transforms leads back (`Advances.ne`), and a file that is told
to be changed has other bytes afterwards, even if it is changed more than once
(`changes_are_told`).
-/

namespace SiteAudit.Codemod
open Replacement Namespace

variable {m : Yaml.Memory} {configFile file content s t u : Text} {o : Outcome}

/-! ### Steps of a transform -/

/-- The completion is told after the replacements, if it changed the text that they left. -/
lemma fired_transform (h : transform m configFile file content = .ok o) :
    o.fired = (Replacement.applyAll safe content).2 ++
      if o.content = (Replacement.applyAll safe content).1 then [] else [completionId] := by
  unfold transform at h
  dsimp only at h
  split at h
  · cases h
    exact ((congrArg _ (if_pos rfl)).trans (List.append_nil _)).symm
  · obtain ⟨completion, -, h⟩ := bind_eq_ok.1 h
    cases h
    dsimp only
    split
    · exact (List.append_nil _).symm
    · rfl

/-- The names of all steps are different. -/
lemma nodup_steps : (safe.map (·.id) ++ [completionId]).Nodup := by decide

/-- What has fired is told in the order of the replacements, and the completion last. -/
lemma fired_transform_sublist (h : transform m configFile file content = .ok o) :
    o.fired.Sublist (safe.map (·.id) ++ [completionId]) := by
  rw [fired_transform h]
  apply (fired_sublist safe content).append
  split
  · exact List.nil_sublist _
  · exact .refl _

/-- A replacement has fired exactly if it changed the text that the ones before it left. -/
lemma mem_fired_transform (h : transform m configFile file content = .ok o)
    {before after : List Replacement} {r : Replacement} (hsafe : safe = before ++ r :: after) :
    r.id ∈ o.fired ↔ r.apply (Replacement.applyAll before content).1 ≠
      (Replacement.applyAll before content).1 := by
  have hids : ((before ++ r :: after).map (·.id)).Nodup := hsafe ▸ nodup_safe
  have hmem : r.id ∈ safe.map (·.id) := by
    rw [hsafe]
    exact List.mem_map_of_mem (List.mem_append_right _ List.mem_cons_self)
  have hne : r.id ≠ completionId :=
    (List.nodup_append.1 nodup_steps).2.2 _ hmem _ (List.mem_singleton_self _)
  rw [← mem_fired_iff hids content, ← hsafe, fired_transform h, List.mem_append]
  refine or_iff_left ?_
  split
  · exact List.not_mem_nil
  · exact mt List.mem_singleton.1 hne

/-- The completion has fired exactly if it changed what all replacements left. -/
lemma completionId_mem_fired (h : transform m configFile file content = .ok o) :
    completionId ∈ o.fired ↔ o.content ≠ (Replacement.applyAll safe content).1 := by
  have hnot : completionId ∉ (Replacement.applyAll safe content).2 := fun hmem =>
    (List.nodup_append.1 nodup_steps).2.2 _ ((fired_sublist safe content).subset hmem) _
      (List.mem_singleton_self _) rfl
  rw [fired_transform h, List.mem_append, or_iff_right hnot]
  split
  · rename_i hsame
    exact iff_of_false List.not_mem_nil (not_not.2 hsame)
  · rename_i hne
    exact iff_of_true (List.mem_singleton_self _) hne

/-- Nothing is told exactly if the text is as it was. -/
lemma fired_eq_nil_iff (h : transform m configFile file content = .ok o) :
    o.content = content ↔ o.fired = [] := by
  constructor
  · intro hsame
    -- the text is the result of a transform, so that the replacements leave it as it is
    have hseam := not_runsIntoTemplate h
    rw [hsame] at hseam
    have hfree := (isFree_transform h).2 hseam
    rw [hsame] at hfree
    rw [fired_transform h, applyAll_of_isFree hfree]
    exact if_pos hsame
  · intro hnil
    rw [fired_transform h, List.append_eq_nil_iff] at hnil
    obtain ⟨hreplaced, hcompleted⟩ := hnil
    rw [← applyAll_of_fired_eq_nil hreplaced]
    by_contra hne
    rw [if_neg hne] at hcompleted
    cases hcompleted

/-- What is told of a transform is what it did. -/
structure Tells (configFile file content : Text) (o : Outcome) : Prop where
  same : o.content = content ↔ o.fired = []
  /-- The steps come in their order, each at most once and the completion last. -/
  ordered : o.fired.Sublist (safe.map (·.id) ++ [completionId]) ∧ o.fired.Nodup
  replaced : ∀ before r after, safe = before ++ r :: after →
    (r.id ∈ o.fired ↔ r.apply (Replacement.applyAll before content).1 ≠
      (Replacement.applyAll before content).1)
  completed : completionId ∈ o.fired ↔ o.content ≠ (Replacement.applyAll safe content).1
  config : completionId ∈ o.fired → file = configFile

/-- So a transform tells what it did. -/
lemma tells_transform (h : transform m configFile file content = .ok o) :
    Tells configFile file content o where
  same := fired_eq_nil_iff h
  ordered := ⟨fired_transform_sublist h, (fired_transform_sublist h).nodup nodup_steps⟩
  replaced _ _ _ hsafe := mem_fired_transform h hsafe
  completed := completionId_mem_fired h
  config hmem := by
    rcases transform_content h with ⟨-, ho⟩ | ⟨hfile, -⟩
    · exact absurd ho ((completionId_mem_fired h).1 hmem)
    · exact hfile

/-! ### Texts that advance -/

/-- The second text comes later in a chain of transforms: no class name runs into the address of the
remote template any more, and if none did before, there is nothing to be replaced any more, and if
there was nothing before, it is longer. -/
def Advances (s t : Text) : Prop :=
  ¬ RunsIntoTemplate t ∧ (RunsIntoTemplate s ∨
    isFree safe none t = true ∧ (isFree safe none s = false ∨ s.length < t.length))

/-- A text that advances is another one. -/
lemma Advances.ne (h : Advances s t) : s ≠ t := by
  rintro rfl
  rcases h.2 with hseam | ⟨hfree, hnot | hlonger⟩
  · exact h.1 hseam
  · cases hfree.symm.trans hnot
  · exact Nat.lt_irrefl _ hlonger

/-- Texts advance from step to step. -/
lemma Advances.trans (h : Advances s t) (h' : Advances t u) : Advances s u := by
  refine ⟨h'.1, h.2.imp_right fun ⟨hfree, hs⟩ => ?_⟩
  -- after the first step there is no seam, and nothing to be replaced
  obtain ⟨hfree', hlonger⟩ := h'.2.resolve_left h.1
  have hlonger := hlonger.resolve_left fun hnot => by cases hfree.symm.trans hnot
  exact ⟨hfree', hs.imp_right fun hs => hs.trans hlonger⟩

/-- A text that a transform changes advances. -/
lemma advances_transform (h : transform m configFile file content = .ok o)
    (hne : o.content ≠ content) : Advances content o.content := by
  refine ⟨not_runsIntoTemplate h, or_iff_not_imp_left.2 fun hseam => ?_⟩
  refine ⟨(isFree_transform h).2 hseam, or_iff_not_imp_left.2 fun hnot => ?_⟩
  -- nothing is replaced, and a completion only inserts
  have hfree : isFree safe none content = true := Bool.eq_true_of_not_eq_false hnot
  rcases transform_content h with ⟨-, ho⟩ | ⟨-, completion, hfill, ho⟩
  · rw [applyAll_of_isFree hfree] at ho
    exact absurd ho hne
  · rw [applyAll_of_isFree hfree] at hfill
    have hsub := sublist_fill hfill
    rw [← ho] at hsub
    apply Nat.lt_of_le_of_ne hsub.length_le
    exact fun hlength => hne (hsub.eq_of_length hlength).symm

/-! ### Files that advance -/

variable {root path q : Path} {files files' files'' : FileTree} {paths : List Path}
  {outcomes : List FileOutcome} {p p' : Progress}

/-- The text of the file at a path has advanced. -/
def FileAdvances (files files' : FileTree) (path : Path) : Prop :=
  ∃ s t, textAt? files path = some s ∧ textAt? files' path = some t ∧ Advances s t

/-- The file at a path is as it was, or its text has advanced. -/
def FileKeeps (files files' : FileTree) (path : Path) : Prop :=
  files'.read path = files.read path ∨ FileAdvances files files' path

/-- A file that has advanced and is kept has advanced. -/
lemma FileAdvances.keeps (h : FileAdvances files files' path)
    (h' : FileKeeps files' files'' path) : FileAdvances files files'' path := by
  obtain ⟨s, t, hs, ht, hst⟩ := h
  rcases h' with hsame | ⟨t', u, ht', hu, htu⟩
  · exact ⟨s, t, hs, (textAt?_congr hsame).trans ht, hst⟩
  · cases ht.symm.trans ht'
    exact ⟨s, u, hs, hu, hst.trans htu⟩

/-- So has a file that was kept before. -/
lemma FileKeeps.advances (h : FileKeeps files files' path)
    (h' : FileAdvances files' files'' path) : FileAdvances files files'' path := by
  rcases h with hsame | hadvances
  · obtain ⟨s, t, hs, ht, hst⟩ := h'
    exact ⟨s, t, (textAt?_congr hsame).symm.trans hs, ht, hst⟩
  · exact hadvances.keeps (.inr h')

/-- Files are kept from step to step. -/
lemma FileKeeps.trans (h : FileKeeps files files' path) (h' : FileKeeps files' files'' path) :
    FileKeeps files files'' path := by
  rcases h' with hsame | hadvances
  · exact h.imp hsame.trans fun h => h.keeps (.inl hsame)
  · exact .inr (h.advances hadvances)

/-- Another path that leads to the file tells the same. -/
lemma FileAdvances.of_place (h : FileAdvances files files' path)
    (hplace : files.place q = files.place path) (hplace' : files'.place q = files'.place path) :
    FileAdvances files files' q := by
  obtain ⟨s, t, hs, ht, hst⟩ := h
  refine ⟨s, t, ?_, ?_, hst⟩
  · unfold textAt? at hs ⊢
    rwa [FileTree.read_of_place hplace]
  · unfold textAt? at ht ⊢
    rwa [FileTree.read_of_place hplace']

/-- The bytes of a file that advances are other ones. -/
lemma FileAdvances.read_ne (h : FileAdvances files files' path) :
    ∃ old new, files.read path = .ok old ∧ files'.read path = .ok new ∧ new ≠ old := by
  obtain ⟨s, t, hs, ht, hst⟩ := h
  obtain ⟨old, hold, hdecode⟩ := textAt?_eq_some.1 hs
  obtain ⟨new, hnew, hdecode'⟩ := textAt?_eq_some.1 ht
  refine ⟨old, new, hold, hnew, ?_⟩
  rintro rfl
  exact hst.ne (Except.ok.inj (hdecode.symm.trans hdecode'))

/-- A file that is rewritten advances. -/
lemma fileAdvances_rewritten (ho : rewriteOf? m root configFile files path = some o) :
    FileAdvances files (rewritten m root configFile files path) path := by
  obtain ⟨-, content, htext, h, hne⟩ := rewriteOf?_eq_some.1 ho
  refine ⟨content, o.content, htext, ?_, advances_transform h hne⟩
  exact textAt?_eq_some.2 ⟨_, read_rewritten ho, Utf8.decode_encode o.content⟩

/-- A change of one file leaves the others as they are, unless they are the same one. -/
lemma fileKeeps_rewritten (m : Yaml.Memory) (root : Path) (configFile : Text) (files : FileTree)
    (path q : Path) :
    FileKeeps files (rewritten m root configFile files path) q := by
  cases ho : rewriteOf? m root configFile files path with
  | none =>
    left
    exact FileTree.read_congr (sameShape_rewritten.place q) fun place _ =>
      entry_rewritten fun hne => absurd ho hne
  | some o =>
    have hadvances := fileAdvances_rewritten ho
    by_cases hsame : files.place q = files.place path
    · right
      apply hadvances.of_place hsame
      rw [sameShape_rewritten.place, sameShape_rewritten.place, hsame]
    · left
      apply FileTree.read_congr (sameShape_rewritten.place q)
      intro place hplace
      apply entry_rewritten
      exact fun _ hpath => hsame (hplace.trans hpath.symm)

/-! ### Runs -/

/-- Of a change that is told, a step is told. -/
lemma fired_ne_nil (ho : rewriteOf? m root configFile files path = some o) : o.fired ≠ [] := by
  obtain ⟨-, content, -, h, hne⟩ := rewriteOf?_eq_some.1 ho
  exact mt (fired_eq_nil_iff h).2 hne

/-- One file after the other is changed, and what has advanced stays so. -/
lemma advances_of_run
    (h : runFrom (paths.mapM (applyTo m root configFile false)) p = (.ok outcomes, p')) :
    (∀ q, FileKeeps p.files p'.files q) ∧ ∀ change, .changed change ∈ outcomes →
      change.rules ≠ [] ∧ ∃ path ∈ paths, nameUnder root path = change.file ∧
        FileAdvances p.files p'.files path := by
  induction paths generalizing p outcomes with
  | nil =>
    cases h
    exact ⟨fun q => .inl rfl, fun _ hmem => absurd hmem List.not_mem_nil⟩
  | cons path paths ih =>
    obtain ⟨notices, hone⟩ := runFrom_applyTo m root configFile false path p
    rw [if_neg Bool.false_ne_true] at hone
    rw [runFrom_mapM_cons, hone] at h
    cases houtcome : outcomeOf m root configFile p.files path with
    | error e =>
      rw [houtcome] at h
      cases h
    | ok outcome =>
      rw [houtcome] at h
      dsimp only at h
      rcases hrest : runFrom (paths.mapM (applyTo m root configFile false))
        ⟨rewritten m root configFile p.files path, notices⟩ with ⟨e | later, after⟩
      · rw [hrest] at h
        cases h
      rw [hrest] at h
      cases h
      obtain ⟨hkeeps, hlater⟩ := ih hrest
      have hfirst := fileKeeps_rewritten m root configFile p.files path
      refine ⟨fun q => (hfirst q).trans (hkeeps q), fun change hmem => ?_⟩
      rcases List.mem_cons.1 hmem with rfl | hmem
      · rcases outcomeOf_eq_ok houtcome with ⟨-, -, e⟩ | ⟨-, -, e⟩ | ⟨o, -, ho, e⟩
        · cases e
        · cases e
        · cases e
          refine ⟨fired_ne_nil ho, path, List.mem_cons_self, rfl, ?_⟩
          exact (fileAdvances_rewritten ho).keeps (hkeeps path)
      · obtain ⟨hrules, q, hq, hname, hadvances⟩ := hlater change hmem
        exact ⟨hrules, q, List.mem_cons_of_mem path hq, hname, (hfirst q).advances hadvances⟩

/-- The changes that are told are the outcomes that are changes. -/
lemma mem_changes {change : FileChange} :
    change ∈ (Applied.ofOutcomes outcomes).changes ↔ .changed change ∈ outcomes := by
  unfold Applied.ofOutcomes
  rw [List.mem_filterMap]
  constructor
  · rintro ⟨outcome, hmem, h⟩
    cases outcome with
    | changed change' =>
      cases h
      exact hmem
    | same => cases h
    | skipped file => cases h
  · exact fun hmem => ⟨_, hmem, rfl⟩

/-- An upgrade that succeeds has an outcome for each file. -/
lemma runFrom_applyAll_eq_ok {dryRun : Bool} {applied : Applied}
    (h : runFrom (Codemod.applyAll m root configFile dryRun paths) p = (.ok applied, p')) :
    ∃ outcomes, runFrom (paths.mapM (applyTo m root configFile dryRun)) p = (.ok outcomes, p') ∧
      applied = .ofOutcomes outcomes := by
  obtain ⟨outcomes, after, hrun, h⟩ := runFrom_bind_eq_ok.1 h
  cases h
  exact ⟨outcomes, hrun, rfl⟩

/-- Of the bytes that are read at the path a transform makes other ones, and tells what is told of
the change. -/
def WouldChange (m : Yaml.Memory) (configFile : Text) (files : FileTree) (path : Path)
    (change : FileChange) : Prop :=
  ∃ old content o, files.read path = .ok old ∧ Utf8.decode old = .ok content ∧
    transform m configFile change.file content = .ok o ∧ o.fired = change.rules ∧
    Utf8.encode o.content ≠ old

/-- A dry run tells the files that would be other ones. -/
lemma wouldChange_of_dryRun
    (h : runFrom (paths.mapM (applyTo m root configFile true)) p = (.ok outcomes, p'))
    {change : FileChange} (hmem : .changed change ∈ outcomes) :
    change.rules ≠ [] ∧ ∃ path ∈ paths, nameUnder root path = change.file ∧
      WouldChange m configFile p.files path change := by
  obtain ⟨notices, hdry⟩ := runFrom_mapM_dry m root configFile paths p
  obtain ⟨houtcomes, -⟩ := Prod.ext_iff.1 (hdry.symm.trans h)
  rw [← mem_changes, changes_eq_filterMap houtcomes, List.mem_filterMap] at hmem
  obtain ⟨path, hpath, hchange⟩ := hmem
  obtain ⟨o, ho, rfl⟩ := Option.map_eq_some_iff.1 hchange
  obtain ⟨-, content, htext, htransform, hne⟩ := rewriteOf?_eq_some.1 ho
  obtain ⟨old, hold, hdecode⟩ := textAt?_eq_some.1 htext
  refine ⟨fired_ne_nil ho, path, hpath, rfl, old, content, o, hold, hdecode, htransform, rfl, ?_⟩
  rintro rfl
  rw [Utf8.decode_encode] at hdecode
  exact hne (Except.ok.inj hdecode)

/-- **Changes are told exactly.** A transform tells no step exactly if the text is as it was; it
tells each step that changed the text that it was given and no other one, in the order of the
replacements and the completion last, which is for the configuration only. Of each file that a run
tells to be changed some steps are told, and its bytes are other ones after the run, even if it is
given more than once; after a dry run they would be. -/
theorem changes_are_told (m : Yaml.Memory) (root : Path) (configFile : Text) :
    (∀ file content o, transform m configFile file content = .ok o →
      Tells configFile file content o) ∧
    ∀ dryRun paths p applied p',
      runFrom (Codemod.applyAll m root configFile dryRun paths) p = (.ok applied, p') →
      ∀ change ∈ applied.changes, change.rules ≠ [] ∧
        ∃ path ∈ paths, nameUnder root path = change.file ∧
          if dryRun then WouldChange m configFile p.files path change
          else ∃ old new, p.files.read path = .ok old ∧ p'.files.read path = .ok new ∧
            new ≠ old := by
  refine ⟨fun _ _ _ h => tells_transform h, fun dryRun paths p applied p' h change hmem => ?_⟩
  obtain ⟨outcomes, hrun, rfl⟩ := runFrom_applyAll_eq_ok h
  rw [mem_changes] at hmem
  cases dryRun with
  | true =>
    obtain ⟨hrules, path, hpath, hname, hwould⟩ := wouldChange_of_dryRun hrun hmem
    exact ⟨hrules, path, hpath, hname, hwould⟩
  | false =>
    obtain ⟨hrules, path, hpath, hname, hadvances⟩ := (advances_of_run hrun).2 change hmem
    exact ⟨hrules, path, hpath, hname, hadvances.read_ne⟩

/-- A file in which a class name runs into the address of the remote template. -/
def seamedFile : Path := .ofText "/site/_includes/a.html"

/-- The files of the site. -/
def seamedFiles : FileTree :=
  .ofFiles [(seamedFile, Utf8.encode ("font-weight-bold" ++ remoteTemplate))]

/-- The file is given twice and changed twice, and is another one then. -/
theorem changes_are_told_twice :
    transform .inOrder "_config.yml" "_includes/a.html" ("font-weight-bold" ++ remoteTemplate) =
        .ok ⟨"font-weight-bold/assets/js/distillpub/template.v2.js",
          ["distill_local_template"], false⟩ ∧
      Tells "_config.yml" "_includes/a.html" ("font-weight-bold" ++ remoteTemplate)
        ⟨"font-weight-bold/assets/js/distillpub/template.v2.js",
          ["distill_local_template"], false⟩ ∧
      ∃ p', runFrom (Codemod.applyAll .inOrder (.ofText "/site") "_config.yml" false
          [seamedFile, seamedFile]) ⟨seamedFiles, []⟩ =
            (.ok ⟨[⟨"_includes/a.html", ["distill_local_template"]⟩,
              ⟨"_includes/a.html", ["font_weight_bold"]⟩], []⟩, p') ∧
        ∃ old new, seamedFiles.read seamedFile = .ok old ∧ p'.files.read seamedFile = .ok new ∧
          new ≠ old := by
  obtain ⟨htells, hruns⟩ := changes_are_told .inOrder (.ofText "/site") "_config.yml"
  have htransform : transform .inOrder "_config.yml" "_includes/a.html"
      ("font-weight-bold" ++ remoteTemplate) =
        .ok ⟨"font-weight-bold/assets/js/distillpub/template.v2.js",
          ["distill_local_template"], false⟩ := by decide +kernel
  have hrun : (runFrom (Codemod.applyAll .inOrder (.ofText "/site") "_config.yml" false
      [seamedFile, seamedFile]) ⟨seamedFiles, []⟩).1 =
        .ok ⟨[⟨"_includes/a.html", ["distill_local_template"]⟩,
          ⟨"_includes/a.html", ["font_weight_bold"]⟩], []⟩ := by decide +kernel
  obtain ⟨-, path, hpath, -, hchanged⟩ :=
    hruns _ _ _ _ _ (runFrom_of_fst hrun) _ List.mem_cons_self
  obtain rfl : path = seamedFile := by simpa using hpath
  exact ⟨htransform, htells _ _ _ htransform, _, runFrom_of_fst hrun, hchanged⟩

end SiteAudit.Codemod
