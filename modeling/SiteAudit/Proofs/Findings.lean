import Mathlib.Data.List.Nodup
import SiteAudit.CommandLine.Session
import SiteAudit.Proofs.CheckRuns
import SiteAudit.Proofs.Checks
import SiteAudit.Proofs.Order

/-!
# The findings of audits

Each check has its kinds of findings, with a severity for each of them (`Check.kinds`). An audit
finds nothing of other kinds, and no two of its findings have the same identifier, file and line
(`Site.audit_findings`): a kind belongs to one check, a check looks at each file once, and a line
has at most one finding of a kind.
-/

namespace SiteAudit

variable {site : Site} {files : FileTree} {root : Path} {paths : List Path} {lines : List Text}
  {findings : List Finding} {notices : List Notice}

/-! ### Kinds -/

/-- The kinds of findings about manifests. -/
def Manifests.kinds : List (Text × Severity) := [("missing_migration_manifests", .warning)]

/-- The kinds of findings about configurations. -/
def Contract.kinds : List (Text × Severity) :=
  [("invalid_config_yaml", .blocking), ("missing_al_folio_namespace", .blocking),
    ("style_engine_not_tailwind", .blocking), ("missing_tailwind_namespace", .warning),
    ("missing_distill_namespace", .warning)]

/-- The kind of findings about files of libraries. -/
def Legacy.assetKinds : List (Text × Severity) := [("legacy_bootstrap_runtime_asset", .blocking)]

/-- The kinds of findings about attributes and calls. -/
def Legacy.inlineKinds : List (Text × Severity) :=
  [("legacy_data_toggle", .warning), ("legacy_jquery_usage", .warning)]

/-- The kind of findings about remote loading. -/
def RemoteLoader.kinds : List (Text × Severity) := [("distill_remote_loader_enabled", .blocking)]

/-- The kind of findings about files that shadow those of the theme. -/
def Overrides.kinds : List (Text × Severity) := [("core_override_drift", .warning)]

/-- The kinds of findings of each check: their identifiers and severities. -/
def Check.kinds : List (List (Text × Severity)) :=
  [Manifests.kinds, Contract.kinds, Legacy.assetKinds, Legacy.inlineKinds, RemoteLoader.kinds,
    Overrides.kinds]

namespace Finding

/-- The kinds of findings of all checks. -/
def taxonomy : List (Text × Severity) := Check.kinds.flatten

/-- The kinds of findings about lines of files. -/
def lineKinds : List Text :=
  ["legacy_bootstrap_runtime_asset", "legacy_data_toggle", "legacy_jquery_usage",
    "distill_remote_loader_enabled"]

/-- What tells a finding from others. -/
def place (f : Finding) : Text × Text × Int := (f.id, f.file, f.line)

/-- The finding is about one of the lines, and shows it without the white space around it. -/
structure IsOn (f : Finding) (lines : List Text) : Prop where
  line_le : f.line ≤ lines.length
  snippet : lines[(f.line - 1).toNat]?.map Text.trim = some f.snippet
  no_feed : '\n' ∉ f.snippet

/-- The findings are of the given kinds and in different places, and those about lines are about
lines of their files. -/
structure Classified (kinds : List (Text × Severity)) (files : FileTree) (root : Path)
    (findings : List Finding) : Prop where
  kind : ∀ f ∈ findings, (f.id, f.severity) ∈ kinds
  onLine : ∀ f ∈ findings, f.id ∈ lineKinds → f.IsOn (Lines.ofPath files (root.joinText f.file))
  unique : (findings.map place).Nodup

variable {kinds : List (Text × Severity)}

/-- Where nothing is found, everything is as it should be. -/
lemma classified_nil : Classified kinds files root [] :=
  ⟨fun _ h => absurd h List.not_mem_nil, fun _ h => absurd h List.not_mem_nil, List.nodup_nil⟩

/-- Findings that are not about lines are classified if they are of their kinds and in
different places. -/
lemma classified_of_kinds (hkind : ∀ f ∈ findings, (f.id, f.severity) ∈ kinds)
    (hlines : ∀ kind ∈ kinds, kind.1 ∉ lineKinds) (hunique : (findings.map place).Nodup) :
    Classified kinds files root findings :=
  ⟨hkind, fun f hf hid => absurd hid (hlines _ (hkind f hf)), hunique⟩

/-- Findings of different kinds are in different places. -/
lemma classified_flatten {kinds : List (List (Text × Severity))} {found : List (List Finding)}
    (hall : List.Forall₂ (fun kinds findings => Classified kinds files root findings) kinds found)
    (hids : (kinds.flatten.map Prod.fst).Nodup) :
    Classified kinds.flatten files root found.flatten := by
  induction hall with
  | nil => exact classified_nil
  | @cons here findings kinds found hclassified _ ih =>
    rw [List.flatten_cons, List.map_append, List.nodup_append] at hids
    obtain ⟨-, hrest, hdisjoint⟩ := hids
    obtain ⟨hkind, honLine, hunique⟩ := ih hrest
    refine ⟨?_, ?_, ?_⟩
    · rw [List.flatten_cons, List.forall_mem_append]
      exact ⟨fun f hf => List.mem_append_left _ (hclassified.kind f hf),
        fun f hf => List.mem_append_right _ (hkind f hf)⟩
    · rw [List.flatten_cons, List.forall_mem_append]
      exact ⟨hclassified.onLine, honLine⟩
    · rw [List.flatten_cons, List.map_append, List.nodup_append]
      refine ⟨hclassified.unique, hunique, ?_⟩
      intro p hp q hq heq
      obtain ⟨f, hf, rfl⟩ := List.mem_map.1 hp
      obtain ⟨g, hg, rfl⟩ := List.mem_map.1 hq
      have hid : f.id = g.id := congrArg Prod.fst heq
      exact hdisjoint _ (List.mem_map_of_mem (hclassified.kind f hf)) _
        (List.mem_map_of_mem (hkind g hg)) hid

end Finding

open Finding

/-! ### Lines -/

/-- Lists that are told by a mark of their elements have no element in common. -/
lemma nodup_flatMap_of_mark {α β γ : Type} {l : List α} {f : α → List β} (mark : β → γ)
    (markOf : α → γ) (hnodup : (l.map markOf).Nodup) (hone : ∀ a ∈ l, (f a).Nodup)
    (hmark : ∀ a ∈ l, ∀ b ∈ f a, mark b = markOf a) : (l.flatMap f).Nodup := by
  refine List.nodup_flatMap.2 ⟨hone, ?_⟩
  refine (List.pairwise_map.1 hnodup).imp_of_mem fun ha hb hne x hx hx' => hne ?_
  exact (hmark _ ha x hx).symm.trans (hmark _ hb x hx')

namespace Text

/-- What is left of a text without white space around it was in the text. -/
lemma mem_of_mem_trim {c : Char} {t : Text} (h : c ∈ trim t) : c ∈ t := by
  have hstart : ∀ t : Text, trimStart t ⊆ t := fun t => (List.dropWhile_suffix _).subset
  have h := hstart _ (List.mem_reverse.1 h)
  exact hstart _ (List.mem_reverse.1 h)

end Text

namespace Lines

/-- There is no line feed on a line. -/
lemma not_mem_of_mem_ofPath {files : FileTree} {path : Path} {line : Text}
    (h : line ∈ ofPath files path) : '\n' ∉ line := by
  have htext : ∀ t, line ∈ ofText t → '\n' ∉ line := by
    intro t h
    obtain ⟨piece, hpiece, rfl⟩ := List.mem_map.1 h
    have hsplit : piece ∈ Text.splitOn '\n' t := by
      split at hpiece
      · exact List.dropLast_subset _ hpiece
      · exact hpiece
    have hnot := Text.not_mem_of_mem_splitOn hsplit
    unfold dropReturn
    split
    · exact fun hmem => hnot (List.dropLast_subset _ hmem)
    · exact hnot
  unfold ofPath at h
  split at h
  · exact htext _ h
  · cases h

/-- Every line has another number. -/
lemma nodup_numbered (lines : List Text) :
    ((numbered lines).map fun line => (line.1 : Int)).Nodup :=
  List.pairwise_map.2 ((pairwise_numbered lines).imp fun hlt => (Int.ofNat_lt.2 hlt).ne)

end Lines

/-- What shows a line of the file is about that line. -/
lemma Finding.isOn_of_numbered {path : Path} {f : Finding} {line : Nat × Text}
    (h : line ∈ Lines.numbered (Lines.ofPath files path)) (hline : f.line = line.1)
    (hsnippet : f.snippet = Text.trim line.2) : f.IsOn (Lines.ofPath files path) := by
  obtain ⟨i, hi, hget⟩ := Lines.mem_numbered.1 h
  obtain ⟨hlength, hmem⟩ := List.getElem?_eq_some_iff.1 hget
  have hi : f.line = i + 1 := by omega
  refine ⟨by omega, ?_, ?_⟩
  · have hindex : (f.line - 1).toNat = i := by omega
    rw [hindex, hget, hsnippet]
    rfl
  · rw [hsnippet]
    intro hfeed
    exact Lines.not_mem_of_mem_ofPath (hmem ▸ List.getElem_mem hlength) (Text.mem_of_mem_trim hfeed)

/-- Findings for some of the lines are in different places. -/
lemma Finding.nodup_of_numbered {marked : Nat × Text → Bool} {finding : Nat × Text → Finding}
    (hline : ∀ line, (finding line).line = line.1) :
    ((((Lines.numbered lines).filter marked).map finding).map place).Nodup := by
  refine List.Nodup.of_map (fun p => p.2.2) ?_
  rw [List.map_map, List.map_map]
  refine (Lines.nodup_numbered lines).sublist ?_
  refine (List.map_congr_left fun line _ => ?_) ▸
    (List.filter_sublist (p := marked)).map fun line : Nat × Text => (line.1 : Int)
  exact (hline line).symm

/-! ### Checks -/

/-- The check of manifests has at most one finding, of its kind. -/
lemma Manifests.returns_check :
    Returns (Classified kinds files root) (check.run site files paths) := by
  refine (Returns.any _).bind fun found _ => .pure ?_
  split
  · refine classified_of_kinds ?_ ?_ (List.nodup_singleton _)
    · exact List.forall_mem_singleton.2 (List.mem_singleton_self _)
    · decide
  · exact classified_nil

/-- A configuration is unreadable, or each requirement of it is missed once at most. -/
lemma Contract.classified_foundIn (file : Text) (loaded : Except Text (Option Config.Tree)) :
    Classified kinds files root (foundIn file loaded) := by
  have hlines : ∀ kind ∈ kinds, kind.1 ∉ lineKinds := by decide
  rcases loaded with reason | _ | tree
  · refine classified_of_kinds ?_ hlines (List.nodup_singleton _)
    exact List.forall_mem_singleton.2 (List.mem_cons_self ..)
  · exact classified_nil
  · have hkinds : ∀ r ∈ requirements, (r.id, r.severity) ∈ kinds := by decide
    have hids : (requirements.map Requirement.id).Nodup := by decide
    refine classified_of_kinds ?_ hlines (List.Nodup.of_map Prod.fst ?_)
    · exact List.forall_mem_map.2 fun r hr => hkinds r (List.mem_of_mem_filter hr)
    · unfold foundIn violations
      rw [List.map_map, List.map_map]
      exact hids.sublist (List.filter_sublist.map Requirement.id)

/-- Each file of the theme is told once at most. -/
lemma Overrides.classified_foundIn (loaded : Except Text (Option Config.Tree)) :
    Classified kinds files root (foundIn files root loaded) := by
  have hlines : ∀ kind ∈ kinds, kind.1 ∉ lineKinds := by decide
  have hfiles : themeFiles.Nodup := by decide
  unfold foundIn
  split
  · split
    · refine classified_of_kinds ?_ hlines (List.Nodup.of_map (fun p => p.2.1) ?_)
      · exact List.forall_mem_map.2 fun file _ => List.mem_singleton_self _
      · rw [List.map_map, List.map_map]
        exact (List.map_id _).symm ▸ hfiles.sublist List.filter_sublist
    · exact classified_nil
  · exact classified_nil

/-- Each line of a runtime file is told once at most. -/
lemma RemoteLoader.classified_templatesIn :
    Classified kinds files root (templatesIn files root) where
  kind := List.forall_mem_map.2 fun _ _ => List.mem_singleton_self _
  onLine := List.forall_mem_map.2 fun _ hline _ =>
    isOn_of_numbered (List.mem_of_mem_filter hline) rfl rfl
  unique := nodup_of_numbered fun _ => rfl

/-- Each line of the two includes is told once at most. -/
lemma Legacy.classified_assetsIn : Classified assetKinds files root (assetsIn files root) := by
  have hincludes : includes.Nodup := by decide
  refine ⟨?_, ?_, ?_⟩
  · intro f hf
    obtain ⟨file, -, hf⟩ := List.mem_flatMap.1 hf
    obtain ⟨line, -, rfl⟩ := List.mem_map.1 hf
    exact List.mem_singleton_self _
  · intro f hf _
    obtain ⟨file, -, hf⟩ := List.mem_flatMap.1 hf
    obtain ⟨line, hline, rfl⟩ := List.mem_map.1 hf
    exact isOn_of_numbered (List.mem_of_mem_filter hline) rfl rfl
  · unfold assetsIn
    rw [List.map_flatMap]
    refine nodup_flatMap_of_mark (fun p => p.2.1) id ?_ ?_ ?_
    · exact (List.map_id _).symm ▸ hincludes
    · exact fun file _ => nodup_of_numbered fun _ => rfl
    · intro file _ p hp
      obtain ⟨f, hf, rfl⟩ := List.mem_map.1 hp
      obtain ⟨line, -, rfl⟩ := List.mem_map.1 hf
      rfl

namespace Legacy

/-- On a line there is at most one finding about each marker. -/
lemma nodup_inlineFindings (file : Text) : ((inlineFindings file lines).map place).Nodup := by
  have hids : (inlineMarkers.map InlineMarker.id).Nodup := by decide
  unfold inlineFindings
  rw [List.map_flatMap]
  refine nodup_flatMap_of_mark (fun p => p.2.2) _ (Lines.nodup_numbered lines) ?_ ?_
  · intro line _
    refine List.Nodup.of_map Prod.fst ?_
    unfold lineFindings
    rw [List.map_map, List.map_map]
    exact hids.sublist (List.filter_sublist.map InlineMarker.id)
  · intro line _ p hp
    obtain ⟨f, hf, rfl⟩ := List.mem_map.1 hp
    obtain ⟨m, -, rfl⟩ := List.mem_map.1 hf
    rfl

/-- The names of candidates lead back to them, and no candidate comes twice. -/
structure Readable (root : Path) (paths : List Path) : Prop where
  back : ∀ path ∈ paths, root.joinText (Codemod.nameUnder root path) = path
  nodup : paths.Nodup

/-- The findings of all candidates are in different places, because their names are different. -/
lemma classified_inlineIn (h : Readable root paths) :
    Classified inlineKinds files root (inlineIn files root paths) := by
  have hkinds : ∀ m ∈ inlineMarkers, (m.id, Severity.warning) ∈ inlineKinds := by decide
  refine ⟨?_, ?_, ?_⟩
  · intro f hf
    obtain ⟨path, -, hf⟩ := List.mem_flatMap.1 hf
    obtain ⟨line, -, hf⟩ := List.mem_flatMap.1 hf
    obtain ⟨m, hm, rfl⟩ := List.mem_map.1 hf
    exact hkinds m (List.mem_of_mem_filter hm)
  · intro f hf _
    obtain ⟨path, hpath, hf⟩ := List.mem_flatMap.1 hf
    obtain ⟨line, hline, hf⟩ := List.mem_flatMap.1 hf
    obtain ⟨m, -, rfl⟩ := List.mem_map.1 hf
    dsimp only
    rw [h.back path hpath]
    exact isOn_of_numbered hline rfl rfl
  · unfold inlineIn
    rw [List.map_flatMap]
    refine nodup_flatMap_of_mark (fun p => p.2.1) (Codemod.nameUnder root) ?_ ?_ ?_
    · refine h.nodup.map_on fun p hp q hq heq => ?_
      rw [← h.back p hp, heq, h.back q hq]
    · exact fun path _ => nodup_inlineFindings _
    · intro path _ p hp
      obtain ⟨f, hf, rfl⟩ := List.mem_map.1 hp
      obtain ⟨line, -, hf⟩ := List.mem_flatMap.1 hf
      obtain ⟨m, -, rfl⟩ := List.mem_map.1 hf
      rfl

end Legacy

/-! ### Audits -/

namespace Site

/-- Only what a candidate is called leads to it. -/
lemma readable_candidatesOf (hdefault : site.settings = .default) (hf : files.WellFormed)
    (hc : site.candidatesOf files = .ok paths) : Legacy.Readable site.root paths := by
  obtain ⟨taken, htaken, hmem, hnodup, -⟩ := candidatesOf_ordered hdefault files
  cases htaken.symm.trans hc
  refine ⟨List.forall_mem_map.2 fun names hnames => ?_, hnodup.map fun _ _ => Codemod.join_inj.1⟩
  obtain ⟨content, hcandidate⟩ := ((hmem names).1 hnames).file
  rw [Codemod.nameUnder_join, Path.joinText,
    Path.ofText_text (Discovery.isName_of_mem_candidates hf hcandidate)]

/-- A check that fails has no findings, and so none that are not as they should be. -/
lemma findingsOf_map {α : Type} {x : Except Failure α} {g : α → List Finding}
    {kinds : List (Text × Severity)} (h : ∀ a, Classified kinds files root (g a)) :
    Classified kinds files root (findingsOf (x.map g)) := by
  cases x with
  | error e => exact classified_nil
  | ok a => exact h a

/-- The findings of a check are of its kinds. -/
def Finds (site : Site) (files : FileTree) (paths : List Path) (check : Check)
    (kinds : List (Text × Severity)) : Prop :=
  ∀ notices, Classified kinds files site.root
    (findingsOf (runFrom (check.run site files paths) notices).1)

/-- Each check finds what is of its kinds. -/
lemma finds_all (hlocator : site.locator = .listed []) (hreadable : Legacy.Readable site.root paths)
    (hbelow : ∀ path ∈ paths, (path.relativeTo? site.root).isSome) :
    List.Forall₂ (site.Finds files paths) Check.all Check.kinds := by
  refine .cons ?_ (.cons ?_ (.cons ?_ (.cons ?_ (.cons ?_ (.cons ?_ .nil)))))
  · intro notices
    cases hrun : (runFrom (Manifests.check.run site files paths) notices).1 with
    | error e => exact classified_nil
    | ok findings => exact Manifests.returns_check notices findings hrun
  · intro notices
    rw [Contract.runFrom_check_content]
    exact findingsOf_map (Contract.classified_foundIn _)
  · intro notices
    rw [Legacy.runFrom_assetCheck]
    exact Legacy.classified_assetsIn
  · intro notices
    rw [Legacy.runFrom_patternCheck hbelow]
    exact Legacy.classified_inlineIn hreadable
  · intro notices
    rw [RemoteLoader.runFrom_check_content hlocator]
    refine findingsOf_map fun loaded => ?_
    split
    · exact classified_nil
    · exact RemoteLoader.classified_templatesIn
  · intro notices
    rw [Overrides.runFrom_check_content]
    exact findingsOf_map Overrides.classified_foundIn

/-- The findings of an audit are of the kinds of its checks. -/
lemma classified_audit (hdefault : site.settings = .default) (hlocator : site.locator = .listed [])
    (hf : files.WellFormed) {notices : List Notice} {findings : List Finding}
    (h : (runFrom (site.audit Check.all files) notices).1 = .ok findings) :
    Classified taxonomy files site.root findings := by
  obtain ⟨paths, hc⟩ := exists_candidates hdefault files
  obtain ⟨found, rfl, hgives⟩ :=
    gives_of_audit ((runFrom_candidates site files notices).trans hc) h
  have hfinds : List.Forall₂ (site.Finds files paths) Check.all Check.kinds :=
    finds_all hlocator (readable_candidatesOf hdefault hf hc) (candidates_below hc)
  exact classified_flatten (forall₂_of_gives hfinds hgives) (by decide)

end Site

/-! ### Results -/

section Results
variable {command : CommandLine.Command}

/-- The result is accepted where it is printed. -/
def Result.IsAccepted (r : Result) : Prop := Result.schema.check r.toJson = none

/-- What a survey returns it returns within a change. -/
lemma Returns.survey {α : Type} {P : α → Prop} {s : FileTree → Survey α}
    (h : ∀ files, Returns P (s files)) : Returns P (survey s) :=
  fun p a ha => h p.files p.notices a ha

namespace Site

/-- What an audit comes to is accepted. -/
lemma accepted_runAudit (hdefault : site.settings = .default) (command : CommandLine.Command) :
    Returns Result.IsAccepted (site.runAudit Check.all command.name) := by
  refine (Returns.survey (wellFormed_audit hdefault)).bind fun findings hfindings => ?_
  refine (Returns.any _).bind fun _ _ => .pure ?_
  exact Result.check_of_command rfl (Eq.refl command.name) hfindings

/-- So is what an upgrade comes to. -/
lemma accepted_runApply (hdefault : site.settings = .default) (safe dryRun : Bool) :
    Returns Result.IsAccepted (site.runApply Check.all safe dryRun) := by
  refine (Returns.any _).bind fun applied _ => ?_
  refine (Returns.survey (wellFormed_audit hdefault)).bind fun findings hfindings => ?_
  refine (Returns.any _).bind fun _ _ => .pure ?_
  exact Result.check_of_command rfl (Eq.refl CommandLine.Command.apply.name) hfindings

end Site

namespace CommandLine

/-- How the line about a result that is not accepted begins. -/
def mismatch : Text := "error: result does not match schema: "

/-- No line is about a result that is not accepted. -/
def Response.NoMismatch (r : Response) : Prop := ∀ line ∈ r.errors, ¬ mismatch <+: line

/-- So is the result of any command. -/
lemma accepted_execute (hdefault : site.settings = .default) (i : Invocation) :
    Returns Result.IsAccepted (execute i site) := by
  unfold execute
  split
  · exact site.accepted_runApply hdefault _ _
  · exact site.accepted_runAudit hdefault _

/-- An accepted result is answered without complaint. -/
lemma noMismatch_respond (i : Invocation) {r : Result} (h : r.IsAccepted) :
    (respond i site r).NoMismatch := by
  have hnil : ∀ line : Text, line ∈ ([] : List Text) → ¬ mismatch <+: line :=
    fun _ h => absurd h List.not_mem_nil
  unfold respond
  dsimp only
  split
  · rw [h]
    exact hnil
  · exact hnil

/-- The first letter after the word for an error tells the line from others. -/
lemma not_mismatch {line : Text} (h : line.take 8 ≠ "error: r".toList) : ¬ mismatch <+: line := by
  intro hprefix
  obtain ⟨rest, rfl⟩ := hprefix
  refine h ?_
  rw [List.take_append_of_le_length (by decide)]
  decide

/-- A misuse is answered with the usage, whatever its cause. -/
lemma noMismatch_usage (cause : UsageError) : (Stop.usage cause).response.NoMismatch := by
  have hargument : "error: a".toList ≠ "error: r".toList := by decide
  have hunrecognized : "error: u".toList ≠ "error: r".toList := by decide
  refine List.forall_mem_singleton.2 (not_mismatch ?_)
  cases cause with
  | unrecognized => exact hunrecognized
  | ambiguous => exact hargument
  | valueMissing => exact hargument
  | valueIgnored => exact hargument
  | invalidChoice => exact hargument

/-- A command is answered without complaint about its result. -/
lemma noMismatch_start (e : Environment) (i : Invocation) :
    Returns Response.NoMismatch (start e i) := by
  have hroot : "error: p".toList ≠ "error: r".toList := by decide
  have hmode : "Only --s".toList ≠ "error: r".toList := by decide
  refine (Returns.any _).bind fun p _ => ?_
  dsimp only
  split
  · exact .pure (List.forall_mem_singleton.2 (not_mismatch hroot))
  refine Returns.tryCatch ?_ fun failure => ?_
  · rw [map_eq_pure_bind]
    exact (accepted_execute rfl i).bind fun r hr => .pure (noMismatch_respond i hr)
  · split
    · exact .pure (List.forall_mem_singleton.2 (not_mismatch hmode))
    · exact .throw _

/-- So are all arguments. -/
lemma noMismatch_run (e : Environment) (arguments : List Text) :
    Returns Response.NoMismatch (run e arguments) := by
  have hnil : ∀ line : Text, line ∈ ([] : List Text) → ¬ mismatch <+: line :=
    fun _ h => absurd h List.not_mem_nil
  unfold run
  split
  · exact .pure hnil
  split
  · rename_i stop _
    refine .pure ?_
    cases stop with
    | help level => exact hnil
    | version => exact hnil
    | usage cause => exact noMismatch_usage cause
  · exact .pure hnil
  · exact noMismatch_start e _

end CommandLine

end Results

/-! ### Audits as a whole -/

namespace Site

/-- **The findings of an audit are of known kinds and in different places.** With the usual settings
and without packages an audit comes to its end, unless its catalog ends the program. Its findings
are of the kinds of its checks, each in a file at a line of it; those about lines show their line.
No two of them share identifier, file and line. So each result of an audit, an upgrade or a report
is accepted by the schema of results, and no session ever says that one is not. -/
theorem audit_findings (hdefault : site.settings = .default) (hlocator : site.locator = .listed [])
    (hf : files.WellFormed) (notices : List Notice) :
    (¬ site.catalog.Raises .exit →
      ∃ findings, (runFrom (site.audit Check.all files) notices).1 = .ok findings) ∧
    (∀ findings, (runFrom (site.audit Check.all files) notices).1 = .ok findings →
      (∀ f ∈ findings, (f.id, f.severity) ∈ taxonomy ∧ f.file ≠ [] ∧ 1 ≤ f.line ∧
        (f.id ∈ lineKinds → f.IsOn (Lines.ofPath files (site.root.joinText f.file)))) ∧
      (findings.map place).Nodup) ∧
    (∀ command : CommandLine.Command,
      Returns Result.IsAccepted (site.runAudit Check.all command.name)) ∧
    (∀ safe dryRun, Returns Result.IsAccepted (site.runApply Check.all safe dryRun)) ∧
    ∀ e arguments, Returns CommandLine.Response.NoMismatch (CommandLine.run e arguments) := by
  refine ⟨fun hcatalog => ?_, fun findings haudit => ⟨fun f hmem => ?_, ?_⟩, ?_, ?_, ?_⟩
  · obtain ⟨findings, haudit, -⟩ := audit_total hdefault hcatalog files notices
    exact ⟨findings, haudit⟩
  · have hclassified := classified_audit hdefault hlocator hf haudit
    have hwell := wellFormed_audit hdefault files notices findings haudit
    exact ⟨hclassified.kind f hmem, (hwell f hmem).file, (hwell f hmem).line,
      hclassified.onLine f hmem⟩
  · exact (classified_audit hdefault hlocator hf haudit).unique
  · exact accepted_runAudit hdefault
  · exact accepted_runApply hdefault
  · exact CommandLine.noMismatch_run

/-- Files of a site: a script with two calls on one line, and no configuration. -/
def callingFiles : FileTree :=
  .ofFiles [(.ofText "/site/assets/js/a.js", Utf8.encode "var a;\n  $(a); $(b);\n")]

/-- Where there is something to be found. -/
def callingPlaces : List (Text × Text × Int) :=
  [("missing_migration_manifests", "migrations/", 1), ("legacy_jquery_usage", "assets/js/a.js", 2)]

/-- The calls are one finding, beside the one for a site without manifests. -/
theorem audit_findings_calling :
    (usual (.ofText "/site")).settings = .default ∧
      (usual (.ofText "/site")).locator = .listed [] ∧ callingFiles.WellFormed ∧
      ∃ findings, (runFrom ((usual (.ofText "/site")).audit Check.all callingFiles) []).1 =
        .ok findings ∧ findings.map place = callingPlaces ∧
        (findings.map place).Nodup := by
  have hdefault : (usual (.ofText "/site")).settings = .default := rfl
  have hlocator : (usual (.ofText "/site")).locator = .listed [] := rfl
  have hf : callingFiles.WellFormed := by
    refine FileTree.wellFormed_ofFiles ?_
    simp [FileTree.names_ofText]
  have hplaces : (runFrom ((usual (.ofText "/site")).audit Check.all callingFiles) []).1.map
      (List.map place) = .ok callingPlaces := by decide +kernel
  obtain ⟨hends, hfacts, -⟩ := audit_findings hdefault hlocator hf []
  obtain ⟨findings, haudit⟩ := hends (Catalog.not_raises_absent .exit)
  obtain ⟨-, hunique⟩ := hfacts findings haudit
  rw [haudit] at hplaces
  exact ⟨hdefault, hlocator, hf, findings, haudit, Except.ok.inj hplaces, hunique⟩

end Site

end SiteAudit
