import SiteAudit.Datum
import SiteAudit.Proofs.Arguments
import SiteAudit.Proofs.Acceptance

/-!
# Direct use and sessions

What is done to a site in a session can be done directly as well, and the two agree (`run_agrees`):
a session that prints its result as JSON prints the document of the result that the direct call
returns, ends with the exit code of that result, fails where the call fails, and leaves the same
files and notices. The call may be made in another memory if that leaves what is read in the same
order.
-/

namespace SiteAudit

/-! ### JSON values as data -/

mutual

/-- Are the keys of each object in the value distinct? -/
def Json.DistinctKeys : Json → Prop
  | .array items => Json.DistinctItems items
  | .object entries => (entries.map (·.1)).Nodup ∧ Json.DistinctEntries entries
  | _ => True

/-- Are the keys of each object in the items distinct? -/
def Json.DistinctItems : List Json → Prop
  | [] => True
  | item :: items => Json.DistinctKeys item ∧ Json.DistinctItems items

/-- Are the keys of each object in the values of the entries distinct? -/
def Json.DistinctEntries : List (Text × Json) → Prop
  | [] => True
  | (_, value) :: entries => Json.DistinctKeys value ∧ Json.DistinctEntries entries

end

namespace Datum

mutual

/-- The JSON value as a datum. -/
def ofJson : Json → Datum
  | .null => .null
  | .bool b => .bool b
  | .int n => .int n
  | .float x => .float x
  | .text t => .text t
  | .array items => .sequence (ofItems items)
  | .object entries => .mapping (ofEntries entries)

/-- The items as data. -/
def ofItems : List Json → List Datum
  | [] => []
  | item :: items => ofJson item :: ofItems items

/-- The entries as data. -/
def ofEntries : List (Text × Json) → List (Datum × Datum)
  | [] => []
  | (key, value) :: entries => (.text key, ofJson value) :: ofEntries entries

end

/-- Keys that are told apart all stay. -/
lemma uniqueEntries_eq_self {κ α : Type} {same : κ → κ → Bool} {entries : List (κ × α)}
    (h : entries.Pairwise fun a b => same a.1 b.1 = false) :
    uniqueEntries same entries = entries := by
  have hfold : ∀ read : List (κ × α),
      (read ++ entries).Pairwise (fun a b => same a.1 b.1 = false) →
      entries.foldl (insertEntry same) read = read ++ entries := by
    clear h
    induction entries with
    | nil => exact fun read _ => (List.append_nil read).symm
    | cons entry entries ih =>
      intro read h
      have hnew : (read.any fun other => same other.1 entry.1) = false := by
        rw [List.any_eq_false]
        intro other hother
        rw [Bool.not_eq_true]
        exact (List.pairwise_append.1 h).2.2 other hother entry (List.mem_cons_self ..)
      rw [List.append_cons] at h ⊢
      rw [List.foldl_cons, insertEntry, hnew, if_neg Bool.false_ne_true]
      exact ih _ h
  exact hfold [] h

/-- Distinct texts are distinct keys. -/
lemma objectEntries_of_texts {entries : List (Text × Json)} (h : (entries.map (·.1)).Nodup) :
    objectEntries (entries.map fun entry => (.text entry.1, entry.2)) = entries := by
  have hdistinct : entries.Pairwise fun a b => (a.1 == b.1) = false := by
    refine (List.pairwise_map.1 h).imp fun hne => ?_
    rwa [beq_eq_false_iff_ne]
  have hkeys : uniqueEntries sameKey (entries.map fun entry => (text entry.1, entry.2)) = _ :=
    uniqueEntries_eq_self (List.pairwise_map.2 hdistinct)
  show uniqueEntries (· == ·)
    ((uniqueEntries sameKey _).map fun entry => (entry.1.label, entry.2)) = entries
  rw [hkeys, List.map_map]
  exact (congrArg _ (List.map_id entries)).trans (uniqueEntries_eq_self hdistinct)

mutual

/-- A JSON value with distinct keys is the value of its datum. -/
theorem toJson_ofJson : ∀ value : Json, value.DistinctKeys → (ofJson value).toJson = value
  | .null, _ => rfl
  | .bool _, _ => rfl
  | .int _, _ => rfl
  | .float _, _ => rfl
  | .text _, _ => rfl
  | .array items, h => by
    rw [ofJson, toJson, itemsToJson_ofItems items h]
  | .object entries, h => by
    rw [ofJson, toJson, entriesToJson_ofEntries entries h.2, objectEntries_of_texts h.1]

/-- Items become the values that they were made of. -/
theorem itemsToJson_ofItems :
    ∀ items : List Json, Json.DistinctItems items → itemsToJson (ofItems items) = items
  | [], _ => rfl
  | item :: items, h => by
    rw [ofItems, itemsToJson, toJson_ofJson item h.1, itemsToJson_ofItems items h.2]

/-- So do the values of entries, under their keys as texts. -/
theorem entriesToJson_ofEntries :
    ∀ entries : List (Text × Json), Json.DistinctEntries entries →
      entriesToJson (ofEntries entries) = entries.map fun entry => (.text entry.1, entry.2)
  | [], _ => rfl
  | (key, value) :: entries, h => by
    rw [ofEntries, entriesToJson, toJson_ofJson value h.1, entriesToJson_ofEntries entries h.2]
    rfl

end

end Datum

/-! ### Results as data -/

/-- No key of a finding is there twice. -/
lemma Finding.distinctKeys_toJson (f : Finding) : f.toJson.DistinctKeys := by
  refine ⟨?_, trivial, trivial, trivial, trivial, trivial, trivial, trivial⟩
  show ["id".toList, "severity", "message", "file", "line", "snippet"].Nodup
  decide

namespace Result

/-- No key of a result is there twice. -/
lemma distinctKeys_toJson (r : Result) : r.toJson.DistinctKeys := by
  have hfindings : Json.DistinctItems (r.findings.map Finding.toJson) := by
    induction r.findings with
    | nil => exact trivial
    | cons f findings ih => exact ⟨f.distinctKeys_toJson, ih⟩
  have hfiles : Json.DistinctItems (r.changedFiles.map .text) := by
    induction r.changedFiles with
    | nil => exact trivial
    | cons file files ih => exact ⟨trivial, ih⟩
  refine ⟨?_, trivial, trivial, trivial, ⟨?_, trivial, trivial, trivial, trivial⟩,
    ⟨?_, trivial, hfiles, trivial⟩, hfindings, trivial⟩
  · show ["schema_version".toList, "tool_version", "command", "summary", "codemods",
      "findings"].Nodup
    decide
  · show ["blocking".toList, "non_blocking", "has_blocking"].Nodup
    decide
  · show ["dry_run".toList, "changed_files"].Nodup
    decide

/-- The canonical text of a result as data is the document of the result. -/
lemma document_ofJson_toJson (r : Result) (layout : Json.Layout) :
    Datum.document layout (.ofJson r.toJson) = Json.document layout r.toJson := by
  unfold Datum.document
  rw [Datum.toJson_ofJson r.toJson r.distinctKeys_toJson]

end Result

/-! ### Sessions and calls -/

namespace CommandLine
open Argument Codemod Finding Invocation Site

variable {e : Environment} {root : Text} {i : Invocation} {p : Progress}

/-- A session does what a call does: it fails as the call fails, and if the call returns a result,
it prints the canonical text of this result as data and ends with its exit code. Both leave the same
files and notices. -/
structure Agrees (session : Change Response) (call : Change Result) (exit : Result → ExitCode)
    (p : Progress) : Prop where
  failed : ∀ failure p', runFrom call p = (.error failure, p') →
    runFrom session p = (.error failure, p')
  completed : ∀ r p', runFrom call p = (.ok r, p') →
    ∃ response, runFrom session p = (.ok response, p') ∧
      response.stdout = Datum.document (.indented 2) (.ofJson r.toJson) ∧
      response.ending = .code (exit r)

/-- The schema finds nothing wrong with a result as it should be, so that it is printed. -/
lemma Fits.stdout_respond {site : Site} {r : Result} (h : Fits site p i.command r)
    (hjson : i.choices.json = true) :
    (respond i site r).stdout = Datum.document (.indented 2) (.ofJson r.toJson) := by
  have haccepts : Result.schema.check r.toJson = none :=
    Result.check_of_command h.versioned h.named h.wellFormed
  unfold respond
  rw [hjson, if_pos rfl, haccepts, r.document_ofJson_toJson]
  exact List.append_nil _

/-- A session that is accepted agrees with the run of its command. -/
lemma Environment.Accepts.agrees {arguments : List Text} {exit : Result → ExitCode}
    (h : e.Accepts arguments p.files i) (hjson : i.choices.json = true)
    (hexit : ∀ r, Fits (e.site i.choices) p i.command r →
      r.exitCode (!i.choices.noFail) = exit r) :
    Agrees (run e arguments) (execute i (e.site i.choices)) exit p := by
  constructor
  · intro failure p' hcall
    rw [h.runFrom_run, runFrom_map, hcall]
    rfl
  · intro r p' hcall
    have hfits : Fits (e.site i.choices) p i.command r := by
      rcases ends_execute (Environment.stands_site h.root) h.offered with
        ⟨_, -, hfailure⟩ | ⟨-, r', hfits, hr⟩
      · cases hfailure.symm.trans (congrArg Prod.fst hcall)
      · cases hr.symm.trans (congrArg Prod.fst hcall)
        exact hfits
    refine ⟨respond i (e.site i.choices) r, ?_, hfits.stdout_respond hjson, ?_⟩
    · rw [h.runFrom_run, runFrom_map, hcall]
      rfl
    · rw [hfits.ending, hexit r hfits]

/-- It agrees with whatever call comes to the same. -/
lemma Agrees.congr {session : Change Response} {call call' : Change Result}
    {exit : Result → ExitCode} (h : Agrees session call exit p)
    (hcall : runFrom call' p = runFrom call p) : Agrees session call' exit p where
  failed failure p' h' := h.failed failure p' (hcall.symm.trans h')
  completed r p' h' := h.completed r p' (hcall.symm.trans h')

/-- An upgrade is the same in a memory that leaves what is read in the same order. -/
lemma runFrom_applySafely_congr {s : Surroundings} {root : Path} {m : Yaml.Memory}
    (h : (s.site root false).SameOrder m p.files) (dryRun : Bool) :
    runFrom ({ s with memory := m }.applySafely root false dryRun) p =
      runFrom (s.applySafely root false dryRun) p := by
  have hsame := runFrom_applyCodemods_congr h true dryRun
  unfold Surroundings.applySafely runApply
  rw [runFrom_bind, runFrom_bind]
  change runFrom ({ s.site root false with memory := m }.applyCodemods true dryRun) p = _ at hsame
  rw [← hsame]
  rfl

/-- **A session does what a direct call does.** On a root that is a directory and that the command
takes as the value of its option, a session that prints the result of an audit as JSON agrees with
the direct audit that writes a report, in whatever memory, and ends with the exit code of its
result. A safe upgrade, dry or not, agrees with the direct one, also in another memory that leaves
what is read in the same order, and ends with success. A root that is not taken as a value is a
misuse without effect. -/
theorem run_agrees (e : Environment) (root : Text) (p : Progress)
    (hroot : p.files.isDirectory (e.surroundings.workingDirectory.join (.ofText root)) = true) :
    (IsValue (.command .audit) root → ∀ m,
      Agrees (run e (auditArguments root))
        ({ e.surroundings with memory := m }.auditProject (.ofText root) false true)
        (·.exitCode true) p) ∧
    (IsValue (.command .apply) root → ∀ dryRun,
      Agrees (run e (applyArguments root dryRun))
          (e.surroundings.applySafely (.ofText root) false dryRun) (fun _ => .success) p ∧
        ∀ m, (e.surroundings.site (.ofText root) false).SameOrder m p.files →
          Agrees (run e (applyArguments root dryRun))
            ({ e.surroundings with memory := m }.applySafely (.ofText root) false dryRun)
            (fun _ => .success) p) ∧
    (¬ IsValue (.command .audit) root →
      ∃ r, runFrom (run e (auditArguments root)) p = (.ok r, p) ∧ r.ending = .code .violation) ∧
    (¬ IsValue (.command .apply) root → ∀ dryRun,
      ∃ r, runFrom (run e (applyArguments root dryRun)) p = (.ok r, p) ∧
        r.ending = .code .violation) := by
  refine ⟨fun hvalue m => ?_, fun hvalue dryRun => ?_, fun hvalue => ?_, fun hvalue dryRun => ?_⟩
  · have haccepts : e.Accepts (auditArguments root) p.files _ :=
      ⟨parse_auditArguments hvalue, hroot, fun h => by cases h⟩
    exact haccepts.agrees rfl fun _ _ => rfl
  · have haccepts : e.Accepts (applyArguments root dryRun) p.files _ :=
      ⟨parse_applyArguments hvalue dryRun, hroot, fun _ => rfl⟩
    have hagrees : Agrees (run e (applyArguments root dryRun))
        (e.surroundings.applySafely (.ofText root) false dryRun) (fun _ => .success) p := by
      refine haccepts.agrees rfl fun r hfits => ?_
      rw [hfits.exitCode, if_neg fun h => by cases h.1]
    exact ⟨hagrees, fun m hsame => hagrees.congr (runFrom_applySafely_congr hsame dryRun)⟩
  · obtain ⟨cause, hparse⟩ := parse_auditArguments_of_not_isValue hvalue
    exact ⟨_, runFrom_run_of_stop hparse, rfl⟩
  · obtain ⟨cause, hparse⟩ := parse_applyArguments_of_not_isValue hvalue dryRun
    exact ⟨_, runFrom_run_of_stop hparse, rfl⟩

/-- From the directory of a site that has an old class name and bytes that are no text in it, the
sessions about the site agree with the direct calls. -/
theorem run_agrees_mixed :
    mixedFiles.isDirectory ((Path.ofText "/site").join (.ofText ".")) = true ∧
      IsValue (.command .audit) "." ∧ IsValue (.command .apply) "." ∧
      Agrees (run hereAtSite (auditArguments "."))
        (hereAtSite.surroundings.auditProject (.ofText ".") false true) (·.exitCode true)
        ⟨mixedFiles, []⟩ ∧
      ∀ dryRun, Agrees (run hereAtSite (applyArguments "." dryRun))
        (hereAtSite.surroundings.applySafely (.ofText ".") false dryRun) (fun _ => .success)
        ⟨mixedFiles, []⟩ := by
  have hroot : mixedFiles.isDirectory ((Path.ofText "/site").join (.ofText ".")) = true := by
    decide
  have haudit : IsValue (.command .audit) "." := by
    decide
  have happly : IsValue (.command .apply) "." := by
    decide
  obtain ⟨hagrees, hagrees', -⟩ := run_agrees hereAtSite "." ⟨mixedFiles, []⟩ hroot
  exact ⟨hroot, haudit, happly, hagrees haudit .inOrder, fun dryRun => (hagrees' happly dryRun).1⟩

/-- Files of a site whose directory starts with a hyphen. -/
def hyphenFiles : FileTree := .ofFiles [(.ofText "/site/-site/_includes/a.html", [])]

/-- The document of a result starts with a brace. -/
lemma head?_document (r : Result) :
    (Datum.document (.indented 2) (.ofJson r.toJson)).head? = some '\x7b' := by
  rw [r.document_ofJson_toJson]
  rfl

/-- A root that starts with a hyphen can be audited directly, but not in a session: there it is no
value of an option. -/
theorem not_agrees_hyphen :
    hyphenFiles.isDirectory ((Path.ofText "/site").join (.ofText "-site")) = true ∧
      (∃ r p', runFrom (hereAtSite.surroundings.auditProject (.ofText "-site") false true)
        ⟨hyphenFiles, []⟩ = (.ok r, p')) ∧
      ¬ Agrees (run hereAtSite (auditArguments "-site"))
        (hereAtSite.surroundings.auditProject (.ofText "-site") false true) (·.exitCode true)
        ⟨hyphenFiles, []⟩ := by
  have hroot : hyphenFiles.isDirectory ((Path.ofText "/site").join (.ofText "-site")) = true := by
    decide
  have hvalue : ¬ IsValue (.command .audit) "-site" := by
    decide
  have hstands : (hereAtSite.surroundings.site (.ofText "-site") false).Stands hyphenFiles :=
    ⟨rfl, FileTree.isDirectory_resolve hroot⟩
  have hcall : ∃ r p', runFrom (hereAtSite.surroundings.auditProject (.ofText "-site") false true)
      ⟨hyphenFiles, []⟩ = (.ok r, p') := by
    obtain ⟨findings, -, -, hrun⟩ := runFrom_reported (p := ⟨hyphenFiles, []⟩) hstands
      (Catalog.not_raises_absent .exit) fun findings => ⟨"audit", findings, [], false, version⟩
    rw [if_neg (by decide)] at hrun
    exact ⟨_, _, runFrom_of_fst hrun⟩
  refine ⟨hroot, hcall, fun hagrees => ?_⟩
  obtain ⟨r, p', hcall⟩ := hcall
  obtain ⟨response, hrun, hstdout, -⟩ := hagrees.completed r p' hcall
  -- the session prints the usage
  obtain ⟨cause, hparse⟩ := parse_auditArguments_of_not_isValue hvalue
  cases (runFrom_run_of_stop hparse).symm.trans hrun
  have hhead := congrArg List.head? hstdout
  rw [head?_document] at hhead
  cases hhead

end CommandLine

end SiteAudit
