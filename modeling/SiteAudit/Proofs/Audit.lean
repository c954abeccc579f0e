import Mathlib.Data.List.Forall2
import SiteAudit.Proofs.Catalogs
import SiteAudit.Upgrade

/-!
# Runs of checks

An audit that comes to its end gives the findings of its checks in their order, where a check that
fails has none (`gives_of_audit`). It does so if its candidate files are found and no catalog asks
for the end of the program (`runFrom_audit`, `contained_of_check`).
-/

namespace SiteAudit

/-- The findings of a check; one that fails has none. -/
def findingsOf : Except Failure (List Finding) → List Finding
  | .ok findings => findings
  | .error _ => []

namespace Site

/-- The site at a root with the usual settings, seen from the top and without packages. -/
def usual (root : Path) : Site := ⟨root, .ofText "/", .default, .absent, .listed [], .inOrder⟩

variable {site : Site} {files : FileTree} {paths : List Path} {notices : List Notice}

/-- The findings are what the check gives after some notices. -/
def Gives (site : Site) (files : FileTree) (paths : List Path) (check : Check)
    (findings : List Finding) : Prop :=
  ∃ notices, findings = findingsOf (runFrom (check.run site files paths) notices).1

/-- A check that is run in an audit fails only as it must. -/
lemma runFrom_runCheck (site : Site) (files : FileTree) (paths : List Path) (check : Check)
    (notices : List Notice) :
    (runFrom (site.runCheck files paths check) notices).1 =
      match (runFrom (check.run site files paths) notices).1 with
      | .ok findings => .ok findings
      | .error e => if e.isHeldBack then .ok [] else .error e := by
  unfold runCheck
  rw [runFrom_tryCatch, runFrom_bind]
  rcases runFrom (check.run site files paths) notices with ⟨e | findings, notices'⟩
  · dsimp only
    cases e.isHeldBack with
    | true => rfl
    | false => rfl
  · rfl

/-- If it does not fail, it gives the findings of the check. -/
lemma findingsOf_of_runCheck {check : Check} {findings : List Finding}
    (h : (runFrom (site.runCheck files paths check) notices).1 = .ok findings) :
    findings = findingsOf (runFrom (check.run site files paths) notices).1 := by
  rw [runFrom_runCheck] at h
  cases hrun : (runFrom (check.run site files paths) notices).1 with
  | ok found =>
    rw [hrun] at h
    exact (Except.ok.inj h).symm
  | error e =>
    rw [hrun] at h
    dsimp only at h
    split at h
    · exact (Except.ok.inj h).symm
    · cases h

/-- A check whose failures are held back does not fail. -/
lemma runFrom_runCheck_of_contained {check : Check} (h : Contained (check.run site files paths))
    (notices : List Notice) :
    (runFrom (site.runCheck files paths check) notices).1 =
      .ok (findingsOf (runFrom (check.run site files paths) notices).1) := by
  rw [runFrom_runCheck]
  cases hrun : (runFrom (check.run site files paths) notices).1 with
  | ok found => rfl
  | error e =>
    dsimp only
    rw [if_pos (h notices e hrun)]
    rfl

/-- Nor do checks of this kind that are run one after the other. -/
lemma exists_runChecks {checks : List Check}
    (h : ∀ check ∈ checks, Contained (check.run site files paths)) (notices : List Notice) :
    ∃ found, (runFrom (checks.mapM (site.runCheck files paths)) notices).1 = .ok found := by
  induction checks generalizing notices with
  | nil => exact ⟨[], rfl⟩
  | cons check checks ih =>
    obtain ⟨hcheck, hchecks⟩ := List.forall_mem_cons.1 h
    have hone := runFrom_of_fst (runFrom_runCheck_of_contained hcheck notices)
    obtain ⟨found, hfound⟩ := ih hchecks (runFrom (site.runCheck files paths check) notices).2
    rw [runFrom_mapM_cons, hone]
    dsimp only
    rw [runFrom_of_fst hfound]
    exact ⟨_, rfl⟩

/-- Checks that are run one after the other give what each of them gives. -/
lemma gives_of_runChecks {checks : List Check} {found : List (List Finding)}
    (h : (runFrom (checks.mapM (site.runCheck files paths)) notices).1 = .ok found) :
    List.Forall₂ (site.Gives files paths) checks found := by
  induction checks generalizing notices found with
  | nil =>
    cases h
    exact .nil
  | cons check checks ih =>
    rw [List.mapM_cons] at h
    obtain ⟨findings, notices', hone, h⟩ := runFrom_bind_eq_ok.1 (runFrom_of_fst h)
    obtain ⟨rest, notices'', hrest, h⟩ := runFrom_bind_eq_ok.1 h
    cases h
    exact .cons ⟨notices, findingsOf_of_runCheck (congrArg Prod.fst hone)⟩
      (ih (congrArg Prod.fst hrest))

/-- An audit that comes to its end gives the findings of its checks in their order. -/
lemma gives_of_audit {checks : List Check} {findings : List Finding}
    (hc : (runFrom (site.candidates files) notices).1 = .ok paths)
    (h : (runFrom (site.audit checks files) notices).1 = .ok findings) :
    ∃ found, findings = found.flatten ∧ List.Forall₂ (site.Gives files paths) checks found := by
  obtain ⟨paths', _, hc', h⟩ := runFrom_bind_eq_ok.1 (runFrom_of_fst h)
  cases hc.symm.trans (congrArg Prod.fst hc')
  obtain ⟨found, _, hfound, h⟩ := runFrom_bind_eq_ok.1 h
  cases h
  exact ⟨found, rfl, gives_of_runChecks (congrArg Prod.fst hfound)⟩

/-- It does so if all failures of its checks are held back. -/
lemma runFrom_audit {checks : List Check}
    (hchecks : ∀ check ∈ checks, Contained (check.run site files paths))
    (hc : (runFrom (site.candidates files) notices).1 = .ok paths) :
    ∃ found, (runFrom (site.audit checks files) notices).1 = .ok found.flatten ∧
      List.Forall₂ (site.Gives files paths) checks found := by
  obtain ⟨found, hfound⟩ :=
    exists_runChecks hchecks (runFrom (site.candidates files) notices).2
  refine ⟨found, ?_, gives_of_runChecks hfound⟩
  unfold audit
  rw [runFrom_bind, runFrom_of_fst hc]
  dsimp only
  rw [runFrom_bind, runFrom_of_fst hfound]
  rfl

/-- What is known of every run of the checks is known of what they give. -/
lemma forall₂_of_gives {α : Type} {R : α → List Finding → Prop} {checks : List Check} {l : List α}
    {found : List (List Finding)}
    (hruns : List.Forall₂ (fun check a => ∀ notices,
      R a (findingsOf (runFrom (check.run site files paths) notices).1)) checks l)
    (hgives : List.Forall₂ (site.Gives files paths) checks found) : List.Forall₂ R l found := by
  induction hruns generalizing found with
  | nil =>
    cases hgives
    exact .nil
  | cons hone _ ih =>
    cases hgives with
    | cons hgive hrest =>
      obtain ⟨notices, rfl⟩ := hgive
      exact .cons (hone notices) (ih hrest)

/-- What a check of an audit gives after all notices is among the findings of the audit. -/
lemma subset_audit {checks : List Check} {check : Check} {findings all : List Finding}
    (hc : (runFrom (site.candidates files) notices).1 = .ok paths) (hmem : check ∈ checks)
    (hcheck : ∀ notices, (runFrom (check.run site files paths) notices).1 = .ok findings)
    (h : (runFrom (site.audit checks files) notices).1 = .ok all) : findings ⊆ all := by
  obtain ⟨found, rfl, hgives⟩ := gives_of_audit hc h
  have hfound : findings ∈ found := by
    clear h
    induction hgives with
    | nil => cases hmem
    | @cons other given checks found hgive _ ih =>
      rcases List.mem_cons.1 hmem with rfl | hmem
      · obtain ⟨before, rfl⟩ := hgive
        rw [hcheck before]
        exact List.mem_cons_self ..
      · exact List.mem_cons_of_mem _ (ih hmem)
  exact fun finding h => List.mem_flatten_of_mem hfound h

end Site

/-! ### Failures of checks -/

section Contained
variable {site : Site} {files : FileTree} {paths : List Path}

/-- Lines are read without failure, or with one that is held back. -/
lemma Lines.contained_ofFile (path : Path) : Contained (ofFile files path) := by
  unfold ofFile
  split
  · exact .pure _
  · exact Contained.bind (.of_fst fun _ => rfl) fun _ => .pure _

/-- A path that does not lie below the root is a failure that is held back. -/
lemma contained_relativeText (path root : Path) : Contained (relativeText path root) := by
  unfold relativeText
  split
  · exact .pure _
  · exact .throw rfl

/-- So is a configuration with a tag that cannot take its text. -/
lemma Config.contained_load (root : Path) (name : Text) : Contained (load files root name) := by
  unfold load
  dsimp only
  split
  · split
    · exact Contained.bind (.of_fst fun _ => rfl) fun _ => .pure _
    · exact .pure _
    · exact .throw rfl
  · exact .pure _

/-- Findings file by file fail as those of one of the files do. -/
lemma Contained.flatten {α : Type} {l : List α} {f : α → Survey (List Finding)}
    (h : ∀ a ∈ l, Contained (f a)) : Contained (do return (← l.mapM f).flatten) :=
  (Contained.mapM h).bind fun _ => .pure _

/-- The check for manifests ends the program only if the catalog does. -/
lemma Manifests.contained_check (h : ¬ site.catalog.Raises .exit) :
    Contained (check.run site files paths) := by
  have hpublished : Contained (published site.catalog) := by
    intro notices e he
    obtain ⟨how, -, -, hraises⟩ := ((answers_published site.catalog).failed notices e).1 he
    exact absurd hraises h
  have hpaths : Contained (Manifests.paths site files) := by
    refine hpublished.bind fun answer => ?_
    cases answer with
    | none => exact .pure _
    | some published =>
      dsimp only
      split
      · exact .pure _
      · exact .throw rfl
  exact hpaths.bind fun _ => .pure _

/-- So the check of the configuration is contained. -/
lemma Contract.contained_check : Contained (check.run site files paths) := by
  refine (Config.contained_load _ _).bind fun loaded => ?_
  match loaded with
  | .error _ => exact .pure _
  | .ok none => exact .pure _
  | .ok (some _) => exact .pure _

/-- The check of the two includes reads lines only. -/
lemma Legacy.contained_assetCheck : Contained (assetCheck.run site files paths) := by
  refine Contained.flatten fun file _ => ?_
  unfold assetFindings
  dsimp only
  split
  · exact (Lines.contained_ofFile _).bind fun _ => .pure _
  · exact .pure _

/-- The check of candidate files also asks for their names below the root. -/
lemma Legacy.contained_patternCheck : Contained (patternCheck.run site files paths) :=
  Contained.flatten fun path _ => (contained_relativeText path site.root).bind fun _ =>
    (Lines.contained_ofFile path).bind fun _ => .pure _

/-- The check of runtime files loads the configuration and reads lines. -/
lemma RemoteLoader.contained_check : Contained (check.run site files paths) := by
  have hroots : Contained (site.locator.roots Package.distill) := by
    unfold Locator.roots
    split
    · exact .pure _
    · dsimp only
      split
      · exact Contained.bind (.of_fst fun _ => rfl) fun _ => .pure _
      · exact .pure _
  have hallowed : Contained (isAllowed site files) := by
    refine (Config.contained_load _ _).bind fun loaded => ?_
    split
    · exact .pure _
    · exact .pure _
  refine hallowed.bind fun allowed => ?_
  split
  · exact .pure _
  · refine Contained.bind (hroots.bind fun _ => .pure _) fun places => ?_
    refine Contained.flatten fun path _ => ?_
    exact (Lines.contained_ofFile _).bind fun _ => .pure _

/-- The check of overrides loads the configuration. -/
lemma Overrides.contained_check : Contained (check.run site files paths) := by
  refine (Config.contained_load _ _).bind fun loaded => ?_
  split
  · split
    · exact .pure _
    · exact .pure _
  · exact .pure _

/-- The failures of all checks of an audit are held back unless the catalog ends the program. -/
lemma contained_of_check (h : ¬ site.catalog.Raises .exit) :
    ∀ check ∈ Check.all, Contained (check.run site files paths) := by
  simp only [Check.all, List.forall_mem_cons]
  exact ⟨Manifests.contained_check h, Contract.contained_check, Legacy.contained_assetCheck,
    Legacy.contained_patternCheck, RemoteLoader.contained_check, Overrides.contained_check,
    fun _ h => absurd h List.not_mem_nil⟩

/-- An audit ends as its catalog asks for it. -/
lemma Site.runFrom_audit_of_raises {notices : List Notice} (h : site.catalog.Raises .exit)
    (hc : (runFrom (site.candidates files) notices).1 = .ok paths) :
    (runFrom (site.audit Check.all files) notices).1 = .error (.raised .exit) := by
  have hpublished (notices : List Notice) :
      (runFrom (Manifests.published site.catalog) notices).1 = .error (.raised .exit) :=
    ((Manifests.answers_published site.catalog).failed notices _).2 ⟨_, rfl, rfl, h⟩
  have hcheck (notices : List Notice) :
      (runFrom (Manifests.check.run site files paths) notices).1 = .error (.raised .exit) := by
    have hrun : Manifests.check.run site files paths =
        (Manifests.published site.catalog >>= _ >>= _) := rfl
    rw [hrun, runFrom_bind, runFrom_bind, runFrom_of_fst (hpublished notices)]
  -- the check for manifests is the first one
  unfold audit
  rw [runFrom_bind, runFrom_of_fst hc]
  dsimp only
  rw [runFrom_bind, Check.all, runFrom_mapM_cons]
  have hone := runFrom_runCheck site files paths Manifests.check
    (runFrom (site.candidates files) notices).2
  rw [hcheck] at hone
  rw [runFrom_of_fst hone]
  rfl

end Contained

end SiteAudit
