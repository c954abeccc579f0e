import SiteAudit.Check.Manifests
import SiteAudit.Proofs.Run

/-!
# What catalogs answer

A package that can be asked publishes the paths that its answer stands for (`Answer.StandsFor`). A
catalog has a list exactly if it lists paths (`Catalog.Lists`), and it fails exactly if it raises
what nothing in it holds back (`Catalog.Raises`): what the core of the theme raises while it is
looked for something to ask, and any demand to end the program (`Catalog.answers_manifests`).
-/

namespace SiteAudit

/-- The survey fails exactly as it raises, and it has a list exactly if it lists one. -/
structure Answers (x : Survey (Option (List Path))) (lists : List Path → Prop)
    (raises : Raised → Prop) : Prop where
  failed : ∀ notices e, (runFrom x notices).1 = .error e ↔ ∃ how, e = .raised how ∧ raises how
  answered : ∀ notices paths, (runFrom x notices).1 = .ok (some paths) ↔ lists paths

section Answers
variable {x : Survey (Option (List Path))} {lists lists' : List Path → Prop}
  {raises raises' : Raised → Prop}

/-- A survey that never fails has one answer. -/
lemma Answers.of_ok {answer : Option (List Path)}
    (hx : ∀ notices, (runFrom x notices).1 = .ok answer)
    (hlists : ∀ paths, answer = some paths ↔ lists paths) (hraises : ∀ how, ¬ raises how) :
    Answers x lists raises where
  failed notices e := by
    rw [hx]
    refine iff_of_false (fun h => by cases h) ?_
    rintro ⟨how, -, h⟩
    exact hraises how h
  answered notices paths := by rw [hx, Except.ok.injEq, hlists]

/-- A survey that always fails raises in one way. -/
lemma Answers.of_raised {how : Raised}
    (hx : ∀ notices, (runFrom x notices).1 = .error (.raised how))
    (hlists : ∀ paths, ¬ lists paths) (hraises : ∀ how', raises how' ↔ how' = how) :
    Answers x lists raises where
  failed notices e := by
    rw [hx]
    simp [hraises, eq_comm]
  answered notices paths := by
    rw [hx]
    exact iff_of_false (fun h => by cases h) (hlists paths)

/-- What is listed and raised may be said in other words. -/
lemma Answers.congr (h : Answers x lists raises) (hlists : ∀ paths, lists paths ↔ lists' paths)
    (hraises : ∀ how, raises how ↔ raises' how) : Answers x lists' raises' := by
  obtain rfl : lists = lists' := funext fun paths => propext (hlists paths)
  obtain rfl : raises = raises' := funext fun how => propext (hraises how)
  exact h

end Answers

/-! ### Answers of packages -/

namespace Package

/-- An item of an answer can be read as the path. -/
inductive Answer.ReadsAs : Answer → Path → Prop
  | text {t} : ReadsAs (.text t) (Path.ofText t)
  | path {p} : ReadsAs (.path p) p
  | other {counts p items ending} : ReadsAs (.other counts (.ok p) items ending) p

/-- The answer stands for the paths. -/
inductive Answer.StandsFor : Answer → List Path → Prop
  /-- What counts as nothing stands for no paths. -/
  | emptyText : StandsFor (.text []) []
  | nothing {asPath items ending} : StandsFor (.other (.ok false) asPath items ending) []
  /-- A text or a path stands for itself. -/
  | text {t} (h : t ≠ []) : StandsFor (.text t) [Path.ofText t]
  | path {p} : StandsFor (.path p) [p]
  /-- Anything else stands for its items. -/
  | items {asPath items paths} (h : List.Forall₂ Answer.ReadsAs items paths) :
    StandsFor (.other (.ok true) asPath items none) paths

/-- The answer raises when it is taken for paths. -/
inductive Answer.Raises : Answer → Raised → Prop
  /-- It raises when it is asked whether it counts as something. -/
  | counting {how asPath items ending} : Raises (.other (.error how) asPath items ending) how
  /-- One of its items raises, after others that can be read. -/
  | item {how asPath ending before paths counts items itemEnding after}
    (h : List.Forall₂ Answer.ReadsAs before paths) :
    Raises (.other (.ok true) asPath
      (before ++ .other counts (.error how) items itemEnding :: after) ending) how
  /-- It raises after its items. -/
  | ending {how asPath items paths} (h : List.Forall₂ Answer.ReadsAs items paths) :
    Raises (.other (.ok true) asPath items (some how)) how

/-- What the provider raises is held back by no one. -/
inductive Provider.Escapes : Provider → Raised → Prop
  | hidden {how} : Escapes (.hidden how) how
  | asked : Escapes (.raising .exit) .exit
  | answer {answer} (h : answer.Raises .exit) : Escapes (.answering answer) .exit

/-- The provider that is come to when the package is asked. -/
inductive Offers : Package → Provider → Prop
  | loaded {location provider installed} : Offers ⟨some (location, provider), installed⟩ provider
  | installed {location provider} : Offers ⟨none, some (location, .loaded provider)⟩ provider

/-- What the package raises is held back by no one. -/
inductive Escapes : Package → Raised → Prop
  | provider {package provider how} (hoffers : Offers package provider)
    (h : provider.Escapes how) : Escapes package how
  /-- The demand to end the program is made when the package is imported. -/
  | imported {location} : Escapes ⟨none, some (location, .raising .exit)⟩ .exit

variable {answer : Answer} {path : Path} {paths : List Path} {how : Raised}

/-- An item is read as the path that it is, or that it gives. -/
lemma Answer.itemPath_eq_ok : answer.itemPath = .ok path ↔ answer.ReadsAs path := by
  constructor
  · intro h
    cases answer with
    | text t => exact Except.ok.inj h ▸ .text
    | path p => exact Except.ok.inj h ▸ .path
    | other counts asPath items ending =>
      obtain rfl : asPath = .ok path := h
      exact .other
  · intro h
    cases h with
    | text => rfl
    | path => rfl
    | other => rfl

/-- An item that raises when it is asked for its path is neither a text nor a path. -/
lemma Answer.itemPath_eq_error : answer.itemPath = .error how ↔
    ∃ counts items ending, answer = .other counts (.error how) items ending := by
  constructor
  · intro h
    cases answer with
    | text t => cases h
    | path p => cases h
    | other counts asPath items ending =>
      obtain rfl : asPath = .error how := h
      exact ⟨_, _, _, rfl⟩
  · rintro ⟨counts, items, ending, rfl⟩
    rfl

/-- Items are read one by one, up to the end. -/
lemma Answer.itemPaths_eq_ok {ending : Option Raised} {items : List Answer} :
    itemPaths ending items = .ok paths ↔
      ending = none ∧ List.Forall₂ Answer.ReadsAs items paths := by
  induction items generalizing paths with
  | nil =>
    cases ending with
    | none => simp [itemPaths, eq_comm]
    | some how => simp [itemPaths]
  | cons item items ih =>
    rw [itemPaths, bind_eq_ok]
    simp only [bind_eq_ok, ih, itemPath_eq_ok]
    constructor
    · rintro ⟨path, hpath, rest, ⟨hending, hrest⟩, h⟩
      cases h
      exact ⟨hending, .cons hpath hrest⟩
    · rintro ⟨hending, h⟩
      cases h with
      | cons hpath hrest => exact ⟨_, hpath, _, ⟨hending, hrest⟩, rfl⟩

/-- They raise as the first of them does that cannot be read, or as their end does. -/
lemma Answer.itemPaths_eq_error {ending : Option Raised} {items : List Answer} :
    itemPaths ending items = .error how ↔
      (∃ before paths counts inner innerEnding after,
        items = before ++ .other counts (.error how) inner innerEnding :: after ∧
          List.Forall₂ Answer.ReadsAs before paths) ∨
      ending = some how ∧ ∃ paths, List.Forall₂ Answer.ReadsAs items paths := by
  induction items with
  | nil =>
    cases ending with
    | none => simp [itemPaths]
    | some how' =>
      simp only [itemPaths, Except.error.injEq, Option.some.injEq]
      refine ⟨fun h => .inr ⟨h, [], .nil⟩, ?_⟩
      rintro (⟨before, _, _, _, _, _, h, -⟩ | ⟨h, -⟩)
      · simp at h
      · exact h
  | cons item items ih =>
    rw [itemPaths, bind_eq_error, itemPath_eq_error]
    simp only [bind_eq_error, ih, itemPath_eq_ok]
    constructor
    · rintro (⟨counts, inner, innerEnding, rfl⟩ | ⟨path, hpath, h⟩)
      · exact .inl ⟨[], [], counts, inner, innerEnding, items, rfl, .nil⟩
      rcases h with h | ⟨_, -, h⟩
      · rcases h with
          ⟨before, paths, counts, inner, innerEnding, after, rfl, h⟩ | ⟨hending, paths, h⟩
        · exact .inl ⟨item :: before, path :: paths, _, _, _, _, rfl, .cons hpath h⟩
        · exact .inr ⟨hending, path :: paths, .cons hpath h⟩
      · cases h
    · rintro (⟨before, paths, counts, inner, innerEnding, after, h, hbefore⟩ | ⟨hending, paths, h⟩)
      · cases hbefore with
        | nil =>
          cases h
          exact .inl ⟨counts, inner, innerEnding, rfl⟩
        | cons hpath hbefore =>
          cases h
          exact .inr ⟨_, hpath, .inl (.inl ⟨_, _, _, _, _, _, rfl, hbefore⟩)⟩
      · cases h with
        | cons hpath h => exact .inr ⟨_, hpath, .inl (.inr ⟨hending, _, h⟩)⟩

/-- An answer that can be taken for paths stands for them. -/
lemma Answer.paths_eq_ok : answer.paths = .ok paths ↔ answer.StandsFor paths := by
  constructor
  · intro h
    cases answer with
    | text t =>
      cases t with
      | nil => exact Except.ok.inj h ▸ .emptyText
      | cons c t => exact Except.ok.inj h ▸ .text (List.cons_ne_nil c t)
    | path p => exact Except.ok.inj h ▸ .path
    | other counts asPath items ending =>
      match counts, h with
      | .ok false, h => exact Except.ok.inj h ▸ .nothing
      | .ok true, h =>
        obtain ⟨rfl, hitems⟩ := itemPaths_eq_ok.1 h
        exact .items hitems
  · intro h
    cases h with
    | emptyText => rfl
    | nothing => rfl
    | @text t h =>
      obtain ⟨c, t, rfl⟩ := List.exists_cons_of_ne_nil h
      rfl
    | path => rfl
    | items h => exact itemPaths_eq_ok.2 ⟨rfl, h⟩

/-- Any other one raises. -/
lemma Answer.paths_eq_error : answer.paths = .error how ↔ answer.Raises how := by
  constructor
  · intro h
    cases answer with
    | text t =>
      cases t with
      | nil => cases h
      | cons c t => cases h
    | path p => cases h
    | other counts asPath items ending =>
      match counts, h with
      | .error how', h => exact Except.error.inj h ▸ .counting
      | .ok false, h => cases h
      | .ok true, h =>
        rcases itemPaths_eq_error.1 h with
          ⟨before, paths, counts, inner, innerEnding, after, rfl, hbefore⟩ | ⟨rfl, paths, h⟩
        · exact .item hbefore
        · exact .ending h
  · intro h
    cases h with
    | counting => rfl
    | item h => exact itemPaths_eq_error.2 (.inl ⟨_, _, _, _, _, _, rfl, h⟩)
    | ending h => exact itemPaths_eq_error.2 (.inr ⟨rfl, _, h⟩)

/-- A list that holds something else than texts stands for no paths. -/
example : Answer.paths (Json.array [.text "1.0.0_to_1.1.0.yml", .int 42]) = .error .failure := rfl

/-! ### Packages -/

/-- Only a demand to end the program gets through to whoever asks. -/
lemma answers_asked (n : Notice) (answer : Except Raised (List Path)) :
    Answers (asked n answer) (fun paths => answer = .ok paths)
      fun how => how = .exit ∧ answer = .error .exit := by
  match answer with
  | .ok found => exact .of_ok (fun _ => rfl) (fun paths => by simp) fun how h => by cases h.2
  | .error .failure =>
    exact .of_ok (fun _ => rfl) (fun paths => by simp) fun how h => by cases h.2
  | .error .exit => exact .of_raised (fun _ => rfl) (fun paths => by simp) fun how => by simp

/-- A provider publishes what its answer stands for. -/
lemma Provider.answers_manifests (provider : Provider) (name : Text) :
    Answers (provider.manifests name)
      (fun paths => ∃ answer, provider = .answering answer ∧ answer.StandsFor paths)
      provider.Escapes := by
  cases provider with
  | missing => exact .of_ok (fun _ => rfl) (fun paths => by simp) fun how h => by cases h
  | hidden how =>
    refine .of_raised (fun _ => rfl) (fun paths => by simp) fun how' => ⟨?_, ?_⟩
    · rintro ⟨⟩
      rfl
    · rintro rfl
      exact .hidden
  | raising how =>
    refine (answers_asked (.providerFailed name) (.error how)).congr (fun paths => by simp) ?_
    intro how'
    constructor
    · rintro ⟨rfl, h⟩
      cases h
      exact .asked
    · intro h
      cases h
      exact ⟨rfl, rfl⟩
  | answering answer =>
    refine (answers_asked (.providerFailed name) answer.paths).congr ?_ ?_
    · intro paths
      simp only [Provider.answering.injEq, exists_eq_left', Answer.paths_eq_ok]
    · intro how
      rw [Answer.paths_eq_error]
      constructor
      · rintro ⟨rfl, h⟩
        exact .answer h
      · intro h
        cases h with
        | answer h => exact ⟨rfl, h⟩

/-- So does a package, if it offers a provider. -/
lemma answers_manifests (package : Package) (name : Text) :
    Answers (package.manifests name)
      (fun paths => ∃ answer, package.Offers (.answering answer) ∧ answer.StandsFor paths)
      package.Escapes := by
  -- what a package offers is one provider or none
  have hone : ∀ provider, (∀ other, package.Offers other ↔ other = provider) →
      (∀ how, package.Escapes how → provider.Escapes how) →
      package.manifests name = provider.manifests name →
      Answers (package.manifests name)
        (fun paths => ∃ answer, package.Offers (.answering answer) ∧ answer.StandsFor paths)
        package.Escapes := by
    intro provider hoffers hescapes hmanifests
    rw [hmanifests]
    refine (provider.answers_manifests name).congr ?_ fun how => ⟨?_, hescapes how⟩
    · simp only [hoffers, eq_comm, implies_true]
    · exact .provider ((hoffers provider).2 rfl)
  match package with
  | ⟨some (location, provider), installed⟩ =>
    refine hone provider (fun other => ⟨?_, ?_⟩) (fun how h => ?_) rfl
    · rintro ⟨⟩
      rfl
    · rintro rfl
      exact .loaded
    · cases h with
      | provider hoffers h =>
        cases hoffers
        exact h
  | ⟨none, some (location, .loaded provider)⟩ =>
    refine hone provider (fun other => ⟨?_, ?_⟩) (fun how h => ?_) rfl
    · rintro ⟨⟩
      rfl
    · rintro rfl
      exact .installed
    · cases h with
      | provider hoffers h =>
        cases hoffers
        exact h
  | ⟨none, some (location, .unavailable)⟩ =>
    refine .of_ok (fun _ => rfl) (fun paths => ?_) fun how h => ?_
    · exact iff_of_false (fun h => by cases h) fun ⟨_, h, _⟩ => by cases h
    · cases h with
      | provider hoffers _ => cases hoffers
  | ⟨none, some (location, .raising how)⟩ =>
    refine (answers_asked (.importFailed name) (.error how)).congr (fun paths => ?_) fun how' => ?_
    · exact iff_of_false (fun h => by cases h) fun ⟨_, h, _⟩ => by cases h
    · constructor
      · rintro ⟨rfl, h⟩
        cases h
        exact .imported
      · intro h
        cases h with
        | provider hoffers _ => cases hoffers
        | imported => exact ⟨rfl, rfl⟩
  | ⟨none, none⟩ =>
    refine .of_ok (fun _ => rfl) (fun paths => ?_) fun how h => ?_
    · exact iff_of_false (fun h => by cases h) fun ⟨_, h, _⟩ => by cases h
    · cases h with
      | provider hoffers _ => cases hoffers

end Package

/-! ### Catalogs -/

namespace Catalog

/-- The catalog lists the paths: they are given, or the core of the theme publishes them. -/
inductive Lists : Catalog → List Path → Prop
  | listed {paths} : Lists (.listed paths) paths
  | published {host package answer paths} (hpackage : host.lookup Package.core = some package)
    (hoffers : package.Offers (.answering answer)) (hanswer : answer.StandsFor paths) :
    Lists (.published host) paths

/-- What the catalog raises is held back by no one in it. -/
inductive Raises : Catalog → Raised → Prop
  | raising {how} : Raises (.raising how) how
  | published {host package how} (hpackage : host.lookup Package.core = some package)
    (h : package.Escapes how) : Raises (.published host) how

/-- A catalog fails exactly as it raises, and it has a list exactly if it lists paths. -/
lemma answers_manifests (catalog : Catalog) :
    Answers catalog.manifests catalog.Lists catalog.Raises := by
  cases catalog with
  | absent =>
    refine .of_ok (fun _ => rfl) (fun paths => ?_) fun how h => by cases h
    exact iff_of_false (fun h => by cases h) fun h => by cases h
  | listed listed =>
    refine .of_ok (fun _ => rfl) (fun paths => ?_) fun how h => by cases h
    rw [Option.some.injEq]
    constructor
    · rintro rfl
      exact .listed
    · rintro ⟨⟩
      rfl
  | raising how =>
    refine .of_raised (fun _ => rfl) (fun paths h => by cases h) fun how' => ⟨?_, ?_⟩
    · rintro ⟨⟩
      rfl
    · rintro rfl
      exact .raising
  | published host =>
    unfold manifests
    dsimp only
    cases hpackage : host.lookup Package.core with
    | none =>
      refine .of_ok (fun _ => rfl) (fun paths => ?_) fun how h => ?_
      · refine iff_of_false (fun h => by cases h) fun h => ?_
        cases h with
        | published h => cases hpackage.symm.trans h
      · cases h with
        | published h => cases hpackage.symm.trans h
    | some package =>
      refine (package.answers_manifests Package.core).congr (fun paths => ?_) fun how => ?_
      · constructor
        · rintro ⟨answer, hoffers, hanswer⟩
          exact .published hpackage hoffers hanswer
        · intro h
          cases h with
          | published h hoffers hanswer =>
            cases hpackage.symm.trans h
            exact ⟨_, hoffers, hanswer⟩
      · constructor
        · exact .published hpackage
        · intro h
          cases h with
          | published h hescapes =>
            cases hpackage.symm.trans h
            exact hescapes

/-- Where there is no catalog, nothing is raised. -/
lemma not_raises_absent (how : Raised) : ¬ absent.Raises how := fun h => by cases h

end Catalog

/-! ### What is published -/

namespace Manifests

/-- What a catalog publishes, one that fails being taken for none unless it ends the program. -/
lemma runFrom_published (catalog : Catalog) (notices : List Notice) :
    (runFrom (Manifests.published catalog) notices).1 =
      match (runFrom catalog.manifests notices).1 with
      | .ok answer => .ok answer
      | .error e => if e.isHeldBack then .ok none else .error e := by
  unfold Manifests.published
  rw [runFrom_tryCatch]
  rcases runFrom catalog.manifests notices with ⟨e | answer, notices'⟩
  · dsimp only
    split
    · rfl
    · rfl
  · rfl

/-- A check takes what is listed, and lets only the demand to end the program pass. -/
lemma answers_published (catalog : Catalog) :
    Answers (Manifests.published catalog) catalog.Lists
      fun how => how = .exit ∧ catalog.Raises .exit := by
  have hcatalog := catalog.answers_manifests
  constructor
  · intro notices e
    have hexit := (hcatalog.failed notices (.raised .exit)).symm
    simp only [Failure.raised.injEq, exists_eq_left'] at hexit
    simp only [← and_assoc, exists_and_right, exists_eq_right, hexit, runFrom_published]
    cases hrun : (runFrom catalog.manifests notices).1 with
    | ok answer => simp
    | error failure =>
      obtain ⟨how, rfl, -⟩ := (hcatalog.failed notices failure).1 hrun
      cases how with
      | failure => simp [Failure.isHeldBack]
      | exit => simp [Failure.isHeldBack, eq_comm]
  · intro notices paths
    rw [← hcatalog.answered notices, runFrom_published]
    cases (runFrom catalog.manifests notices).1 with
    | ok answer => rfl
    | error e =>
      dsimp only
      split
      · exact iff_of_false (fun h => by cases h) fun h => by cases h
      · exact iff_of_false (fun h => by cases h) fun h => by cases h

end Manifests

end SiteAudit
