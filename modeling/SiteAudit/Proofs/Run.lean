import Mathlib.Data.List.Forall2
import Mathlib.Tactic.Common
import SiteAudit.Run

/-!
# Steps of runs

How a step that may fail is taken apart into its parts, with and without a state (`bind_eq_ok`,
`runFrom_bind_eq_ok`), what is known of its results and failures (`Returns`, `Contained`), and that
what a survey finds out does not depend on the notices given before it (`Steady`).
-/

namespace SiteAudit

/-- Two steps succeed if the first one does and then the second one. -/
lemma bind_eq_ok {ε α β : Type} {x : Except ε α} {f : α → Except ε β} {b : β} :
    (x >>= f) = .ok b ↔ ∃ a, x = .ok a ∧ f a = .ok b := by
  cases x with
  | error e =>
    constructor
    · intro h
      cases h
    · rintro ⟨_, h, _⟩
      cases h
  | ok a =>
    constructor
    · intro h
      exact ⟨a, rfl, h⟩
    · rintro ⟨_, e, h⟩
      cases e
      exact h

/-- Two second steps come to the same if they do for every result of the first one. -/
lemma bind_congr_of_ok {ε α β : Type} {x : Except ε α} {f g : α → Except ε β}
    (h : ∀ a, x = .ok a → f a = g a) : x >>= f = x >>= g := by
  cases x with
  | error e => rfl
  | ok a => exact h a rfl

/-- Two steps fail if the first one does, or the second one after it. -/
lemma bind_eq_error {ε α β : Type} {x : Except ε α} {f : α → Except ε β} {e : ε} :
    (x >>= f) = .error e ↔ x = .error e ∨ ∃ a, x = .ok a ∧ f a = .error e := by
  cases x with
  | error e' =>
    constructor
    · intro h
      cases h
      exact .inl rfl
    · rintro (h | ⟨_, h, _⟩)
      · cases h
        rfl
      · cases h
  | ok a =>
    constructor
    · exact fun h => .inr ⟨a, rfl, h⟩
    · rintro (h | ⟨_, h, h'⟩)
      · cases h
      · cases h
        exact h'

/-- A step for each element of a list succeeds if all of them do. -/
lemma mapM_eq_ok {ε α β : Type} {f : α → Except ε β} {l : List α} {bs : List β} :
    l.mapM f = .ok bs ↔ List.Forall₂ (fun a b => f a = .ok b) l bs := by
  induction l generalizing bs with
  | nil =>
    rw [List.forall₂_nil_left_iff]
    exact ⟨fun h => (Except.ok.inj h).symm, fun h => congrArg Except.ok h.symm⟩
  | cons a l ih =>
    rw [List.mapM_cons, bind_eq_ok, List.forall₂_cons_left_iff]
    refine exists_congr fun b => ?_
    rw [bind_eq_ok]
    constructor
    · rintro ⟨hb, rest, hrest, h⟩
      exact ⟨rest, hb, ih.1 hrest, (Except.ok.inj h).symm⟩
    · rintro ⟨rest, hb, hrest, rfl⟩
      exact ⟨hb, rest, ih.2 hrest, rfl⟩

/-- It fails because of one of the steps. -/
lemma mapM_eq_error {ε α β : Type} {f : α → Except ε β} {l : List α} {e : ε}
    (h : l.mapM f = .error e) : ∃ a ∈ l, f a = .error e := by
  induction l with
  | nil => cases h
  | cons a l ih =>
    rw [List.mapM_cons] at h
    rcases bind_eq_error.1 h with h | ⟨b, _, h⟩
    · exact ⟨a, List.mem_cons_self .., h⟩
    · rcases bind_eq_error.1 h with h | ⟨_, _, h⟩
      · obtain ⟨a', hmem, ha'⟩ := ih h
        exact ⟨a', List.mem_cons_of_mem a hmem, ha'⟩
      · cases h

/-- It succeeds exactly if each step does. -/
lemma exists_mapM_eq_ok {ε α β : Type} {f : α → Except ε β} {l : List α} :
    (∃ bs, l.mapM f = .ok bs) ↔ ∀ a ∈ l, ∃ b, f a = .ok b := by
  induction l with
  | nil => exact iff_of_true ⟨[], rfl⟩ fun _ h => absurd h List.not_mem_nil
  | cons a l ih =>
    rw [List.forall_mem_cons, ← ih]
    constructor
    · rintro ⟨bs, h⟩
      obtain ⟨b, rest, hb, hrest, -⟩ := List.forall₂_cons_left_iff.1 (mapM_eq_ok.1 h)
      exact ⟨⟨b, hb⟩, rest, mapM_eq_ok.2 hrest⟩
    · rintro ⟨⟨b, hb⟩, rest, hrest⟩
      exact ⟨b :: rest, mapM_eq_ok.2 (.cons hb (mapM_eq_ok.1 hrest))⟩

/-- Steps that are the same for all elements of a list are the same for the list. -/
lemma mapM_congr {ε α β : Type} {f g : α → Except ε β} {l : List α} (h : ∀ a ∈ l, f a = g a) :
    l.mapM f = l.mapM g := by
  induction l with
  | nil => rfl
  | cons a l ih =>
    obtain ⟨ha, hl⟩ := List.forall_mem_cons.1 h
    rw [List.mapM_cons, List.mapM_cons, ha, ih hl]

section State
variable {σ α β : Type}

/-- The result of a step from a state, and the state after it. -/
def runFrom (x : ExceptT Failure (StateM σ) α) (s : σ) : Except Failure α × σ := x.run.run s

/-- A step ends with its result in some state. -/
lemma runFrom_of_fst {x : ExceptT Failure (StateM σ) α} {s : σ} {r : Except Failure α}
    (h : (runFrom x s).1 = r) : runFrom x s = (r, (runFrom x s).2) := by
  rw [← h]

/-- A result is there without a step. -/
@[simp] lemma runFrom_pure (a : α) (s : σ) :
    runFrom (pure a : ExceptT Failure (StateM σ) α) s = (.ok a, s) := rfl

/-- A failure leaves everything as it was. -/
@[simp] lemma runFrom_throw (e : Failure) (s : σ) :
    runFrom (throw e : ExceptT Failure (StateM σ) α) s = (.error e, s) := rfl

/-- The first step is run first, and the second one from where it ends. -/
lemma runFrom_bind (x : ExceptT Failure (StateM σ) α) (f : α → ExceptT Failure (StateM σ) β)
    (s : σ) :
    runFrom (x >>= f) s = match runFrom x s with
      | (.ok a, s') => runFrom (f a) s'
      | (.error e, s') => (.error e, s') := by
  have h : runFrom (x >>= f) s = ExceptT.bindCont f (runFrom x s).1 (runFrom x s).2 := rfl
  rw [h]
  rcases runFrom x s with ⟨e | a, s'⟩
  · rfl
  · rfl

/-- After a step with a known result the next one gives what it gives from any state. -/
lemma runFrom_bind_fst {x : ExceptT Failure (StateM σ) α} {f : α → ExceptT Failure (StateM σ) β}
    {a : α} {s : σ} {result : Except Failure β} (hx : (runFrom x s).1 = .ok a)
    (hf : ∀ s, (runFrom (f a) s).1 = result) : (runFrom (x >>= f) s).1 = result := by
  rw [runFrom_bind, runFrom_of_fst hx]
  exact hf _

/-- Two steps succeed if the first one does and then the second one. -/
lemma runFrom_bind_eq_ok {x : ExceptT Failure (StateM σ) α}
    {f : α → ExceptT Failure (StateM σ) β} {b : β} {s s'' : σ} :
    runFrom (x >>= f) s = (.ok b, s'') ↔
      ∃ a s', runFrom x s = (.ok a, s') ∧ runFrom (f a) s' = (.ok b, s'') := by
  rw [runFrom_bind]
  rcases h : runFrom x s with ⟨e | a, s'⟩
  · constructor
    · intro h
      cases h
    · rintro ⟨_, _, h, _⟩
      cases h
  · constructor
    · intro h
      exact ⟨a, s', rfl, h⟩
    · rintro ⟨_, _, h, h'⟩
      cases h
      exact h'

/-- A step for each element of a list is run one after the other, up to the first failure. -/
lemma runFrom_mapM_cons (f : α → ExceptT Failure (StateM σ) β) (a : α) (l : List α) (s : σ) :
    runFrom ((a :: l).mapM f) s = match runFrom (f a) s with
      | (.error e, s') => (.error e, s')
      | (.ok b, s') => match runFrom (l.mapM f) s' with
        | (.error e, s'') => (.error e, s'')
        | (.ok bs, s'') => (.ok (b :: bs), s'') := by
  rw [List.mapM_cons, runFrom_bind]
  rcases runFrom (f a) s with ⟨e | b, s'⟩
  · rfl
  · dsimp only
    rw [runFrom_bind]
    rcases runFrom (l.mapM f) s' with ⟨e | bs, s''⟩ <;> rfl

/-- Steps with known results give these for the elements of a list. -/
lemma runFrom_mapM_fst {f : α → ExceptT Failure (StateM σ) β} {g : α → β} {l : List α}
    (h : ∀ a ∈ l, ∀ s, (runFrom (f a) s).1 = .ok (g a)) (s : σ) :
    (runFrom (l.mapM f) s).1 = .ok (l.map g) := by
  induction l generalizing s with
  | nil => rfl
  | cons a l ih =>
    obtain ⟨ha, hl⟩ := List.forall_mem_cons.1 h
    rw [runFrom_mapM_cons, runFrom_of_fst (ha s)]
    dsimp only
    rw [runFrom_of_fst (ih hl _)]
    rfl

/-- A failure is handled from where it happens. -/
lemma runFrom_tryCatch (x : ExceptT Failure (StateM σ) α)
    (handler : Failure → ExceptT Failure (StateM σ) α) (s : σ) :
    runFrom (tryCatch x handler) s = match runFrom x s with
      | (.ok a, s') => (.ok a, s')
      | (.error e, s') => runFrom (handler e) s' := by
  rcases h : runFrom x s with ⟨e | a, s'⟩
  all_goals
    have hx : StateT.run x s = _ := h
    unfold runFrom
    simp only [tryCatch, tryCatchThe, MonadExceptOf.tryCatch, ExceptT.tryCatch, ExceptT.run_mk,
      StateT.run_bind, hx]
    rfl

/-- A result is changed where a step succeeds. -/
lemma runFrom_map (f : α → β) (x : ExceptT Failure (StateM σ) α) (s : σ) :
    runFrom (f <$> x) s = ((runFrom x s).1.map f, (runFrom x s).2) := by
  have h : runFrom (f <$> x) s = runFrom (x >>= fun a => pure (f a)) s := by
    rw [map_eq_pure_bind]
  rw [h, runFrom_bind]
  rcases runFrom x s with ⟨e | a, s'⟩
  · rfl
  · rfl

/-! ### What steps return -/

/-- If the step succeeds, its result has the property. -/
def Returns (P : α → Prop) (x : ExceptT Failure (StateM σ) α) : Prop :=
  ∀ s a, (runFrom x s).1 = .ok a → P a

section Returns
variable {P : α → Prop} {Q : β → Prop} {x : ExceptT Failure (StateM σ) α}
  {f : α → ExceptT Failure (StateM σ) β}

/-- A result is as stated if it is. -/
lemma Returns.pure {a : α} (h : P a) : Returns P (pure a : ExceptT Failure (StateM σ) α) := by
  intro s a' e
  cases e
  exact h

/-- A failure has no result that could be otherwise. -/
lemma Returns.throw (e : Failure) : Returns P (throw e : ExceptT Failure (StateM σ) α) := by
  intro s a h
  cases h

/-- Nothing is known of the result of any step. -/
lemma Returns.any (x : ExceptT Failure (StateM σ) α) : Returns (fun _ => True) x :=
  fun _ _ _ => trivial

/-- What is known of the first result is known to the second step. -/
lemma Returns.bind (hx : Returns P x) (hf : ∀ a, P a → Returns Q (f a)) :
    Returns Q (x >>= f) := by
  intro s b h
  obtain ⟨a, s', ha, hb⟩ := runFrom_bind_eq_ok.1 (runFrom_of_fst h)
  have hb : (runFrom (f a) s').1 = .ok b := congrArg Prod.fst hb
  exact hf a (hx s a (congrArg Prod.fst ha)) s' b hb

/-- What the steps return for each element of a list they return for all of them. -/
lemma Returns.mapM {l : List α} (h : ∀ a ∈ l, Returns Q (f a)) :
    Returns (fun bs => ∀ b ∈ bs, Q b) (l.mapM f) := by
  induction l with
  | nil => exact .pure fun _ h => absurd h List.not_mem_nil
  | cons a l ih =>
    obtain ⟨ha, hl⟩ := List.forall_mem_cons.1 h
    rw [List.mapM_cons]
    exact ha.bind fun b hb => (ih hl).bind fun bs hbs => .pure (List.forall_mem_cons.2 ⟨hb, hbs⟩)

/-- What steps return for a failure they return as well. -/
lemma Returns.tryCatch {handler : Failure → ExceptT Failure (StateM σ) α} (hx : Returns P x)
    (hhandler : ∀ e, Returns P (handler e)) : Returns P (tryCatch x handler) := by
  intro s a h
  rw [runFrom_tryCatch] at h
  rcases hrun : runFrom x s with ⟨e | a', s'⟩
  · rw [hrun] at h
    exact hhandler e s' a h
  · rw [hrun] at h
    cases h
    exact hx s a (congrArg Prod.fst hrun)

end Returns

/-! ### How steps fail -/

/-- If the step fails, then with a failure that is held back. -/
def Contained (x : ExceptT Failure (StateM σ) α) : Prop :=
  ∀ s e, (runFrom x s).1 = .error e → e.isHeldBack = true

section Contained
variable {x : ExceptT Failure (StateM σ) α} {f : α → ExceptT Failure (StateM σ) β}

/-- A step that gives its result in all states does not fail. -/
lemma Contained.of_fst {r : α} (h : ∀ s, (runFrom x s).1 = .ok r) : Contained x := by
  intro s e hs
  cases (h s).symm.trans hs

/-- A result is no failure. -/
lemma Contained.pure (a : α) : Contained (pure a : ExceptT Failure (StateM σ) α) :=
  .of_fst fun _ => rfl

/-- A failure may be one of those that are held back. -/
lemma Contained.throw {e : Failure} (h : e.isHeldBack = true) :
    Contained (throw e : ExceptT Failure (StateM σ) α) := by
  intro s e' he
  cases he
  exact h

/-- Two steps fail as the first one does, or as the second one does after it. -/
lemma Contained.bind (hx : Contained x) (hf : ∀ a, Contained (f a)) : Contained (x >>= f) := by
  intro s e h
  rw [runFrom_bind] at h
  rcases hrun : runFrom x s with ⟨e' | a, s'⟩
  · rw [hrun] at h
    cases h
    exact hx s e (congrArg Prod.fst hrun)
  · rw [hrun] at h
    exact hf a s' e h

/-- Steps for the elements of a list fail as one of them does. -/
lemma Contained.mapM {l : List α} (h : ∀ a ∈ l, Contained (f a)) : Contained (l.mapM f) := by
  induction l with
  | nil => exact .pure []
  | cons a l ih =>
    obtain ⟨ha, hl⟩ := List.forall_mem_cons.1 h
    rw [List.mapM_cons]
    exact ha.bind fun b => (ih hl).bind fun bs => .pure (b :: bs)

/-- A failure that is handled counts no more than what its handler does. -/
lemma Contained.tryCatch {handler : Failure → ExceptT Failure (StateM σ) α} (hx : Contained x)
    (hhandler : ∀ e, e.isHeldBack = true → Contained (handler e)) :
    Contained (tryCatch x handler) := by
  intro s e h
  rw [runFrom_tryCatch] at h
  rcases hrun : runFrom x s with ⟨e' | a, s'⟩
  · rw [hrun] at h
    exact hhandler e' (hx s e' (congrArg Prod.fst hrun)) s' e h
  · rw [hrun] at h
    cases h

end Contained

end State

/-! ### Surveys -/

section Survey
variable {α β : Type}

/-- A notice comes after those that have been given. -/
@[simp] lemma runFrom_notice (n : Notice) (notices : List Notice) :
    runFrom (notice n) notices = (.ok (), notices ++ [n]) := rfl

/-- What the survey finds out does not depend on the notices given before it. -/
def Steady (s : Survey α) : Prop :=
  ∀ notices notices', (runFrom s notices).1 = (runFrom s notices').1

/-- A given result is steady. -/
lemma Steady.pure (a : α) : Steady (pure a : Survey α) := fun _ _ => rfl

/-- A failure is steady. -/
lemma Steady.throw (e : Failure) : Steady (throw e : Survey α) := fun _ _ => rfl

/-- A notice is steady. -/
lemma Steady.notice (n : Notice) : Steady (notice n) := fun _ _ => rfl

/-- Steady surveys one after the other are steady. -/
lemma Steady.bind {s : Survey α} {f : α → Survey β} (hs : Steady s) (hf : ∀ a, Steady (f a)) :
    Steady (s >>= f) := by
  intro notices notices'
  have h := hs notices notices'
  rw [runFrom_bind, runFrom_bind]
  rcases hr : runFrom s notices with ⟨e | a, more⟩ <;>
    rcases hr' : runFrom s notices' with ⟨e' | a', more'⟩ <;>
    rw [hr, hr'] at h
  · cases h
    rfl
  · cases h
  · cases h
  · cases h
    exact hf a more more'

/-- A survey within a change gives what it gives by itself, and leaves the files as they are. -/
lemma runFrom_survey (s : FileTree → Survey α) (p : Progress) :
    runFrom (survey s) p = ((runFrom (s p.files) p.notices).1,
      ⟨p.files, (runFrom (s p.files) p.notices).2⟩) := rfl

end Survey

end SiteAudit
