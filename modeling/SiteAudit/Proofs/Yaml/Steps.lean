import Mathlib.Tactic.Common
import SiteAudit.Yaml.Error

/-!
# Steps and their invariants

Readers, parsers and builders are steps that change a state or fail. `Leads` says where a step leads
from a state and how it fails, and `Keeps` and `Maintains` that it preserves an invariant, with and
without a word about its result. There is one lemma for each way of building a step from others.
-/

namespace SiteAudit.Yaml

/-- The failure is put into words. -/
def Error.IsReported (e : Error) : Prop := ∀ cause, e ≠ .unsuitable cause

/-- What fails at a place is told. -/
@[simp] lemma isReported_at {context : Option (Context × Option Mark)} {problem : Problem}
    {mark : Mark} : (Error.at_ context problem mark).IsReported := by
  rintro _ ⟨⟩

/-- So is a numeral that is too long. -/
@[simp] lemma isReported_numeral {cause : NumeralError} : (Error.numeral cause).IsReported := by
  rintro _ ⟨⟩

/-- So is a date that does not exist. -/
@[simp] lemma isReported_calendar {cause : CalendarError} : (Error.calendar cause).IsReported := by
  rintro _ ⟨⟩

/-- So is a character that may not be there. -/
@[simp] lemma isReported_unacceptable {c : Char} {position : Nat} :
    (Error.unacceptable c position).IsReported := by
  rintro _ ⟨⟩

/-- So is a code point that no character has. -/
@[simp] lemma isReported_codePoint : Error.codePoint.IsReported := by
  rintro _ ⟨⟩

variable {σ α β : Type} {I : σ → Prop} {B : Error → Prop} {P Q : α → Prop}

/-- From a state as stated, the step ends in a state and with a result as stated, or it fails as
stated. -/
def Leads (I : σ → Prop) (B : Error → Prop) (x : StateT σ (Except Error) α)
    (J : α → σ → Prop) : Prop :=
  ∀ s, I s → match x.run s with
    | .ok (a, s') => J a s'
    | .error e => B e

/-- The step preserves the invariant, has a result as stated, and fails only as stated. -/
def Keeps (I : σ → Prop) (B : Error → Prop) (x : StateT σ (Except Error) α) (Q : α → Prop) : Prop :=
  Leads I B x fun a s => I s ∧ Q a

namespace Leads

variable {J : α → σ → Prop}

/-- One step after the other. -/
lemma bind {x : StateT σ (Except Error) α} {f : α → StateT σ (Except Error) β}
    {K : β → σ → Prop} (hx : Leads I B x J) (hf : ∀ a, Leads (J a) B (f a) K) :
    Leads I B (x >>= f) K := by
  intro s hs
  have h := hx s hs
  rw [StateT.run_bind]
  cases hr : x.run s with
  | error e =>
    rw [hr] at h
    exact h
  | ok r =>
    rw [hr] at h
    exact hf r.1 r.2 h

/-- Less may be asked of the state before a step, and more said than is needed of the one after
it. -/
lemma mono {I' : σ → Prop} {J' : α → σ → Prop} {x : StateT σ (Except Error) α}
    (hx : Leads I B x J) (hI : ∀ s, I' s → I s) (hJ : ∀ a s, J a s → J' a s) :
    Leads I' B x J' := by
  intro s hs
  have h := hx s (hI s hs)
  cases hr : x.run s with
  | error e =>
    rw [hr] at h
    exact h
  | ok r =>
    rw [hr] at h
    exact hJ r.1 r.2 h

/-- Less may be said of how a step fails. -/
lemma mono_error {B' : Error → Prop} {x : StateT σ (Except Error) α} (hx : Leads I B x J)
    (hB : ∀ e, B e → B' e) : Leads I B' x J := by
  intro s hs
  have h := hx s hs
  cases hr : x.run s with
  | error e =>
    rw [hr] at h
    exact hB e h
  | ok r =>
    rw [hr] at h
    exact h

/-- What the state before a step tells may be used of the step. -/
lemma telling {p : Prop} {x : StateT σ (Except Error) α} (hp : ∀ s, I s → p)
    (hx : p → Leads I B x J) : Leads I B x J :=
  fun s hs => hx (hp s hs) s hs

/-- A given result. -/
lemma pure {a : α} (h : ∀ s, I s → J a s) : Leads I B (pure a) J := h

/-- A failure leads nowhere. -/
lemma throw {e : Error} (h : B e) : Leads I B (throw e) J := fun _ _ => h

/-- The step after the state has been looked at starts in that very state. -/
lemma get_bind {f : σ → StateT σ (Except Error) α} (h : ∀ s, I s → Leads (· = s) B (f s) J) :
    Leads I B (get >>= f) J :=
  fun s hs => h s hs s rfl

/-- A change of the state. -/
lemma modify {g : σ → σ} {J : PUnit → σ → Prop} (h : ∀ s, I s → J ⟨⟩ (g s)) :
    Leads I B (modify g) J := h

/-- A step for each element of a list, each from where the ones before it led. -/
lemma mapM {f : α → StateT σ (Except Error) β} {K : List β → σ → Prop} {l : List α}
    (h : ∀ bs, ∀ a ∈ l, Leads (K bs) B (f a) fun b => K (bs ++ [b])) (bs : List β) :
    Leads (K bs) B (l.mapM f) fun new => K (bs ++ new) := by
  induction l generalizing bs with
  | nil =>
    rw [List.mapM_nil]
    exact .pure fun s hs => by rwa [List.append_nil]
  | cons a l ih =>
    rw [List.mapM_cons]
    refine (h bs a (List.mem_cons_self ..)).bind fun b => ?_
    refine (ih (fun bs a ha => h bs a (List.mem_cons_of_mem _ ha)) (bs ++ [b])).bind fun new => ?_
    exact .pure fun s hs => by rwa [List.append_assoc] at hs

/-- A step for each element of a list, each with what the one before it gave. -/
lemma foldlM {f : α → β → StateT σ (Except Error) α} {l : List β}
    (h : ∀ a, ∀ b ∈ l, Leads (J a) B (f a b) J) (a : α) : Leads (J a) B (l.foldlM f a) J := by
  induction l generalizing a with
  | nil => exact .pure fun _ hs => hs
  | cons b l ih =>
    rw [List.foldlM_cons]
    exact (h a b (List.mem_cons_self ..)).bind fun a' =>
      ih (fun a b hb => h a b (List.mem_cons_of_mem _ hb)) a'

/-- What a run gives. -/
lemma run_ok {x : StateT σ (Except Error) α} (hx : Leads I B x J) {s s' : σ} {a : α} (hs : I s)
    (h : x.run s = .ok (a, s')) : J a s' := by
  have hrun := hx s hs
  rw [h] at hrun
  exact hrun

/-- How a run fails. -/
lemma run_error {x : StateT σ (Except Error) α} (hx : Leads I B x J) {s : σ} {e : Error} (hs : I s)
    (h : x.run s = .error e) : B e := by
  have hrun := hx s hs
  rw [h] at hrun
  exact hrun

end Leads

namespace Keeps

/-- A given result keeps every invariant. -/
lemma pure {a : α} (h : Q a) : Keeps I B (pure a) Q := Leads.pure fun _ hs => ⟨hs, h⟩

/-- A failure keeps every invariant. -/
lemma throw {e : Error} (h : B e) : Keeps I B (throw e) Q := Leads.throw h

/-- The state has the invariant. -/
lemma get : Keeps I B get I := fun _ hs => ⟨hs, hs⟩

/-- A change of the state has to keep the invariant. -/
lemma modify {g : σ → σ} (h : ∀ s, I s → I (g s)) : Keeps I B (modify g) fun _ => True :=
  Leads.modify fun s hs => ⟨h s hs, trivial⟩

/-- A step without the state has to give results and fail as stated. -/
lemma lift {x : Except Error α} (hok : ∀ a, x = .ok a → Q a) (herr : ∀ e, x = .error e → B e) :
    Keeps I B (liftM x) Q := by
  intro s hs
  cases x with
  | error e => exact herr e rfl
  | ok a => exact ⟨hs, hok a rfl⟩

/-- One step after the other. -/
lemma bind {x : StateT σ (Except Error) α} {f : α → StateT σ (Except Error) β} {Q : β → Prop}
    (hx : Keeps I B x P) (hf : ∀ a, P a → Keeps I B (f a) Q) : Keeps I B (x >>= f) Q :=
  Leads.bind hx fun a s hs => hf a hs.2 s hs.1

/-- Results can be described by less. -/
lemma mono {x : StateT σ (Except Error) α} (hx : Keeps I B x P) (h : ∀ a, P a → Q a) :
    Keeps I B x Q :=
  Leads.mono hx (fun _ hs => hs) fun a _ hs => ⟨hs.1, h a hs.2⟩

/-- Failures can be described by less. -/
lemma mono_error {B' : Error → Prop} {x : StateT σ (Except Error) α} (hx : Keeps I B x P)
    (h : ∀ e, B e → B' e) : Keeps I B' x P :=
  Leads.mono_error hx h

/-- A step for each element of a list. -/
lemma mapM {f : α → StateT σ (Except Error) β} {l : List α}
    (h : ∀ a ∈ l, Keeps I B (f a) fun _ => True) : Keeps I B (l.mapM f) fun _ => True := by
  refine Leads.mono (Leads.mapM (K := fun _ => I) (fun _ a ha => ?_) [])
    (fun _ hs => hs) fun _ _ hs => ⟨hs, trivial⟩
  exact Leads.mono (h a ha) (fun _ hs => hs) fun _ _ hs => hs.1

/-- A step for each element of a list, each with what the one before it gave. -/
lemma foldlM {f : α → β → StateT σ (Except Error) α} {l : List β} {a : α} (ha : Q a)
    (h : ∀ a, Q a → ∀ b ∈ l, Keeps I B (f a b) Q) : Keeps I B (l.foldlM f a) Q := by
  refine Leads.mono (Leads.foldlM (J := fun a s => I s ∧ Q a) (fun a b hb => ?_) a)
    (fun _ hs => ⟨hs, ha⟩) fun _ _ hs => hs
  exact Leads.telling (p := Q a) (fun _ hs => hs.2) fun hq =>
    Leads.mono (h a hq b hb) (fun _ hs => hs.1) fun _ _ hs => hs

end Keeps

/-- The step preserves the invariant, and fails only as stated. -/
def Maintains (I : σ → Prop) (B : Error → Prop) (x : StateT σ (Except Error) α) : Prop :=
  Keeps I B x fun _ => True

namespace Maintains

/-- One step after the other. -/
lemma bind {x : StateT σ (Except Error) α} {f : α → StateT σ (Except Error) β}
    (hx : Maintains I B x) (hf : ∀ a, Maintains I B (f a)) : Maintains I B (x >>= f) :=
  Keeps.bind hx fun a _ => hf a

/-- A given result. -/
lemma pure (a : α) : Maintains I B (Pure.pure a) := Keeps.pure trivial

/-- A failure. -/
lemma throw {e : Error} (h : B e) : Maintains I B (throw e : StateT σ (Except Error) α) :=
  Keeps.throw h

/-- The state. -/
lemma get : Maintains I B (get : StateT σ (Except Error) σ) := Keeps.get.mono fun _ _ => trivial

/-- A change of the state has to keep the invariant. -/
lemma modify {g : σ → σ} (h : ∀ s, I s → I (g s)) :
    Maintains I B (modify g : StateT σ (Except Error) PUnit) :=
  Keeps.modify h

/-- A step before which another one is taken under a condition. -/
lemma after {c : Prop} [Decidable c] {x : StateT σ (Except Error) α}
    {y : StateT σ (Except Error) PUnit} (hy : Maintains I B y) (hx : Maintains I B x) :
    Maintains I B (if c then y >>= fun _ => x else x) := by
  split
  · exact hy.bind fun _ => hx
  · exact hx

/-- From states with the invariant the step leads to such states. -/
lemma leads {I' : σ → Prop} {x : StateT σ (Except Error) α} (hx : Maintains I B x)
    (h : ∀ s, I' s → I s) : Leads I' B x fun _ s => I s :=
  Leads.mono hx h fun _ _ hs => hs.1

end Maintains

end SiteAudit.Yaml
