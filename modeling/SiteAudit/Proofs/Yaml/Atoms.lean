import SiteAudit.Proofs.Run
import SiteAudit.Proofs.Yaml.Steps
import SiteAudit.Yaml.Construction

/-!
# Failures of atoms

How the text of a scalar can fail to suit its tag. A truth value must have one of the known names,
a number must not be empty and must not have so many groups in base sixty that their weights exceed
all binary numbers, and a timestamp must be written as one. All else is put into words.
-/

namespace SiteAudit.Yaml

namespace Construction

/-- The text of a number without the underscores that divide it. -/
def undivided (t : Text) : Text := t.filter (· != '_')

/-- The number of groups of a number in base sixty. -/
def groupCount (t : Text) : Nat :=
  (Text.splitOn ':' (Numeral.takeSign (Text.toLower (undivided t))).2).length

/-- The tag cannot take the text, for a cause without words. -/
def Rejects (tag : Tag) (t : Text) : Unsuitable → Prop
  | .boolean found => tag = .bool ∧ found = t ∧ booleans.lookup (Text.toLower t) = none
  | .emptyNumber =>
    tag = .int ∧ (Numeral.takeSign (undivided t)).2 = [] ∨ tag = .float ∧ undivided t = []
  | .digitGroup => tag = .float ∧ 174 < groupCount t
  | .timestamp found => tag = .timestamp ∧ found = t ∧ Timestamp.ofText? t = none
  | .timestampMapping => False
  | .escape => False
  | .circular => False

variable {e : Error} {t : Text}

/-- A text that is no truth value. -/
lemma boolean_error (h : boolean t = .error e) :
    ∃ cause, e = .unsuitable cause ∧ Rejects .bool t cause := by
  unfold boolean at h
  split at h
  · cases h
  · rename_i hnone
    cases h
    exact ⟨_, rfl, rfl, rfl, hnone⟩

/-- Digits that cannot be read are reported. -/
lemma intIn_error {base : Nat} (h : intIn base t = .error e) : e.IsReported := by
  unfold intIn at h
  split at h
  · cases h
  · cases h
    exact isReported_numeral

/-- Numbers that cannot be read are reported. -/
lemma floatOf_error (h : floatOf t = .error e) : e.IsReported := by
  unfold floatOf at h
  split at h
  · cases h
  · cases h
    exact isReported_numeral

/-- Only an empty text has no place for a sign. -/
lemma signed_error (h : signed t = .error e) : e = .unsuitable .emptyNumber ∧ t = [] := by
  unfold signed at h
  split at h
  · rename_i hempty
    cases h
    exact ⟨rfl, List.isEmpty_iff.1 hempty⟩
  · cases h

/-- The sign is taken off. -/
lemma signed_eq_ok {r : Bool × Text} (h : signed t = .ok r) : r = Numeral.takeSign t := by
  unfold signed at h
  split at h
  · cases h
  · cases h
    rfl

/-- If a step fails in words for each element of a list, so it does for all of them. -/
lemma mapM_error {α β : Type} {f : α → Except Error β} {l : List α}
    (hf : ∀ a e, f a = .error e → e.IsReported) (h : l.mapM f = .error e) : e.IsReported := by
  obtain ⟨a, _, ha⟩ := mapM_eq_error h
  exact hf a e ha

/-- There are as many results as elements. -/
lemma mapM_length {α β : Type} {f : α → Except Error β} {l : List α} {l' : List β}
    (h : l.mapM f = .ok l') : l'.length = l.length := by
  induction l generalizing l' with
  | nil =>
    cases h
    rfl
  | cons a l ih =>
    rw [List.mapM_cons] at h
    obtain ⟨_, _, h⟩ := bind_eq_ok.1 h
    obtain ⟨_, hl, h⟩ := bind_eq_ok.1 h
    cases h
    rw [List.length_cons, List.length_cons, ih hl]

/-- An integer without a sign. -/
lemma magnitude_error (h : magnitude t = .error e) :
    e.IsReported ∨ e = .unsuitable .emptyNumber ∧ t = [] := by
  unfold magnitude at h
  split at h
  · cases h
    exact .inr ⟨rfl, rfl⟩
  · cases h
  · exact .inl (intIn_error h)
  · exact .inl (intIn_error h)
  · exact .inl (intIn_error h)
  · split at h
    · rcases bind_eq_error.1 h with h | ⟨_, _, h⟩
      · exact .inl (mapM_error (fun _ _ => intIn_error) h)
      · cases h
    · exact .inl (intIn_error h)

/-- An integer. -/
lemma integer_error (h : integer t = .error e) :
    e.IsReported ∨ ∃ cause, e = .unsuitable cause ∧ Rejects .int t cause := by
  unfold integer at h
  rcases bind_eq_error.1 h with h | ⟨r, hr, h⟩
  · obtain ⟨rfl, hempty⟩ := signed_error h
    refine .inr ⟨_, rfl, .inl ⟨rfl, ?_⟩⟩
    unfold undivided
    rw [hempty]
    rfl
  · rcases bind_eq_error.1 h with h | ⟨_, _, h⟩
    · rcases magnitude_error h with h | ⟨rfl, hempty⟩
      · exact .inl h
      · rw [signed_eq_ok hr] at hempty
        exact .inr ⟨_, rfl, .inl ⟨rfl, hempty⟩⟩
    · cases h

/-- The weights of the first groups are binary numbers. -/
lemma ofInt_weight (negative : Bool) :
    ∀ k < 174, Binary64.ofInt (Nat.pow 60 k) ≠ .infinite negative := by
  cases negative <;> decide +kernel

/-- A sum of groups fails only where a weight exceeds all binary numbers. -/
lemma baseSixty_error {k : Nat} {sum : Binary64} {groups : List Binary64}
    (h : baseSixty (Nat.pow 60 k) sum groups = .error e) :
    e = .unsuitable .digitGroup ∧ 174 < k + groups.length := by
  induction groups generalizing k sum with
  | nil => cases h
  | cons group groups ih =>
    rw [baseSixty] at h
    split at h
    · rename_i hw
      cases h
      refine ⟨rfl, ?_⟩
      -- the weight of this group would still be a binary number
      by_contra hfew
      rw [List.length_cons] at hfew
      exact ofInt_weight _ k (by omega) hw
    · obtain ⟨he, hlt⟩ := ih (k := k + 1) h
      exact ⟨he, by rw [List.length_cons]; omega⟩

/-- Only an empty text has no letters in lower case. -/
lemma toLower_eq_nil (h : Text.toLower t = []) : t = [] := by
  cases t with
  | nil => rfl
  | cons c t =>
    exfalso
    have hnil : Text.lowerChar c = [] := (List.append_eq_nil_iff.1 h).1
    unfold Text.lowerChar at hnil
    split at hnil
    · cases hnil
    split at hnil
    · cases hnil
    dsimp only at hnil
    split at hnil
    · cases hnil
    · cases hnil

/-- A number that need not be an integer. -/
lemma float_error {node : Nat} (h : float node t = .error e) :
    e.IsReported ∨ ∃ cause, e = .unsuitable cause ∧ Rejects .float t cause := by
  unfold float at h
  rcases bind_eq_error.1 h with h | ⟨r, hr, h⟩
  · obtain ⟨rfl, hempty⟩ := signed_error h
    exact .inr ⟨_, rfl, .inr ⟨rfl, toLower_eq_nil hempty⟩⟩
  dsimp only at h
  split at h
  · cases h
  split at h
  · cases h
  split at h
  · rcases bind_eq_error.1 h with h | ⟨groups, hgroups, h⟩
    · exact .inl (mapM_error (fun _ _ => floatOf_error) h)
    rcases bind_eq_error.1 h with h | ⟨x, _, h⟩
    · obtain ⟨rfl, hlt⟩ := baseSixty_error (k := 0) h
      rw [List.length_reverse, mapM_length hgroups, signed_eq_ok hr, Nat.zero_add] at hlt
      exact .inr ⟨_, rfl, rfl, hlt⟩
    · split at h
      · cases h
      · cases h
  · rcases bind_eq_error.1 h with h | ⟨x, _, h⟩
    · exact .inl (floatOf_error h)
    · split at h
      · cases h
      · cases h

/-- A date or a moment. -/
lemma timestamp_error (h : timestamp t = .error e) :
    e.IsReported ∨ ∃ cause, e = .unsuitable cause ∧ Rejects .timestamp t cause := by
  unfold timestamp at h
  split at h
  · rename_i hnone
    cases h
    exact .inr ⟨_, rfl, rfl, rfl, hnone⟩
  · split at h
    · cases h
    · cases h
    · cases h
      exact .inl isReported_calendar

/-- Bytes. -/
lemma binary_error {mark : Mark} (h : binary mark t = .error e) : e.IsReported := by
  unfold binary at h
  split at h
  · cases h
    exact isReported_at
  · split at h
    · cases h
    · cases h
      exact isReported_at

end Construction

end SiteAudit.Yaml
