import Mathlib.Tactic.IntervalCases
import SiteAudit.Text.Utf8

/-!
# UTF-8 both ways

What is written in UTF-8 is read again as the same text (`decode_encode`).
-/

namespace SiteAudit.Utf8

/-! ### Single bytes -/

/-- The value of a small number as a byte. -/
lemma toNat_ofNat {n : Nat} (h : n < 256) : (UInt8.ofNat n).toNat = n :=
  UInt8.toNat_ofNat_of_lt' h

/-- Characters below 128 are one byte. -/
lemma start_one {n : Nat} (h : n < 0x80) : start (UInt8.ofNat n) = .whole (Char.ofNat n) := by
  have hlt : UInt8.ofNat n < 0x80 := by
    rw [UInt8.lt_iff_toNat_lt, toNat_ofNat (by omega)]
    exact h
  unfold start
  rw [if_pos hlt, toNat_ofNat (by omega)]

/-- The first one of two bytes. -/
lemma start_two {n : Nat} (h : 2 ≤ n) (h' : n < 32) :
    start (UInt8.ofNat (0xC0 + n)) = .longer ⟨[UInt8.ofNat (0xC0 + n)], n, 1, 0x80, 0xBF⟩ := by
  interval_cases n <;> rfl

/-- The first one of three bytes. -/
lemma start_three {n : Nat} (h : n < 16) :
    start (UInt8.ofNat (0xE0 + n)) = .longer ⟨[UInt8.ofNat (0xE0 + n)], n, 2,
      if n = 0 then 0xA0 else 0x80, if n = 13 then 0x9F else 0xBF⟩ := by
  interval_cases n <;> rfl

/-- The first one of four bytes. -/
lemma start_four {n : Nat} (h : n < 5) :
    start (UInt8.ofNat (0xF0 + n)) = .longer ⟨[UInt8.ofNat (0xF0 + n)], n, 3,
      if n = 0 then 0x90 else 0x80, if n = 4 then 0x8F else 0xBF⟩ := by
  interval_cases n <;> rfl

/-- A byte between the bounds goes on with a character. -/
lemma pieces_tail {p : Pending} {n : Nat} (h : n < 64) (hl : p.least.toNat ≤ 0x80 + n)
    (hg : 0x80 + n ≤ p.greatest.toNat) (rest : Bytes) :
    pieces (some p) (UInt8.ofNat (0x80 + n) :: rest) =
      if p.owed - 1 = 0 then .char (Char.ofNat (p.value * 64 + n)) :: pieces none rest
      else pieces (some ⟨p.taken ++ [UInt8.ofNat (0x80 + n)], p.value * 64 + n, p.owed - 1, 0x80,
        0xBF⟩) rest := by
  have hn : (UInt8.ofNat (0x80 + n)).toNat = 0x80 + n := toNat_ofNat (by omega)
  have haccepts : p.accepts (UInt8.ofNat (0x80 + n)) = true := by
    simp only [Pending.accepts, UInt8.le_iff_toNat_le, hn, hl, hg, decide_true, Bool.and_self]
  rw [pieces, if_pos haccepts]
  simp only [Pending.push, hn, Nat.add_sub_cancel_left]

/-! ### Characters and texts -/

/-- The bytes of a character are read as that character. -/
lemma pieces_encodeChar (c : Char) (rest : Bytes) :
    pieces none (encodeChar c ++ rest) = .char c :: pieces none rest := by
  have hc : Char.ofNat c.toNat = c := Char.ofNat_toNat c
  have hvalid : c.toNat < 0xD800 ∨ 0xDFFF < c.toNat ∧ c.toNat < 0x110000 := c.valid
  unfold encodeChar
  generalize c.toNat = n at hc hvalid
  -- one case for each length, with the digits of base 64 put together again
  dsimp only
  rw [Nat.div_one]
  split
  · rename_i h
    rw [List.singleton_append, pieces, between, start_one h, hc]
  split
  · rename_i h1 h2
    have hv : n / 64 * 64 + n % 64 = n := by omega
    rw [List.cons_append, List.singleton_append, pieces, between, start_two (by omega) (by omega)]
    dsimp only
    rw [pieces_tail (by omega) (by simp) (by simp; omega)]
    dsimp only
    rw [hv, hc]
    rfl
  split
  · rename_i h1 h2 h3
    have hv : (n / 4096 * 64 + n / 64 % 64) * 64 + n % 64 = n := by omega
    -- shorter forms are refused by the lower bound, and halves of surrogate pairs by the upper one
    have hl : (if n / 4096 = 0 then 0xA0 else 0x80 : UInt8).toNat ≤ 0x80 + n / 64 % 64 := by
      split
      · change 0xA0 ≤ 0x80 + n / 64 % 64
        omega
      · change 0x80 ≤ 0x80 + n / 64 % 64
        omega
    have hg : 0x80 + n / 64 % 64 ≤ (if n / 4096 = 13 then 0x9F else 0xBF : UInt8).toNat := by
      split
      · change 0x80 + n / 64 % 64 ≤ 0x9F
        omega
      · change 0x80 + n / 64 % 64 ≤ 0xBF
        omega
    simp only [List.cons_append, List.nil_append]
    rw [pieces, between, start_three (by omega)]
    dsimp only
    rw [pieces_tail (by omega) hl hg]
    dsimp only
    rw [if_neg (by decide), pieces_tail (by omega) (by simp) (by simp; omega)]
    dsimp only
    rw [hv, hc]
    rfl
  · rename_i h1 h2 h3
    have hv : ((n / 262144 * 64 + n / 4096 % 64) * 64 + n / 64 % 64) * 64 + n % 64 = n := by omega
    -- here the upper bound refuses what is no code point
    have hl : (if n / 262144 = 0 then 0x90 else 0x80 : UInt8).toNat ≤ 0x80 + n / 4096 % 64 := by
      split
      · change 0x90 ≤ 0x80 + n / 4096 % 64
        omega
      · change 0x80 ≤ 0x80 + n / 4096 % 64
        omega
    have hg : 0x80 + n / 4096 % 64 ≤ (if n / 262144 = 4 then 0x8F else 0xBF : UInt8).toNat := by
      split
      · change 0x80 + n / 4096 % 64 ≤ 0x8F
        omega
      · change 0x80 + n / 4096 % 64 ≤ 0xBF
        omega
    simp only [List.cons_append, List.nil_append]
    rw [pieces, between, start_four (by omega)]
    dsimp only
    rw [pieces_tail (by omega) hl hg]
    dsimp only
    rw [if_neg (by decide), pieces_tail (by omega) (by simp) (by simp; omega)]
    dsimp only
    rw [if_neg (by decide), pieces_tail (by omega) (by simp) (by simp; omega)]
    dsimp only
    rw [hv, hc]
    rfl

/-- A text that is written is read again. -/
theorem decode_encode (t : Text) : decode (encode t) = .ok t := by
  suffices ∀ position, characters position (pieces none (encode t)) = .ok t from this 0
  induction t with
  | nil => exact fun _ => rfl
  | cons c t ih =>
    intro position
    have h : encode (c :: t) = encodeChar c ++ encode t := rfl
    rw [h, pieces_encodeChar, characters, ih]
    rfl

/-- What can be read strictly reads the same leniently. -/
lemma decodeLenient_of_decode {bytes : Bytes} {t : Text} (h : decode bytes = .ok t) :
    decodeLenient bytes = t := by
  suffices ∀ position t, characters position (pieces none bytes) = .ok t →
      decodeLenient bytes = t from this 0 t h
  unfold decodeLenient
  induction pieces none bytes with
  | nil =>
    intro position t h
    cases h
    rfl
  | cons piece rest ih =>
    intro position t h
    cases piece with
    | malformed bytes fault => cases h
    | char c =>
      rw [characters] at h
      cases hrest : characters (position + c.utf8Size) rest with
      | error e =>
        rw [hrest] at h
        cases h
      | ok t' =>
        rw [hrest] at h
        cases h
        rw [List.map_cons, ih _ t' hrest]

end SiteAudit.Utf8
