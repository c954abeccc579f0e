/-!
# Binary floating point numbers

The numbers of the 64 bit binary format, as exact values: a finite number is `significand · 2 ^
exponent` with its sign. `ofRatio` rounds a quotient to the nearest of them, a half going to the
even significand; sums and products are exact first and rounded once. No operation of the
machine is used, so everything here can be computed in proofs.
-/

namespace SiteAudit

/-- A number of the 64 bit binary format. In a finite one the significand is below `2 ^ 53`, and
at least `2 ^ 52` unless the exponent is the least one, `-1074`. -/
inductive Binary64 where
  | finite (negative : Bool) (significand : Nat) (exponent : Int)
  | infinite (negative : Bool)
  | nan
  deriving DecidableEq, Repr

namespace Binary64

/-- The first significand that does not fit, `2 ^ 53`. -/
def significandBound : Nat := 0x20000000000000

/-- The least significand of a number that is not among the smallest ones, `2 ^ 52`. -/
def leadingUnit : Nat := 0x10000000000000

/-- The unit of the bit for the sign, `2 ^ 63`. -/
def signUnit : Nat := 0x8000000000000000

/-- Zero of the given sign. -/
def zero (negative : Bool) : Binary64 := .finite negative 0 (-1074)

/-- The quotient as an integer, a half going to the even neighbour. -/
def roundDiv (num den : Nat) : Nat :=
  let q := num / den
  let r := num % den
  if 2 * r < den ∨ (2 * r = den ∧ q % 2 = 0) then q else q + 1

/-- The fraction `num / den · 2 ^ (-exponent)`, as numerator and denominator. -/
def scaled (num den : Nat) (exponent : Int) : Nat × Nat :=
  if exponent < 0 then (num * Nat.pow 2 exponent.natAbs, den)
  else (num, den * Nat.pow 2 exponent.toNat)

/-- The number nearest to a quotient of natural numbers. -/
def ofRatio (negative : Bool) (num den : Nat) : Binary64 :=
  if num = 0 then zero negative
  else
    let low : Int := (num.log2 : Int) - den.log2 - 53
    let (n, d) := scaled num den low
    let exponent := max (if n / d < significandBound then low else low + 1) (-1074)
    let (n, d) := scaled num den exponent
    let significand := roundDiv n d
    let (significand, exponent) :=
      if significand = significandBound then (leadingUnit, exponent + 1)
      else (significand, exponent)
    if exponent > 971 then .infinite negative else .finite negative significand exponent

/-- The number nearest to `digits · 10 ^ exponent`. -/
def ofDecimal (negative : Bool) (digits : Nat) (exponent : Int) : Binary64 :=
  let magnitude := (Nat.toDigits 10 digits).length + exponent
  if digits = 0 ∨ magnitude < -330 then zero negative
  else if magnitude > 310 then .infinite negative
  else if exponent < 0 then ofRatio negative digits (Nat.pow 10 exponent.natAbs)
  else ofRatio negative (digits * Nat.pow 10 exponent.toNat) 1

/-- The number nearest to an integer. -/
def ofInt (n : Int) : Binary64 := ofRatio (n < 0) n.natAbs 1

/-- The 64 bits of the format; a NaN has the quiet bit alone. -/
def toBits : Binary64 → Nat
  | .finite negative significand exponent =>
    (if negative then signUnit else 0)
      + if significand < leadingUnit then significand
        else (exponent + 1075).toNat * leadingUnit + (significand - leadingUnit)
  | .infinite negative => (if negative then signUnit else 0) + 2047 * leadingUnit
  | .nan => 2047 * leadingUnit + leadingUnit / 2

/-- The opposite number. -/
def neg : Binary64 → Binary64
  | .finite negative significand exponent => .finite (!negative) significand exponent
  | .infinite negative => .infinite (!negative)
  | .nan => .nan

/-- `significand · 2 ^ (exponent - least)` with its sign, for an exponent of at least `least`. -/
def aligned (negative : Bool) (significand : Nat) (exponent least : Int) : Int :=
  let magnitude : Int := significand * Nat.pow 2 (exponent - least).toNat
  if negative then -magnitude else magnitude

/-- The number nearest to `n · 2 ^ exponent`. -/
def ofScaled (n : Int) (exponent : Int) : Binary64 :=
  let (num, den) := scaled n.natAbs 1 (-exponent)
  ofRatio (n < 0) num den

/-- The sum, rounded once. -/
def add : Binary64 → Binary64 → Binary64
  | .finite s m e, .finite s' m' e' =>
    if m = 0 ∧ m' = 0 then zero (s && s')
    else
      let least := min e e'
      ofScaled (aligned s m e least + aligned s' m' e' least) least
  | .infinite s, .infinite s' => if s = s' then .infinite s else .nan
  | .infinite s, .finite .. => .infinite s
  | .finite .., .infinite s => .infinite s
  | .nan, _ => .nan
  | _, .nan => .nan

/-- The product, rounded once. -/
def mul : Binary64 → Binary64 → Binary64
  | .finite s m e, .finite s' m' e' =>
    if m * m' = 0 then zero (s != s')
    else
      let (num, den) := scaled (m * m') 1 (-(e + e'))
      ofRatio (s != s') num den
  | .infinite s, .infinite s' => .infinite (s != s')
  | .infinite s, .finite s' m' _ => if m' = 0 then .nan else .infinite (s != s')
  | .finite s m _, .infinite s' => if m = 0 then .nan else .infinite (s != s')
  | .nan, _ => .nan
  | _, .nan => .nan

/-- Equality as numbers: the zeros are equal, and a NaN is equal to nothing. -/
def same : Binary64 → Binary64 → Bool
  | .finite s m e, .finite s' m' e' => (m == 0 && m' == 0) || (s == s' && m == m' && e == e')
  | .infinite s, .infinite s' => s == s'
  | _, _ => false

/-- Is the number the given integer? -/
def sameInt (x : Binary64) (n : Int) : Bool :=
  match x with
  | .finite s m e =>
    if e < 0 then aligned s m 0 0 == n * Nat.pow 2 e.natAbs else aligned s m e 0 == n
  | _ => false

/-- Is the number an integer? -/
def isInteger : Binary64 → Bool
  | .finite _ m e => 0 ≤ e || m % Nat.pow 2 e.natAbs == 0
  | _ => false

/-- Is the number below the given integer? -/
def belowInt (x : Binary64) (n : Int) : Bool :=
  match x with
  | .finite s m e =>
    if e < 0 then aligned s m 0 0 < n * Nat.pow 2 e.natAbs else aligned s m e 0 < n
  | .infinite negative => negative
  | .nan => false

end Binary64

end SiteAudit
