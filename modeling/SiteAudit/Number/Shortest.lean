import SiteAudit.Number.Binary64
import SiteAudit.Text.Basic

/-!
# Shortest decimal numerals

A binary number is written with the fewest decimal digits that read back as the same number, and
among those numerals with the nearest one. A point divides the digits as long as the number is
at least `0.0001` and below `10 ^ 16`; beyond, an exponent of at least two digits follows.
-/

namespace SiteAudit.Binary64

/-- The exponent of the first decimal digit of a positive quotient. -/
def leadingExponent (num den : Nat) : Int :=
  let guess : Int := (Nat.toDigits 10 num).length - (Nat.toDigits 10 den).length
  let reached : Bool :=
    if guess < 0 then den ≤ num * Nat.pow 10 guess.natAbs else den * Nat.pow 10 guess.toNat ≤ num
  if reached then guess else guess - 1

/-- The numeral with the given number of digits that reads back as the number, if there is one:
the digits and the exponent of the last one. -/
def numeral? (num den : Nat) (x : Binary64) (size : Nat) : Option (Nat × Int) :=
  let exponent := leadingExponent num den - size + 1
  let (n, d) :=
    if exponent < 0 then (num * Nat.pow 10 exponent.natAbs, den)
    else (num, den * Nat.pow 10 exponent.toNat)
  let below := n / d
  let nearer := roundDiv n d
  let other := if nearer = below then below + 1 else below
  if ofDecimal false nearer exponent = x then some (nearer, exponent)
  else if ofDecimal false other exponent = x then some (other, exponent)
  else none

/-- The shortest numeral of a positive finite number. Seventeen digits always read back. -/
def shortest (significand : Nat) (exponent : Int) : Nat × Int :=
  let (num, den) := scaled significand 1 (-exponent)
  let x := Binary64.finite false significand exponent
  ((List.range 17).findSome? fun n => numeral? num den x (n + 1)).getD (significand, exponent)

/-- The digits without the zeros at their end. -/
def significantDigits (digits : Nat) : Text :=
  ((Text.ofNat digits).reverse.dropWhile (· == '0')).reverse

/-- The numeral of a positive number from its significant digits, the first of which has the
given exponent. -/
def layOut (digits : Text) (exponent : Int) : Text :=
  if exponent < -4 ∨ 16 ≤ exponent then
    let sign : Char := if exponent < 0 then '-' else '+'
    digits.take 1 ++ (if digits.length = 1 then [] else '.' :: digits.drop 1)
      ++ ['e', sign] ++ Text.padNat 2 exponent.natAbs
  else if exponent < 0 then
    "0." ++ List.replicate (exponent.natAbs - 1) '0' ++ digits
  else
    let whole := exponent.toNat + 1
    let fraction := digits.drop whole
    digits.take whole ++ List.replicate (whole - digits.length) '0' ++ ['.']
      ++ (if fraction.isEmpty then ['0'] else fraction)

/-- The decimal numeral of a number. -/
def text : Binary64 → Text
  | .nan => "nan"
  | .infinite negative => if negative then "-inf" else "inf"
  | .finite negative significand exponent =>
    let magnitude : Text :=
      if significand = 0 then "0.0"
      else
        let (digits, last) := shortest significand exponent
        layOut (significantDigits digits) (last + (Text.ofNat digits).length - 1)
    if negative then '-' :: magnitude else magnitude

end SiteAudit.Binary64
