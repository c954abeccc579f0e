import SiteAudit.Number.Binary64
import SiteAudit.Text.Digit
import SiteAudit.Text.Quoted

/-!
# Reading numerals

Numerals of integers in a base, and of binary numbers, as they may stand between blanks. Decimal
digits of any script are read; an integer in base ten may have at most 4300 digits.
-/

namespace SiteAudit

/-- Why a numeral cannot be read or written. -/
inductive NumeralError where
  | notAnInteger (base : Nat) (text : Text)
  | notANumber (text : Text)
  | tooManyDigits (count : Nat)
  | tooLargeToWrite
  deriving DecidableEq, Repr

namespace Numeral

/-- The most digits of a decimal integer that is read or written. -/
def digitLimit : Nat := 4300

/-- Digits of all scripts as ASCII digits and blanks of all kinds as the space. -/
def normalise (t : Text) : Text :=
  t.map fun c =>
    match Text.decimalDigit? c with
    | some d => Char.ofNat (48 + d)
    | none => if Text.isBlank c then ' ' else c

/-- The numeral without the blanks around it. -/
def bare (t : Text) : Text := Text.trim (normalise t)

/-- Takes a sign away; without one the numeral is positive. -/
def takeSign : Text → Bool × Text
  | '-' :: rest => (true, rest)
  | '+' :: rest => (false, rest)
  | t => (false, t)

/-- The letter that may follow a zero in front of the digits of a base. -/
def baseLetter? : Nat → Option Char
  | 2 => some 'b'
  | 8 => some 'o'
  | 16 => some 'x'
  | _ => none

/-- The digits without the mark of the base in front. -/
def dropBaseMark (base : Nat) : Text → Text
  | '0' :: c :: rest => if some c.toLower = baseLetter? base then rest else '0' :: c :: rest
  | t => t

/-- The value of a digit in the base. -/
def digitIn? (base : Nat) (c : Char) : Option Nat :=
  (Text.digitValue? c).filter (· < base)

/-- The value of digits after those read so far. -/
def ofDigits? (base : Nat) : Nat → Text → Option Nat
  | value, [] => some value
  | value, c :: rest =>
    match digitIn? base c with
    | some d => ofDigits? base (value * base + d) rest
    | none => none

/-- Reads an integer: blanks, a sign, a mark of the base, digits, blanks. -/
def readInt (base : Nat) (t : Text) : Except NumeralError Int :=
  let (negative, unsigned) := takeSign (bare t)
  let digits := dropBaseMark base unsigned
  let count := (digits.takeWhile fun c => (digitIn? base c).isSome).length
  if base = 10 ∧ digitLimit < count then .error (.tooManyDigits count)
  else if digits.isEmpty then .error (.notAnInteger base t)
  else match ofDigits? base 0 digits with
    | some n => .ok (if negative then -(n : Int) else n)
    | none => .error (.notAnInteger base t)

/-- The exponent after the mark `e`; nothing else may follow. -/
def readExponent? : Text → Option Int
  | [] => some 0
  | c :: rest =>
    if c = 'e' ∨ c = 'E' then
      let (negative, digits) := takeSign rest
      if digits.isEmpty then none
      else (ofDigits? 10 0 digits).map fun n => if negative then -(n : Int) else n
    else none

/-- A finite number: digits with at most one point among them, and perhaps an exponent. -/
def readFinite? (negative : Bool) (t : Text) : Option Binary64 :=
  let whole := t.takeWhile Char.isDigit
  let (fraction, rest) : Text × Text := match t.dropWhile Char.isDigit with
    | '.' :: rest => (rest.takeWhile Char.isDigit, rest.dropWhile Char.isDigit)
    | rest => ([], rest)
  if whole.isEmpty && fraction.isEmpty then none
  else do
    let exponent ← readExponent? rest
    let digits ← ofDigits? 10 0 (whole ++ fraction)
    return .ofDecimal negative digits (exponent - fraction.length)

/-- Reads a number: blanks, a sign, then digits or the name of an infinity or of no number. -/
def readBinary64 (t : Text) : Except NumeralError Binary64 :=
  let (negative, unsigned) := takeSign (bare t)
  let name := unsigned.map Char.toLower
  if name = "inf" ∨ name = "infinity" then .ok (.infinite negative)
  else if name = "nan" then .ok .nan
  else match readFinite? negative unsigned with
    | some x => .ok x
    | none => .error (.notANumber t)

end Numeral

/-- The reason in words. -/
def NumeralError.message : NumeralError → Text
  | .notAnInteger base text =>
    "invalid literal for int() with base " ++ Text.ofNat base ++ ": "
      ++ (Text.quoted text).take 200
  | .notANumber text => "could not convert string to float: " ++ Text.quoted text
  | .tooManyDigits count =>
    "Exceeds the limit (4300 digits) for integer string conversion: value has "
      ++ Text.ofNat count
      ++ " digits; use sys.set_int_max_str_digits() to increase the limit"
  | .tooLargeToWrite =>
    "Exceeds the limit (4300 digits) for integer string conversion; "
      ++ "use sys.set_int_max_str_digits() to increase the limit"

end SiteAudit
