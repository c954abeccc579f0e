import SiteAudit.Text.Utf8

/-!
# Base 64

Bytes written with 64 characters, four for three bytes. Characters outside of the alphabet are
skipped, and reading stops at the padding that completes a group.
-/

namespace SiteAudit.Base64

/-- The value of a character of the alphabet. -/
def value? (c : Char) : Option Nat :=
  if 'A' ≤ c ∧ c ≤ 'Z' then some (c.toNat - 65)
  else if 'a' ≤ c ∧ c ≤ 'z' then some (c.toNat - 71)
  else if c.isDigit then some (c.toNat + 4)
  else if c = '+' then some 62
  else if c = '/' then some 63
  else none

/-- Why a text is not written in base 64. -/
inductive Error where
  /-- A single character is left after this many full groups and bytes. -/
  | loneCharacter (characters : Nat)
  | padding
  deriving DecidableEq, Repr

/-- What is known of a group of four characters. -/
structure Group where
  /-- The characters of the group so far, and the bits that are not yet in a byte. -/
  size : Nat
  left : Nat
  /-- The padding characters since the last one of the alphabet. -/
  pads : Nat

/-- Reads the rest of a text, given the bytes read so far. -/
def read : Group → Bytes → Text → Except Error Bytes
  | g, bytes, [] =>
    if g.size = 0 then .ok bytes
    else if g.size = 1 then .error (.loneCharacter (bytes.length / 3 * 4 + 1))
    else .error .padding
  | g, bytes, c :: rest =>
    if c = '=' then
      if g.size < 2 then read g bytes rest
      else if 4 ≤ g.size + g.pads + 1 then .ok bytes
      else read { g with pads := g.pads + 1 } bytes rest
    else match value? c with
      | none => read g bytes rest
      | some v =>
        let byte (n : Nat) : Bytes := bytes ++ [UInt8.ofNat n]
        match g.size with
        | 0 => read ⟨1, v, 0⟩ bytes rest
        | 1 => read ⟨2, v % 16, 0⟩ (byte (g.left * 4 + v / 16)) rest
        | 2 => read ⟨3, v % 4, 0⟩ (byte (g.left * 16 + v / 4)) rest
        | _ => read ⟨0, 0, 0⟩ (byte (g.left * 64 + v)) rest

/-- The bytes that a text stands for. -/
def decode (t : Text) : Except Error Bytes := read ⟨0, 0, 0⟩ [] t

/-- The reason in words. -/
def Error.message : Error → Text
  | .loneCharacter characters =>
    "Invalid base64-encoded string: number of data characters (" ++ Text.ofNat characters
      ++ ") cannot be 1 more than a multiple of 4"
  | .padding => "Incorrect padding"

end SiteAudit.Base64
