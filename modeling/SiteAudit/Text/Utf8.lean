import SiteAudit.Text.Basic

/-!
# UTF-8

Bytes are cut into pieces, each a character or a malformed run: the longest beginning of a
character that does not go on, or one byte with which no character begins. The lenient reading
puts U+FFFD for each malformed run; the strict reading fails at the first one.
-/

namespace SiteAudit

/-- The content of a file. -/
abbrev Bytes := List UInt8

namespace Utf8

/-- What is wrong with a malformed run. -/
inductive Fault where
  /-- No character begins with this byte. -/
  | invalidStart
  /-- The next byte does not continue the character. -/
  | invalidContinuation
  /-- The bytes end within the character. -/
  | unexpectedEnd
  deriving DecidableEq, Repr

/-- A character of which some bytes are still owed. The next byte must lie between the bounds. -/
structure Pending where
  taken : Bytes
  value : Nat
  owed : Nat
  least : UInt8
  greatest : UInt8

/-- What the bytes consist of. -/
inductive Piece where
  | char (c : Char)
  | malformed (bytes : Bytes) (fault : Fault)

/-- How a first byte starts: with a whole character, with a longer one, or not at all. -/
inductive Start where
  | whole (c : Char)
  | longer (pending : Pending)
  | never

/-- The role of a byte between characters. -/
def start (b : UInt8) : Start :=
  let first (low owed : Nat) (least greatest : UInt8) : Start :=
    .longer ⟨[b], b.toNat - low, owed, least, greatest⟩
  if b < 0x80 then .whole (Char.ofNat b.toNat)
  else if b < 0xC2 then .never
  else if b < 0xE0 then first 0xC0 1 0x80 0xBF
  else if b = 0xE0 then first 0xE0 2 0xA0 0xBF
  else if b = 0xED then first 0xE0 2 0x80 0x9F
  else if b < 0xF0 then first 0xE0 2 0x80 0xBF
  else if b = 0xF0 then first 0xF0 3 0x90 0xBF
  else if b < 0xF4 then first 0xF0 3 0x80 0xBF
  else if b = 0xF4 then first 0xF0 3 0x80 0x8F
  else .never

/-- Can the byte go on with the character? -/
def Pending.accepts (p : Pending) (b : UInt8) : Bool := p.least ≤ b && b ≤ p.greatest

/-- The character with one more byte. -/
def Pending.push (p : Pending) (b : UInt8) : Pending :=
  ⟨p.taken ++ [b], p.value * 64 + (b.toNat - 0x80), p.owed - 1, 0x80, 0xBF⟩

/-- One byte between characters; `next` reads the bytes after it. -/
def between (b : UInt8) (next : Option Pending → List Piece) : List Piece :=
  match start b with
  | .whole c => .char c :: next none
  | .longer p => next (some p)
  | .never => .malformed [b] .invalidStart :: next none

/-- The pieces of the bytes, from between characters or from within one. -/
def pieces : Option Pending → Bytes → List Piece
  | none, [] => []
  | some p, [] => [.malformed p.taken .unexpectedEnd]
  | none, b :: rest => between b fun state => pieces state rest
  | some p, b :: rest =>
    if p.accepts b then
      let grown := p.push b
      if grown.owed = 0 then .char (Char.ofNat grown.value) :: pieces none rest
      else pieces (some grown) rest
    else .malformed p.taken .invalidContinuation :: between b fun state => pieces state rest

/-- Reads any bytes, with U+FFFD for each malformed run. -/
def decodeLenient (bytes : Bytes) : Text :=
  (pieces none bytes).map fun
    | .char c => c
    | .malformed _ _ => Char.ofNat 0xFFFD

/-- The first malformed run: where it starts, its bytes, and what is wrong. -/
structure Error where
  position : Nat
  bytes : Bytes
  fault : Fault
  deriving DecidableEq, Repr

/-- The characters of the pieces, counting the bytes before each. -/
def characters : Nat → List Piece → Except Error Text
  | _, [] => .ok []
  | position, .char c :: rest => (characters (position + c.utf8Size) rest).map (c :: ·)
  | position, .malformed bytes fault :: _ => .error ⟨position, bytes, fault⟩

/-- Reads well-formed bytes. -/
def decode (bytes : Bytes) : Except Error Text :=
  characters 0 (pieces none bytes)

/-- The bytes of one character. -/
def encodeChar (c : Char) : Bytes :=
  let n := c.toNat
  let tail (unit : Nat) : UInt8 := UInt8.ofNat (0x80 + n / unit % 64)
  if n < 0x80 then [UInt8.ofNat n]
  else if n < 0x800 then [UInt8.ofNat (0xC0 + n / 64), tail 1]
  else if n < 0x10000 then [UInt8.ofNat (0xE0 + n / 4096), tail 64, tail 1]
  else [UInt8.ofNat (0xF0 + n / 262144), tail 4096, tail 64, tail 1]

/-- The bytes of a text. -/
def encode (t : Text) : Bytes := t.flatMap encodeChar

/-- What is wrong, in words. -/
def Fault.message : Fault → Text
  | .invalidStart => "invalid start byte"
  | .invalidContinuation => "invalid continuation byte"
  | .unexpectedEnd => "unexpected end of data"

/-- The failure of a strict reading, in words. -/
def Error.message (e : Error) : Text :=
  let place : Text := match e.bytes with
    | [b] => "byte 0x" ++ padByte b ++ " in position " ++ Text.ofNat e.position
    | bytes => "bytes in position " ++ Text.ofNat e.position ++ ['-']
        ++ Text.ofNat (e.position + bytes.length - 1)
  "'utf-8' codec can't decode " ++ place ++ ": " ++ e.fault.message
where
  /-- Two hexadecimal digits. -/
  padByte (b : UInt8) : Text := Text.padHex 2 b.toNat

end Utf8

end SiteAudit
