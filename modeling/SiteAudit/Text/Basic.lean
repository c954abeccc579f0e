/-!
# Texts

A text is the list of its characters, so that every function on texts is a recursion on lists.
Here are the general operations: cutting, joining, searching and trimming, decimal
numerals, and the two classes of characters that have to do with space: blanks and line breaks.
-/

namespace SiteAudit

/-- A text is the list of its characters. -/
abbrev Text := List Char

instance : Coe String Text := ⟨String.toList⟩

namespace Text

/-- The text as it is handed to the outside. -/
def toString (t : Text) : String := String.ofList t

/-- The pieces between the separators; a text without one is its own only piece. -/
def splitOn (sep : Char) : Text → List Text
  | [] => [[]]
  | c :: rest =>
    if c = sep then [] :: splitOn sep rest
    else match splitOn sep rest with
      | [] => [[c]]
      | piece :: pieces => (c :: piece) :: pieces

/-- The parts with the separator between neighbours. -/
def join (sep : Text) : List Text → Text
  | [] => []
  | [part] => part
  | part :: parts => part ++ sep ++ join sep parts

/-- What follows the given beginning, if the text has it. -/
def dropPrefix? : Text → Text → Option Text
  | [], t => some t
  | _ :: _, [] => none
  | p :: ps, c :: cs => if p = c then dropPrefix? ps cs else none

/-- Does the text begin so? -/
def startsWith (t start : Text) : Bool := (dropPrefix? start t).isSome

/-- Does the text end so? -/
def endsWith (t ending : Text) : Bool := startsWith t.reverse ending.reverse

/-- Does the text occur somewhere in the other? -/
def occursIn (needle : Text) : Text → Bool
  | [] => needle.isEmpty
  | c :: rest => startsWith (c :: rest) needle || occursIn needle rest

/-- Does some end of the text satisfy the condition? -/
def anyEnd (p : Text → Bool) : Text → Bool
  | [] => p []
  | c :: rest => p (c :: rest) || anyEnd p rest

/-- White space: the characters that are trimmed from the ends of a text. -/
def isBlank (c : Char) : Bool :=
  let n := c.toNat
  (9 ≤ n && n ≤ 13) || (28 ≤ n && n ≤ 32) || n == 0x85 || n == 0xA0 || n == 0x1680
    || (0x2000 ≤ n && n ≤ 0x200A) || n == 0x2028 || n == 0x2029 || n == 0x202F
    || n == 0x205F || n == 0x3000

/-- The text without its leading white space. -/
def trimStart (t : Text) : Text := t.dropWhile isBlank

/-- The text without the white space at its two ends. -/
def trim (t : Text) : Text := (trimStart (trimStart t).reverse).reverse

/-- The characters that end a line in the widest sense. -/
def isLineEnd (c : Char) : Bool :=
  let n := c.toNat
  (10 ≤ n && n ≤ 13) || (28 ≤ n && n ≤ 30) || n == 0x85 || n == 0x2028 || n == 0x2029

/-- The lines of a text in the widest sense; a carriage return and the line feed after it end one
line together, and nothing follows the last line end. -/
def lines : Text → List Text
  | [] => []
  | '\r' :: '\n' :: rest => [] :: lines rest
  | c :: rest =>
    if isLineEnd c then [] :: lines rest
    else match rest, lines rest with
      | _ :: _, line :: more => (c :: line) :: more
      | _, _ => [[c]]

/-- The decimal numeral of a natural number. -/
def ofNat (n : Nat) : Text := Nat.toDigits 10 n

/-- The decimal numeral of an integer. -/
def ofInt : Int → Text
  | .ofNat n => ofNat n
  | .negSucc n => '-' :: ofNat (n + 1)

/-- The text filled up on the left to the given length. -/
def padLeft (width : Nat) (fill : Char) (t : Text) : Text :=
  List.replicate (width - t.length) fill ++ t

/-- The decimal numeral with zeros in front up to the given length. -/
def padNat (width n : Nat) : Text := padLeft width '0' (ofNat n)

/-- The lower case hexadecimal numeral with zeros in front up to the given length. -/
def padHex (width n : Nat) : Text := padLeft width '0' (Nat.toDigits 16 n)

/-- The order of texts by code points. -/
def before (s t : Text) : Bool := decide (s < t)

end Text

/-- Puts an element before the first one that must not precede it. -/
def insertBy {α : Type} (before : α → α → Bool) (x : α) : List α → List α
  | [] => [x]
  | y :: rest => if before y x then y :: insertBy before x rest else x :: y :: rest

/-- The elements in order; of elements that neither precedes, the earlier one stays first. -/
def sortBy {α : Type} (before : α → α → Bool) (l : List α) : List α :=
  l.foldr (insertBy before) []

end SiteAudit
