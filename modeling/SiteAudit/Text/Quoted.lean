import SiteAudit.Text.Basic
import SiteAudit.Text.Printable

/-!
# Quoted texts

How a text is shown inside a message: between quotes, on one line, with everything that is not
printable written as an escape.
-/

namespace SiteAudit.Text

/-- The code point as an escape of the shortest kind that can hold it. -/
def codeEscape (c : Char) : Text :=
  let n := c.toNat
  if n < 0x100 then ['\\', 'x'] ++ padHex 2 n
  else if n < 0x10000 then ['\\', 'u'] ++ padHex 4 n
  else ['\\', 'U'] ++ padHex 8 n

/-- One character between the given quotes. -/
def quotedChar (quote c : Char) : Text :=
  if c = quote ∨ c = '\\' then ['\\', c]
  else if c = '\n' then ['\\', 'n']
  else if c = '\r' then ['\\', 'r']
  else if c = '\t' then ['\\', 't']
  else if isPrintable c then [c]
  else codeEscape c

/-- The single quote, unless the text holds it and no double quote. -/
def quoteFor (t : Text) : Char :=
  if t.contains '\'' && !t.contains '"' then '"' else '\''

/-- The text between quotes. -/
def quoted (t : Text) : Text :=
  let quote := quoteFor t
  quote :: t.flatMap (quotedChar quote) ++ [quote]

end SiteAudit.Text
