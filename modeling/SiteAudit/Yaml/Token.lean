import SiteAudit.Yaml.Error

/-!
# Tokens

The words of a YAML text: indicators, the starts and ends of block collections that the
indentation decides, and the names, tags and scalars with what is written in them.
-/

namespace SiteAudit.Yaml

/-- What is written in a scalar. An escape may stand for half of a surrogate pair, which is no
character: the text has U+FFFD in its place, and the code points in all places of U+FFFD are listed
beside it. Nothing is listed where all of them are characters. -/
structure Scalar where
  text : Text
  halves : List Nat
  deriving DecidableEq, Repr

/-- A scalar of characters. -/
def Scalar.ofText (t : Text) : Scalar := ⟨t, []⟩

/-- What a directive line says. -/
inductive Directive where
  | version (major minor : Nat)
  | handle (handle start : Text)
  | reserved (name : Text)
  deriving DecidableEq, Repr

namespace Token

/-- The kinds of tokens. -/
inductive Kind where
  | directive (directive : Directive)
  | documentStart
  | documentEnd
  | streamEnd
  | blockSequenceStart
  | blockMappingStart
  | blockEnd
  | flowSequenceStart
  | flowSequenceEnd
  | flowMappingStart
  | flowMappingEnd
  | key
  | value
  | blockEntry
  | flowEntry
  | alias (name : Text)
  | anchor (name : Text)
  /-- A tag without a handle is written out. -/
  | tag (handle : Option Text) (suffix : Text)
  | scalar (scalar : Scalar) (plain : Bool)
  deriving DecidableEq, Repr

/-- The kind in words. -/
def Kind.name : Kind → Text
  | .directive _ => "<directive>"
  | .documentStart => "<document start>"
  | .documentEnd => "<document end>"
  | .streamEnd => "<stream end>"
  | .blockSequenceStart => "<block sequence start>"
  | .blockMappingStart => "<block mapping start>"
  | .blockEnd => "<block end>"
  | .flowSequenceStart => "["
  | .flowSequenceEnd => "]"
  | .flowMappingStart => "\x7b"
  | .flowMappingEnd => "\x7d"
  | .key => "?"
  | .value => ":"
  | .blockEntry => "-"
  | .flowEntry => ","
  | .alias _ => "<alias>"
  | .anchor _ => "<anchor>"
  | .tag .. => "<tag>"
  | .scalar .. => "<scalar>"

end Token

/-- A token and the places where it starts and stops. -/
structure Token where
  kind : Token.Kind
  start : Mark
  stop : Mark
  deriving DecidableEq, Repr

/-- Items that are read one after the other, up to the place where the reading fails, if it
does. A failure counts only when the item after the last one is asked for. -/
structure Feed (α : Type) where
  items : List α
  failure : Option Error

end SiteAudit.Yaml
