import SiteAudit.Number.Numeral
import SiteAudit.Yaml.Mark

/-!
# What can be wrong with a YAML text

The causes for which a text is not a document. Most of them are problems at a place, found while
something that began at an earlier place was read. `Error.message` gives the words, and
`Error.reason?` tells the causes that are reported as such from those of a scalar that its
explicit tag cannot take, which have no words of their own.
-/

namespace SiteAudit.Yaml

/-- What was being read when a problem was found. -/
inductive Context where
  | nextToken
  | simpleKey
  | directive
  | alias
  | anchor
  | tag
  | tagUri
  | directiveUri
  | blockScalar
  | doubleQuoted
  | quotedScalar
  | node
  | blockNode
  | flowNode
  | blockCollection
  | blockMapping
  | flowSequence
  | flowMapping
  | singleDocument
  | firstOccurrence (anchor : Text)
  | mapping
  | orderedMap
  | pairs
  deriving DecidableEq, Repr

/-- What should have stood where another character was found. -/
inductive Expected where
  | alphanumeric
  | digitOrPoint
  | digitOrSpace
  | digit
  | space
  | exclamationMark
  | closingBracket
  | uri
  | uriEscape
  | chompingOrIndentation
  | commentOrBreak
  | hexadecimal (count : Nat)
  deriving DecidableEq, Repr

/-- Why bytes are not the date and time that they seem to be. -/
inductive CalendarError where
  | year (n : Nat)
  | month
  | day
  | hour
  | minute
  | second
  /-- The offset in minutes is a day or more. -/
  | offset (minutes : Int)
  deriving DecidableEq, Repr

/-- What is wrong at a place. -/
inductive Problem where
  | expected (what : Expected) (found : Option Char)
  | cannotStartToken (found : Option Char)
  | noColon
  | noSequenceEntry
  | noMappingKey
  | noMappingValue
  | zeroIndentation
  | unknownEscape (found : Option Char)
  | endInQuotes
  | separatorInQuotes
  | uriBytes (reason : Text)
  | noDocumentStart (found : Text)
  | secondVersion
  | wrongVersion
  | secondHandle (handle : Text)
  | undefinedHandle (handle : Text)
  | noContent (found : Text)
  | noBlockEnd (found : Text)
  | noSequenceSeparator (found : Text)
  | noMappingSeparator (found : Text)
  | secondDocument
  | undefinedAlias (name : Text)
  | secondOccurrence
  | unknownTag (name : Text)
  | notAScalar (kind : Text)
  | notASequence (kind : Text)
  | notAMapping (kind : Text)
  | unhashableKey
  | mergeOf (kind : Text)
  | mergeWith (kind : Text)
  | entriesNotASequence (kind : Text)
  | entryNotAMapping (kind : Text)
  | entryOfMany (count : Nat)
  | base64 (reason : Text)
  | notAscii (reason : Text)
  deriving DecidableEq, Repr

/-- A scalar that has an explicit tag and a text which the tag cannot take. -/
inductive Unsuitable where
  | boolean (text : Text)
  | emptyNumber
  | timestamp (text : Text)
  /-- A mapping stands where a timestamp is written. -/
  | timestampMapping
  /-- The weight of a digit group exceeds every binary number. -/
  | digitGroup
  /-- The code point of an escape needs more than 31 bits. -/
  | escape
  /-- A mapping keeps itself under the key of a value, so that the scalar it stands for is never
  found. -/
  | circular
  deriving DecidableEq, Repr

/-- Why a text is not a document. -/
inductive Error where
  | unacceptable (c : Char) (position : Nat)
  | at_ (context : Option (Context × Option Mark)) (problem : Problem) (mark : Mark)
  | numeral (cause : NumeralError)
  | calendar (cause : CalendarError)
  | codePoint
  | unsuitable (cause : Unsuitable)
  deriving DecidableEq, Repr

/-- A character that was found, where the end of the text shows as the character of code zero. -/
def foundChar : Option Char → Text
  | some c => Text.quoted [c]
  | none => Text.quoted ['\x00']

/-- What was being read, in words. -/
def Context.message : Context → Text
  | .nextToken => "while scanning for the next token"
  | .simpleKey => "while scanning a simple key"
  | .directive => "while scanning a directive"
  | .alias => "while scanning an alias"
  | .anchor => "while scanning an anchor"
  | .tag => "while scanning a tag"
  | .tagUri => "while parsing a tag"
  | .directiveUri => "while parsing a directive"
  | .blockScalar => "while scanning a block scalar"
  | .doubleQuoted => "while scanning a double-quoted scalar"
  | .quotedScalar => "while scanning a quoted scalar"
  | .node => "while parsing a node"
  | .blockNode => "while parsing a block node"
  | .flowNode => "while parsing a flow node"
  | .blockCollection => "while parsing a block collection"
  | .blockMapping => "while parsing a block mapping"
  | .flowSequence => "while parsing a flow sequence"
  | .flowMapping => "while parsing a flow mapping"
  | .singleDocument => "expected a single document in the stream"
  | .firstOccurrence name =>
    "found duplicate anchor " ++ Text.quoted name ++ "; first occurrence"
  | .mapping => "while constructing a mapping"
  | .orderedMap => "while constructing an ordered map"
  | .pairs => "while constructing pairs"

/-- What should have stood there, in words. -/
def Expected.message : Expected → Text
  | .alphanumeric => "expected alphabetic or numeric character"
  | .digitOrPoint => "expected a digit or '.'"
  | .digitOrSpace => "expected a digit or ' '"
  | .digit => "expected a digit"
  | .space => "expected ' '"
  | .exclamationMark => "expected '!'"
  | .closingBracket => "expected '>'"
  | .uri => "expected URI"
  | .uriEscape => "expected URI escape sequence of 2 hexadecimal numbers"
  | .chompingOrIndentation => "expected chomping or indentation indicators"
  | .commentOrBreak => "expected a comment or a line break"
  | .hexadecimal count =>
    "expected escape sequence of " ++ Text.ofNat count ++ " hexadecimal numbers"

/-- The problem in words. -/
def Problem.message : Problem → Text
  | .expected what found => what.message ++ ", but found " ++ foundChar found
  | .cannotStartToken found =>
    "found character " ++ foundChar found ++ " that cannot start any token"
  | .noColon => "could not find expected ':'"
  | .noSequenceEntry => "sequence entries are not allowed here"
  | .noMappingKey => "mapping keys are not allowed here"
  | .noMappingValue => "mapping values are not allowed here"
  | .zeroIndentation => "expected indentation indicator in the range 1-9, but found 0"
  | .unknownEscape found => "found unknown escape character " ++ foundChar found
  | .endInQuotes => "found unexpected end of stream"
  | .separatorInQuotes => "found unexpected document separator"
  | .uriBytes reason => reason
  | .noDocumentStart found => "expected '<document start>', but found " ++ Text.quoted found
  | .secondVersion => "found duplicate YAML directive"
  | .wrongVersion => "found incompatible YAML document (version 1.* is required)"
  | .secondHandle handle => "duplicate tag handle " ++ Text.quoted handle
  | .undefinedHandle handle => "found undefined tag handle " ++ Text.quoted handle
  | .noContent found => "expected the node content, but found " ++ Text.quoted found
  | .noBlockEnd found => "expected <block end>, but found " ++ Text.quoted found
  | .noSequenceSeparator found => "expected ',' or ']', but got " ++ Text.quoted found
  | .noMappingSeparator found => "expected ',' or '\x7d', but got " ++ Text.quoted found
  | .secondDocument => "but found another document"
  | .undefinedAlias name => "found undefined alias " ++ Text.quoted name
  | .secondOccurrence => "second occurrence"
  | .unknownTag name => "could not determine a constructor for the tag " ++ Text.quoted name
  | .notAScalar kind => "expected a scalar node, but found " ++ kind
  | .notASequence kind => "expected a sequence node, but found " ++ kind
  | .notAMapping kind => "expected a mapping node, but found " ++ kind
  | .unhashableKey => "found unhashable key"
  | .mergeOf kind => "expected a mapping for merging, but found " ++ kind
  | .mergeWith kind => "expected a mapping or list of mappings for merging, but found " ++ kind
  | .entriesNotASequence kind => "expected a sequence, but found " ++ kind
  | .entryNotAMapping kind => "expected a mapping of length 1, but found " ++ kind
  | .entryOfMany count =>
    "expected a single mapping item, but found " ++ Text.ofNat count ++ " items"
  | .base64 reason => "failed to decode base64 data: " ++ reason
  | .notAscii reason => "failed to convert base64 data into ascii: " ++ reason

/-- A span of time of the given number of minutes, in days and seconds of the last day. -/
def spanText (minutes : Int) : Text :=
  let days := Int.fdiv minutes 1440
  let seconds := Int.fmod minutes 1440 * 60
  let more : Text := ", seconds=" ++ Text.ofInt seconds
  "datetime.timedelta(days=" ++ Text.ofInt days ++ (if seconds = 0 then [] else more) ++ ")"

/-- The reason in words. -/
def CalendarError.message : CalendarError → Text
  | .year n => "year " ++ Text.ofNat n ++ " is out of range"
  | .month => "month must be in 1..12"
  | .day => "day is out of range for month"
  | .hour => "hour must be in 0..23"
  | .minute => "minute must be in 0..59"
  | .second => "second must be in 0..59"
  | .offset minutes =>
    "offset must be a timedelta strictly between -timedelta(hours=24) and timedelta(hours=24), not "
      ++ spanText minutes ++ "."

/-- The reason in words, for the causes that are reported; the place of the context is left out
where it is also the place of the problem. -/
def Error.reason? (text : Text) : Error → Option Text
  | .unacceptable c position => some <|
    "unacceptable character #x" ++ Text.padHex 4 c.toNat
      ++ ": special characters are not allowed\n  in \"<unicode string>\", position "
      ++ Text.ofNat position
  | .at_ context problem mark =>
    let before : List Text := match context with
      | none => []
      | some (context, none) => [context.message]
      | some (context, some place) =>
        if place.sameSpot mark then [context.message]
        else [context.message, place.describe text]
    some <| Text.join "\n" (before ++ [problem.message, mark.describe text])
  | .numeral cause => some cause.message
  | .calendar cause => some cause.message
  | .codePoint => some "chr() arg not in range(0x110000)"
  | .unsuitable _ => none

end SiteAudit.Yaml
