import ImportOrder.Text.Blank
import ImportOrder.Text

/-!
The tokens of a YAML document and the reasons for which one cannot be read.
-/

namespace ImportOrder.Yaml

inductive Error where
  /-- The text is no single YAML document, or has a tag or key that nothing is made from. -/
  | malformed
  /-- A scalar does not spell the number that its tag asks for. -/
  | badNumber
  /-- A scalar tagged as a number is empty. -/
  | noNumber
  /-- A scalar tagged as a truth value is none. -/
  | badTruth
  /-- A scalar tagged as a timestamp does not look like one. -/
  | badTimestamp
  /-- A mapping tagged as a timestamp names a text as its value. -/
  | noTimestamp
  /-- A date, a time or a character code that does not exist. -/
  | outOfRange
  | nestedTooDeep
deriving DecidableEq, Repr

inductive Token where
  | documentStart
  | documentEnd
  | versionDirective (major : Nat)
  | tagDirective (handle start : String)
  | otherDirective
  | blockSequence
  | blockMapping
  | blockEnd
  | flowSequence
  | flowSequenceEnd
  | flowMapping
  | flowMappingEnd
  | comma
  /-- The dash of a block sequence. -/
  | item
  | key
  | value
  | reference (name : String)
  | anchor (name : String)
  /-- A tag: its handle, if it has one, and the rest. -/
  | tag (handle : Option String) (suffix : String)
  | scalar (text : Text) (isPlain : Bool)
  | finish
deriving DecidableEq, Repr

/-- The characters a document may hold. -/
def isAllowed (c : Char) : Bool :=
  let n := c.toNat
  c == '\t' || c == '\n' || c == '\r' || (0x20 ≤ n && n ≤ 0x7e) || n == 0x85 ||
    (0xa0 ≤ n && n ≤ 0xd7ff) || (0xe000 ≤ n && n ≤ 0xfffd) || 0x10000 ≤ n

def isBreak (c : Char) : Bool :=
  c == '\n' || c == '\r' || c == '\x85' || c == '\u2028' || c == '\u2029'

/-- The end of a line or of the text. -/
def endsLine (c : Option Char) : Bool := c.all isBreak

/-- A space, or the end of a line or of the text. -/
def endsField (c : Option Char) : Bool := c.all fun c => c == ' ' || isBreak c

/-- A space, a tab, or the end of a line or of the text. -/
def endsWord (c : Option Char) : Bool := c.all fun c => c == ' ' || c == '\t' || isBreak c

/-- What names of anchors and directives are made of. -/
def isNameChar (c : Char) : Bool :=
  ('0' ≤ c && c ≤ '9') || ('A' ≤ c && c ≤ 'Z') || ('a' ≤ c && c ≤ 'z') || c == '-' || c == '_'

def isHexDigit (c : Char) : Bool :=
  ('0' ≤ c && c ≤ '9') || ('A' ≤ c && c ≤ 'F') || ('a' ≤ c && c ≤ 'f')

def hexValue (digits : Text) : Nat :=
  digits.foldl (fun n c =>
    n * 16 + if c ≤ '9' then c.toNat - 48 else c.toLower.toNat - 87) 0

end ImportOrder.Yaml
