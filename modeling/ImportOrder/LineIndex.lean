import ImportOrder.Statement

/-!
Where the lines of a document start and end. A line ends at a line feed, at a carriage return, or
at the two together, which count as one.
-/

namespace ImportOrder

namespace Text

def isBreak (c : Char) : Bool := c == '\n' || c == '\r'

def firstBreak : Text → Option Text
  | [] => none
  | '\r' :: '\n' :: _ => some ['\r', '\n']
  | c :: rest => if isBreak c then some [c] else firstBreak rest

/-- The offsets just after the line breaks of a text that itself starts at `offset`. -/
def startsFrom (offset : Nat) : Text → List Nat
  | [] => []
  | '\r' :: '\n' :: rest => (offset + 2) :: startsFrom (offset + 2) rest
  | c :: rest =>
      if isBreak c then (offset + 1) :: startsFrom (offset + 1) rest
      else startsFrom (offset + 1) rest

end Text

/-- A document with the offsets at which its lines start. -/
structure LineIndex where
  text : Text
  starts : List Nat

namespace LineIndex

def ofText (text : Text) : LineIndex := ⟨text, 0 :: text.startsFrom 0⟩

/-- The start of a line, counted from 1. -/
def lineStart (index : LineIndex) (line : Nat) : Nat := index.starts.getD (line - 1) 0

def offset (index : LineIndex) (p : Position) : Nat := index.lineStart p.line + p.column

/-- The offset of the line break that ends a line, or of the end of the text. -/
def lineEnd (index : LineIndex) (line : Nat) : Nat :=
  let start := index.lineStart line
  start + ((index.text.drop start).takeWhile (!Text.isBreak ·)).length

end LineIndex
end ImportOrder
