import ImportOrder.Text.Ranges

/-!
White space of every script, and the characters that end a printed line.
-/

namespace ImportOrder.Text

def blankRanges : List (Nat × Nat) :=
  [
   (0x9, 0xd), (0x1c, 0x20), (0x85, 0x85), (0xa0, 0xa0), (0x1680, 0x1680),
   (0x2000, 0x200a), (0x2028, 0x2029), (0x202f, 0x202f), (0x205f, 0x205f), (0x3000, 0x3000)]

def isBlank (c : Char) : Bool := covers blankRanges c

/-- Characters that end a line when text is split for display. -/
def lineEndRanges : List (Nat × Nat) :=
  [(0x0a, 0x0d), (0x1c, 0x1e), (0x85, 0x85), (0x2028, 0x2029)]

def isLineEnd (c : Char) : Bool := covers lineEndRanges c

end ImportOrder.Text
