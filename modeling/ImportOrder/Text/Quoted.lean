import ImportOrder.Text.Printable

/-!
Text shown in quotes: single quotes, or double ones around a text that has a single quote and no
double one. What does not print is escaped by its code.
-/

namespace ImportOrder.Text

def hexDigit (n : Nat) : Char := (Nat.digitChar (n % 16))

/-- The last `width` hexadecimal digits of a number. -/
def hexDigits : Nat → Nat → List Char
  | 0, _ => []
  | width + 1, n => hexDigits width (n / 16) ++ [hexDigit n]

def apostrophe : Char := Char.ofNat 39

def quotationMark : Char := Char.ofNat 34

/-- One character between quotes of kind `mark`. -/
def quotedChar (mark c : Char) : List Char :=
  if c == mark || c == '\\' then ['\\', c]
  else if c == '\n' then ['\\', 'n']
  else if c == '\r' then ['\\', 'r']
  else if c == '\t' then ['\\', 't']
  else if isPrintable c then [c]
  else if c.toNat < 0x100 then '\\' :: 'x' :: hexDigits 2 c.toNat
  else if c.toNat < 0x10000 then '\\' :: 'u' :: hexDigits 4 c.toNat
  else '\\' :: 'U' :: hexDigits 8 c.toNat

def quotes (s : String) : Char :=
  if s.toList.contains apostrophe && !s.toList.contains quotationMark then quotationMark
  else apostrophe

def quoted (s : String) : String :=
  let mark := quotes s
  String.ofList (mark :: s.toList.flatMap (quotedChar mark) ++ [mark])

end ImportOrder.Text
