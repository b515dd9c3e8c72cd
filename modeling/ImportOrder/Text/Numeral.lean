import ImportOrder.Text
import ImportOrder.Text.Word

/-!
Whole numbers as texts spell them.
-/

namespace ImportOrder.Text

/-- Blanks that may stand around a number: of those of ASCII, the separators of records may not. -/
def isNumberBlank (c : Char) : Bool := isBlank c && !(0x1c ≤ c.toNat && c.toNat ≤ 0x1f)

def trimBlanks (t : Text) : Text := trimEnd isNumberBlank (t.dropWhile isNumberBlank)

/-- A decimal digit of any script as one of ASCII; other characters stay. -/
def asciiDigit (c : Char) : Char := if isDecimal c then Char.ofNat (0x30 + decimalValue c) else c

def digit? (base : Nat) (c : Char) : Option Nat :=
  let value :=
    if c.isAlpha then some (c.toLower.toNat - 87)
    else if isDecimal c then some (decimalValue c)
    else none
  value.filter (· < base)

/-- Decimal numbers of more digits are not read. -/
def decimalLimit : Nat := 4300

/-- A whole number in a base, perhaps with blanks around it, a sign, the mark of the base, and
single underscores between its digits. -/
def wholeNumber? (base : Nat) (mark : Option Char) (t : Text) : Option Int := do
  let (negative, body) := match trimBlanks t with
    | '-' :: r => (true, r)
    | '+' :: r => (false, r)
    | r => (false, r)
  let body := match body with
    | '0' :: c :: r => if mark == some c.toLower && !r.isEmpty then r else body
    | _ => body
  guard ((body.splitOn '_').all (!·.isEmpty))
  let digits ← (body.filter (· != '_')).mapM (digit? base)
  guard (base != 10 || digits.length ≤ decimalLimit)
  let n : Nat := digits.foldl (fun n d => n * base + d) 0
  return if negative then -n else n

end ImportOrder.Text
