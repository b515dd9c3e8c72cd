import ImportOrder.Number.Binary64

/-!
Decimal text of binary numbers. A number is written with the fewest digits that read back as the
same number, and of those digits with the nearest to it.
-/

namespace ImportOrder.Binary64

/-- Is `10 ^ p ≤ n / d`? -/
def reaches (n d : Nat) (p : Int) : Bool :=
  if p < 0 then d ≤ n * pow10 (-p).toNat else d * pow10 p.toNat ≤ n

/-- The greatest `p` with `10 ^ p ≤ n / d`, sought downwards from `p` in `fuel` steps. -/
def leadingPower (n d : Nat) : Nat → Int → Int
  | 0, p => p
  | fuel + 1, p => if reaches n d p then p else leadingPower n d fuel (p - 1)

/-- The decimals with last place `10 ^ power` next to `n / d`, the nearer one first. -/
def neighbours (n d : Nat) (power : Int) : List Nat :=
  let num := if power < 0 then n * pow10 (-power).toNat else n
  let den := if power < 0 then d else d * pow10 power.toNat
  let below := num / den
  if 2 * (num % den) ≤ den then [below, below + 1] else [below + 1, below]

/-- The shortest decimal that reads back: its digits and the power of its last place. -/
def shortestFrom (x : Binary64) (n d : Nat) : Nat → Int → Nat × Int
  | 0, power => (n / d, power)
  | fuel + 1, power =>
    match (neighbours n d power).find? fun c => ofDecimal false c power == x with
    | some c => (c, power)
    | none => shortestFrom x n d fuel (power - 1)

/-- Digits and power of the last place of a positive number `m · 2 ^ e`. -/
def shortest (m : Nat) (e : Int) : Nat × Int :=
  let n := if e < 0 then m else m * pow2 e.toNat
  let d := if e < 0 then pow2 (-e).toNat else 1
  let high := (Int.ofNat m.log2 + e + 1) * 30103 / 100000 + 1
  let lead := leadingPower n d 4 high
  shortestFrom (.finite false m e) n d 18 lead

/-- Digits without the zeros at their end, with the power of the last one kept. -/
def stripZeros : List Char → Int → List Char × Int
  | '0' :: rest, power => stripZeros rest (power + 1)
  | digits, power => (digits.reverse, power)

def exponentText (e : Int) : List Char :=
  let digits := Nat.toDigits 10 e.natAbs
  'e' :: (if e < 0 then '-' else '+') :: (if digits.length < 2 then '0' :: digits else digits)

/-- Positional from 0.0001 up to 16 digits before the point, with an exponent outside; a point
always stands in positional text. -/
def decimalText (digits : List Char) (power : Int) : List Char :=
  let point := power + digits.length
  if -4 < point && point ≤ 16 then
    if point ≤ 0 then
      '0' :: '.' :: List.replicate (-point).toNat '0' ++ digits
    else if point.toNat < digits.length then
      digits.take point.toNat ++ '.' :: digits.drop point.toNat
    else
      digits ++ List.replicate (point.toNat - digits.length) '0' ++ ['.', '0']
  else
    match digits with
    | [] => []
    | [d] => d :: exponentText (point - 1)
    | d :: rest => d :: '.' :: rest ++ exponentText (point - 1)

def toText : Binary64 → String
  | .nan => "nan"
  | .infinite false => "inf"
  | .infinite true => "-inf"
  | .finite negative m e =>
    let body :=
      if m == 0 then ['0', '.', '0']
      else
        let (digits, power) := shortest m e
        let (digits, power) := stripZeros (Nat.toDigits 10 digits).reverse power
        decimalText digits power
    String.ofList (if negative then '-' :: body else body)

def digitsValue (digits : List Char) : Nat :=
  digits.foldl (fun n c => n * 10 + (c.toNat - 48)) 0

/-- A signed whole number, as in an exponent. -/
def exponent? : List Char → Option Int
  | '-' :: rest => if rest.isEmpty || !rest.all Char.isDigit then none else some (-(digitsValue rest))
  | '+' :: rest => if rest.isEmpty || !rest.all Char.isDigit then none else some (digitsValue rest)
  | rest => if rest.isEmpty || !rest.all Char.isDigit then none else some (digitsValue rest)

/-- Reads an unsigned decimal: digits, a point with digits, an exponent. -/
def unsigned? (negative : Bool) (t : List Char) : Option Binary64 := do
  let whole := t.takeWhile Char.isDigit
  let rest := t.dropWhile Char.isDigit
  let (places, rest) := match rest with
    | '.' :: r => (r.takeWhile Char.isDigit, r.dropWhile Char.isDigit)
    | r => ([], r)
  if whole.isEmpty && places.isEmpty then none
  let shift ← match rest with
    | [] => some 0
    | c :: r => if c == 'e' || c == 'E' then exponent? r else none
  return ofDecimal negative (digitsValue (whole ++ places)) (shift - places.length)

/-- Reads the text of a number, also an infinity or no number. -/
def ofText? (t : List Char) : Option Binary64 :=
  let (negative, body) := match t with
    | '-' :: r => (true, r)
    | '+' :: r => (false, r)
    | r => (false, r)
  if body == ['i', 'n', 'f'] then some (.infinite negative)
  else if body == ['n', 'a', 'n'] then some .nan
  else unsigned? negative body

end ImportOrder.Binary64
