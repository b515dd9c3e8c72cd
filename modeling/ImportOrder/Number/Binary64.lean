/-!
Binary floating-point numbers of 64 bits, kept exactly as a whole number times a power of two.
A quotient of whole numbers is rounded to the nearest one, ties going to the even neighbour.
-/

namespace ImportOrder

/-- The value of `finite negative m e` is `± m · 2 ^ e`, with `m < 2 ^ 53` and `-1074 ≤ e`, and `e`
as small as that allows. -/
inductive Binary64 where
  | finite (negative : Bool) (mantissa : Nat) (exponent : Int)
  | infinite (negative : Bool)
  | nan
deriving DecidableEq

namespace Binary64

def pow2 (n : Nat) : Nat := Nat.pow 2 n

def pow10 (n : Nat) : Nat := Nat.pow 10 n

def leastExponent : Int := -1074

def zero (negative : Bool) : Binary64 := .finite negative 0 leastExponent

/-- `num / den · 2 ^ -e` as a whole quotient and remainder, with the divisor used. -/
def scaled (num den : Nat) (e : Int) : Nat × Nat × Nat :=
  let num := if e < 0 then num * pow2 (-e).toNat else num
  let den := if e < 0 then den else den * pow2 e.toNat
  (num / den, num % den, den)

/-- The nearest number to `± num / den`. -/
def ofRatio (negative : Bool) (num den : Nat) : Binary64 :=
  if num == 0 || den == 0 then zero negative
  else
    let guess : Int := Int.ofNat num.log2 - Int.ofNat den.log2 - 52
    let e := if (scaled num den guess).1 < pow2 52 then guess - 1 else guess
    let e := max e leastExponent
    let (q, r, d) := scaled num den e
    let up := d < 2 * r || (d == 2 * r && q % 2 == 1)
    let q := if up then q + 1 else q
    let (q, e) := if q == pow2 53 then (pow2 52, e + 1) else (q, e)
    if 971 < e then .infinite negative else .finite negative q e

/-- The nearest number to `± digits · 10 ^ power`. -/
def ofDecimal (negative : Bool) (digits : Nat) (power : Int) : Binary64 :=
  if power < 0 then ofRatio negative digits (pow10 (-power).toNat)
  else ofRatio negative (digits * pow10 power.toNat) 1

def ofInt (n : Int) : Binary64 := ofRatio (n < 0) n.natAbs 1

def isNegative : Binary64 → Bool
  | .finite n _ _ | .infinite n => n
  | .nan => false

def negate : Binary64 → Binary64
  | .finite n m e => .finite (!n) m e
  | .infinite n => .infinite (!n)
  | .nan => .nan

/-- The exact value of a finite number as `(n, k)` with the meaning `n / 2 ^ k`. -/
def ratio? : Binary64 → Option (Int × Nat)
  | .finite negative m e =>
    let n : Int := if e < 0 then m else m * pow2 e.toNat
    some (if negative then -n else n, (-e).toNat)
  | _ => none

/-- The nearest number to `n / 2 ^ k`. -/
def ofExact (n : Int) (k : Nat) : Binary64 := ofRatio (n < 0) n.natAbs (pow2 k)

def add (a b : Binary64) : Binary64 :=
  match a.ratio?, b.ratio? with
  | some (m, j), some (n, k) => ofExact (m * pow2 k + n * pow2 j) (j + k)
  | some _, none => b
  | none, some _ => a
  | none, none => if a = b then a else .nan

def mul (a b : Binary64) : Binary64 :=
  match a.ratio?, b.ratio? with
  | some (m, j), some (n, k) =>
    ofRatio (a.isNegative != b.isNegative) (m * n).natAbs (pow2 (j + k))
  | some (m, _), none | none, some (m, _) =>
    if m == 0 || a == .nan || b == .nan then .nan else .infinite (a.isNegative != b.isNegative)
  | none, none =>
    if a == .nan || b == .nan then .nan else .infinite (a.isNegative != b.isNegative)

/-- A number by its order: below all finite ones, finite and exact, or above them. -/
inductive Rank where
  | bottom
  | ratio (n : Int) (k : Nat)
  | top

def rank? : Binary64 → Option Rank
  | .nan => none
  | .infinite true => some .bottom
  | .infinite false => some .top
  | .finite n m e => (ratio? (.finite n m e)).map fun (a, k) => .ratio a k

def Rank.compare : Rank → Rank → Ordering
  | .bottom, .bottom | .top, .top => .eq
  | .bottom, _ | _, .top => .lt
  | _, .bottom | .top, _ => .gt
  | .ratio a j, .ratio b k => Ord.compare (a * pow2 k) (b * pow2 j)

end Binary64
end ImportOrder
