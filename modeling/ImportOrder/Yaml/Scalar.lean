import ImportOrder.Regex.Parser
import ImportOrder.Regex.Search
import ImportOrder.Text.Numeral
import ImportOrder.Value
import ImportOrder.Yaml.Token

/-!
What scalars stand for: the tag of a scalar without quotes, and the value of a text under a tag.
-/

namespace ImportOrder.Yaml

namespace Tag

def standard (name : String) : String := "tag:yaml.org,2002:" ++ name

def null : String := standard "null"
def bool : String := standard "bool"
def int : String := standard "int"
def float : String := standard "float"
def str : String := standard "str"
def binary : String := standard "binary"
def timestamp : String := standard "timestamp"
def merge : String := standard "merge"
def value : String := standard "value"
def seq : String := standard "seq"
def map : String := standard "map"
def omap : String := standard "omap"
def pairs : String := standard "pairs"
def set : String := standard "set"

def isCollection (tag : String) : Bool := [seq, map, omap, pairs, set].contains tag

/-- A kind of text that has a tag of its own without being tagged. -/
structure Spelling where
  tag : String
  /-- What such a text can start with; an empty text has no start. -/
  starts : List Char
  mayBeEmpty : Bool := false
  /-- Regular expressions for the whole text. -/
  forms : List String

def digits : List Char := "0123456789".toList

/-- The spellings, those that are tried first before the others. -/
def spellings : List Spelling :=
  [{ tag := bool, starts := "yYnNtTfFoO".toList,
     forms := ["yes", "Yes", "YES", "no", "No", "NO", "true", "True", "TRUE",
       "false", "False", "FALSE", "on", "On", "ON", "off", "Off", "OFF"] },
   { tag := float, starts := ['-', '+', '.'] ++ digits,
     forms := ["[-+]?[0-9][0-9_]*\\.[0-9_]*(?:[eE][-+][0-9]+)?",
       "\\.[0-9][0-9_]*(?:[eE][-+][0-9]+)?",
       "[-+]?[0-9][0-9_]*(?::[0-5]?[0-9])+\\.[0-9_]*",
       "[-+]?\\.(?:inf|Inf|INF)",
       "\\.(?:nan|NaN|NAN)"] },
   { tag := int, starts := ['-', '+'] ++ digits,
     forms := ["[-+]?0b[0-1_]+", "[-+]?0[0-7_]+", "[-+]?(?:0|[1-9][0-9_]*)",
       "[-+]?0x[0-9a-fA-F_]+", "[-+]?[1-9][0-9_]*(?::[0-5]?[0-9])+"] },
   { tag := merge, starts := ['<'], forms := ["<<"] },
   { tag := null, starts := ['~', 'n', 'N'], mayBeEmpty := true,
     forms := ["~", "null", "Null", "NULL", ""] },
   { tag := timestamp, starts := digits,
     forms := ["[0-9][0-9][0-9][0-9]-[0-9][0-9]-[0-9][0-9]",
       "[0-9][0-9][0-9][0-9]-[0-9][0-9]?-[0-9][0-9]?(?:[Tt]|[ \\t]+)[0-9][0-9]?:[0-9][0-9]" ++
         ":[0-9][0-9](?:\\.[0-9]*)?(?:[ \\t]*(?:Z|[-+][0-9][0-9]?(?::[0-9][0-9])?))?"] },
   { tag := value, starts := ['='], forms := ["="] }]

def Spelling.accepts (s : Spelling) (t : Text) : Bool :=
  (match t with
    | [] => s.mayBeEmpty
    | c :: _ => s.starts.contains c) &&
  s.forms.any fun form =>
    match Regex.Expr.parse ('^' :: form.toList ++ ['$']) with
    | .ok e => e.foundIn t
    | .error _ => false

/-- The tag of a text without quotes. -/
def ofPlain (t : Text) : String := ((spellings.find? (·.accepts t)).map (·.tag)).getD str

end Tag

namespace Scalar

def wholeNumber (base : Nat) (mark : Option Char) (t : Text) : Except Error Int :=
  match Text.wholeNumber? base mark t with
  | some n => .ok n
  | none => .error .badNumber

def colonParts (t : Text) : List Text := t.splitOn ':'

/-- The sign of a number without underscores, and what follows it. -/
def signed (t : Text) : Except Error (Bool × Text) :=
  match t.filter (· != '_') with
  | [] => .error .noNumber
  | '-' :: r => .ok (true, r)
  | '+' :: r => .ok (false, r)
  | r => .ok (false, r)

/-- A whole number: binary, octal, decimal, hexadecimal, or in parts of sixty. -/
def int (t : Text) : Except Error Int := do
  let (negative, body) ← signed t
  let n ← match body with
    | [] => throw .noNumber
    | ['0'] => pure 0
    | '0' :: 'b' :: r => wholeNumber 2 (some 'b') r
    | '0' :: 'x' :: r => wholeNumber 16 (some 'x') r
    | '0' :: _ => wholeNumber 8 (some 'o') body
    | _ =>
        if body.contains ':' then
          (colonParts body).foldlM (fun n part => return n * 60 + (← wholeNumber 10 none part)) 0
        else wholeNumber 10 none body
  return if negative then -n else n

def decimal (t : Text) : Except Error Binary64 :=
  match Binary64.ofText? ((Text.trimBlanks t).map Text.asciiDigit) with
  | some x => .ok x
  | none => .error .badNumber

/-- Parts of sixty, the last part first. -/
def sixtieths (parts : List Binary64) : Binary64 :=
  let (sum, _) := parts.foldl (fun (sum, base) part =>
    (sum.add (part.mul (.ofInt base)), base * 60)) (Binary64.zero false, (1 : Int))
  sum

def float (t : Text) : Except Error Binary64 := do
  let (negative, body) ← signed (t.map Char.toLower)
  if body == ".nan".toList then return .nan
  let x ← if body == ".inf".toList then pure (.infinite false)
    else if body.contains ':' then do
      return sixtieths (← (colonParts body).mapM decimal).reverse
    else decimal body
  return if negative then x.negate else x

def bool (t : Text) : Except Error Bool :=
  let word := String.ofList (t.map Char.toLower)
  if ["yes", "true", "on"].contains word then .ok true
  else if ["no", "false", "off"].contains word then .ok false
  else .error .badTruth

/-- The six bits of a character of the base 64 alphabet. -/
def sextet? (c : Char) : Option Nat :=
  if 'A' ≤ c && c ≤ 'Z' then some (c.toNat - 65)
  else if 'a' ≤ c && c ≤ 'z' then some (c.toNat - 71)
  else if '0' ≤ c && c ≤ '9' then some (c.toNat + 4)
  else if c == '+' then some 62
  else if c == '/' then some 63
  else none

/-- Bytes from base 64. Other characters are passed over; padding that completes a group of four
ends the text. `held` are the sextets of an incomplete group. -/
def bytesFrom (held : List Nat) (pads : Nat) : Text → Except Error (List UInt8)
  | [] => if held.isEmpty then .ok [] else .error .malformed
  | c :: rest =>
      if c == '=' then
        if 2 ≤ held.length then
          if 4 ≤ held.length + (pads + 1) then .ok [] else bytesFrom held (pads + 1) rest
        else bytesFrom held pads rest
      else match sextet? c, held with
        | none, _ => bytesFrom held pads rest
        | some s, [] => bytesFrom [s] 0 rest
        | some s, [a] => (bytesFrom [a, s] 0 rest).map (UInt8.ofNat (a * 4 + s / 16) :: ·)
        | some s, [a, b] =>
            (bytesFrom [a, b, s] 0 rest).map (UInt8.ofNat (b % 16 * 16 + s / 4) :: ·)
        | some s, _ :: _ :: b :: _ =>
            (bytesFrom [] 0 rest).map (UInt8.ofNat (b % 4 * 64 + s) :: ·)

def binary (t : Text) : Except Error (List UInt8) :=
  if t.all (·.toNat < 0x80) then bytesFrom [] 0 t else .error .malformed

/-! ### Dates and times -/

/-- A number of `least` to `most` digits, and what follows it. -/
def digits (least most : Nat) (t : Text) : Option (Nat × Text) :=
  let run := (t.take most).takeWhile fun c => '0' ≤ c && c ≤ '9'
  if least ≤ run.length then some (Binary64.digitsValue run, t.drop run.length) else none

def mark (c : Char) : Text → Option Text
  | d :: rest => if c == d then some rest else none
  | [] => none

def isGap (c : Char) : Bool := c == ' ' || c == '\t'

/-- A fraction of a second in microseconds, if there is one. -/
def fraction : Text → Nat × Text
  | '.' :: rest =>
      let run := rest.takeWhile fun c => '0' ≤ c && c ≤ '9'
      let six := run.take 6
      (Binary64.digitsValue (six ++ List.replicate (6 - six.length) '0'), rest.drop run.length)
  | t => (0, t)

/-- Seconds ahead of universal time: nothing may be left after them. -/
def offset (t : Text) : Option (Option Int) :=
  if t.isEmpty then some none
  else match t.dropWhile isGap with
    | ['Z'] => some (some 0)
    | sign :: rest => do
        if sign != '+' && sign != '-' then none
        let (hours, rest) ← digits 1 2 rest
        let minutes ← if rest.isEmpty then some 0
          else do
            let (m, rest) ← digits 2 2 (← mark ':' rest)
            if rest.isEmpty then some m else none
        let seconds : Int := hours * 3600 + minutes * 60
        return some (if sign == '-' then -seconds else seconds)
    | [] => none

/-- The day and, if there is more, the time of a timestamp. -/
def timestampParts (t : Text) : Option (Date × Option Moment) := do
  let (year, t) ← digits 4 4 t
  let (month, t) ← digits 1 2 (← mark '-' t)
  let (day, t) ← digits 1 2 (← mark '-' t)
  let date : Date := ⟨year, month, day⟩
  if t.isEmpty then return (date, none)
  let t ← match t with
    | c :: rest =>
        if c == 'T' || c == 't' then some rest
        else if isGap c then some (rest.dropWhile isGap)
        else none
    | [] => none
  let (hour, t) ← digits 1 2 t
  let (minute, t) ← digits 2 2 (← mark ':' t)
  let (second, t) ← digits 2 2 (← mark ':' t)
  let (microsecond, t) := fraction t
  let offset ← offset t
  return (date, some { date, hour, minute, second, microsecond, offset })

def timestamp (t : Text) : Except Error Value :=
  match timestampParts t with
  | none => .error .badTimestamp
  | some (date, none) => if date.isValid then .ok (.date date) else .error .outOfRange
  | some (_, some moment) => if moment.isValid then .ok (.moment moment) else .error .outOfRange

def value (tag : String) (t : Text) : Except Error Value :=
  if tag == Tag.str then .ok (.str (String.ofList t))
  else if tag == Tag.null then .ok .null
  else if tag == Tag.bool then (bool t).map .bool
  else if tag == Tag.int then (int t).map .int
  else if tag == Tag.float then (float t).map .float
  else if tag == Tag.binary then (binary t).map .bytes
  else if tag == Tag.timestamp then timestamp t
  else .error .malformed

end Scalar
end ImportOrder.Yaml
