import ImportOrder.Code.Token
import ImportOrder.Text.Identifier
import ImportOrder.Text.Quoted

/-!
How far the lexeme at the start of a text reaches, for each kind of lexeme, in characters.
-/

namespace ImportOrder.Code

/-- A character that may belong to a word, before it is known which words are names. -/
def isWordChar (c : Char) : Bool :=
  c.isAlpha || c.isDigit || c == '_' || c.toNat ≥ 0x80

def isWordStart (c : Char) : Bool := isWordChar c && !c.isDigit

def isHexDigit (c : Char) : Bool :=
  c.isDigit || ('a' ≤ c && c ≤ 'f') || ('A' ≤ c && c ≤ 'F')

/-- The longest run of digits with single underscores between them. -/
def digitRun (isDigit : Char → Bool) : Text → Nat
  | [] => 0
  | c :: rest =>
      if isDigit c then 1 + digitRun isDigit rest
      else match c, rest with
        | '_', d :: _ => if isDigit d then 1 + digitRun isDigit rest else 0
        | _, _ => 0

def decimalRun : Text → Nat
  | '_' :: _ => 0
  | cs => digitRun Char.isDigit cs

def exponentLength : Text → Nat
  | e :: rest =>
      if e == 'e' || e == 'E' then
        let sign := match rest with
          | c :: _ => if c == '+' || c == '-' then 1 else 0
          | [] => 0
        match decimalRun (rest.drop sign) with
        | 0 => 0
        | n => 1 + sign + n
      else 0
  | [] => 0

def imaginaryLength : Text → Nat
  | c :: _ => if c == 'j' || c == 'J' then 1 else 0
  | [] => 0

/-- A decimal number: digits, a fraction, an exponent and an imaginary unit. -/
def decimalLength (cs : Text) : Nat :=
  let whole := decimalRun cs
  let fraction := match cs.drop whole with
    | '.' :: rest => 1 + decimalRun rest
    | _ => 0
  let mantissa := whole + fraction
  let exponent := exponentLength (cs.drop mantissa)
  mantissa + exponent + imaginaryLength (cs.drop (mantissa + exponent))

/-- A number with digits of another base after its two-character mark, if there are any. -/
def basedLength (cs : Text) : Nat :=
  match cs with
  | '0' :: base :: rest =>
      let run := match base.toLower with
        | 'x' => digitRun isHexDigit rest
        | 'o' => digitRun (fun c => '0' ≤ c && c ≤ '7') rest
        | 'b' => digitRun (fun c => c == '0' || c == '1') rest
        | _ => 0
      if run == 0 then 0 else 2 + run
  | _ => 0

/-- A whole number may start with zeros only if it is zero. -/
def hasStrayZero (cs : Text) : Bool :=
  cs.all (fun c => c.isDigit || c == '_') && cs.head? == some '0' &&
    cs.any (fun c => c != '0' && c != '_')

/-- The length of the number at the start of a text. -/
def numberLength (cs : Text) : Option Nat :=
  match basedLength cs with
  | 0 =>
      let n := decimalLength cs
      if hasStrayZero (cs.take n) then none else some n
  | n => some n

/-- From after the opening quote through the closing one, on one line. A backslash takes the next
character with it. -/
def lineStringLength (quote : Char) : Text → Option Nat
  | [] => none
  | [c] => if c == quote then some 1 else none
  | c :: d :: rest =>
      if c == quote then some 1
      else if c == '\n' then none
      else if c == '\\' then (lineStringLength quote rest).map (· + 2)
      else (lineStringLength quote (d :: rest)).map (· + 1)

/-- From after three opening quotes through three closing ones, over any number of lines. -/
def blockStringLength (quote : Char) : Text → Option Nat
  | [] => none
  | [_] => none
  | c :: d :: rest =>
      if c == quote && d == quote && rest.head? == some quote then some 3
      else if c == '\\' then (blockStringLength quote rest).map (· + 2)
      else (blockStringLength quote (d :: rest)).map (· + 1)

/-- The letters in front of a string literal, in lower case. -/
def stringMarks : List Text :=
  [['u'], ['r'], ['b'], ['f'], ['t'], ['b', 'r'], ['r', 'b'], ['f', 'r'], ['r', 'f'], ['t', 'r'],
   ['r', 't'], []]

def isQuote (c : Char) : Bool := c == Text.apostrophe || c == Text.quotationMark

/-- The letters, in lower case, and the quote that open a string literal here. -/
def stringOpening? (cs : Text) : Option (Text × Char) :=
  stringMarks.findSome? fun letters =>
    if (cs.take letters.length).map Char.toLower == letters then
      match cs.drop letters.length with
      | q :: _ => if isQuote q then some (letters, q) else none
      | [] => none
    else none

def isTripled (quote : Char) (cs : Text) : Bool := cs.take 3 == [quote, quote, quote]

/-- Operators and delimiters, longer ones before their own beginnings. -/
def marks : List String :=
  ["**=", "//=", ">>=", "<<=", "...", "!=", "%=", "&=", "**", "*=", "+=", "-=", "->", "//", "/=",
   ":=", "<<", "<=", "<>", "==", ">=", ">>", "@=", "^=", "|=", "!", "%", "&", "(", ")", "*", "+",
   ",", "-", ".", "/", ":", ";", "<", "=", ">", "@", "[", "]", "^", "\x7b", "|", "\x7d", "~"]

def markAt? (cs : Text) : Option String := marks.find? fun m => m.toList.isPrefixOf cs

/-- How a formatted string ends, and whether backslashes escape in it. -/
structure Quotes where
  quote : Char
  tripled : Bool
  isRaw : Bool
deriving DecidableEq, Repr

def Quotes.closeAt (q : Quotes) (cs : Text) : Bool :=
  if q.tripled then isTripled q.quote cs else cs.head? == some q.quote

/-- The literal text of a formatted string: up to its end or to a brace that opens or closes a
field. Inside a format specification (`inSpec`) a doubled brace is no text; inside the name of an
escaped character (`named`) the braces are. -/
def formattedLength (q : Quotes) (inSpec : Bool) : Bool → Text → Option Nat
  | _, [] => none
  | _, [c] => if q.closeAt [c] || c == '\x7b' || c == '\x7d' then some 0 else none
  | named, c :: d :: rest =>
      if q.closeAt (c :: d :: rest) then some 0
      else if c == '\n' && !q.tripled then none
      else if c == '\\' then
        if q.isRaw && !isQuote d && d != '\\' || inSpec && (d == '\x7b' || d == '\x7d') then
          (formattedLength q inSpec false (d :: rest)).map (· + 1)
        else
          let naming := d == 'N' && !q.isRaw && !inSpec && rest.head? == some '\x7b'
          (formattedLength q inSpec naming rest).map (· + 2)
      else if named && (c == '\x7b' || c == '\x7d') then
        (formattedLength q inSpec (c == '\x7b') (d :: rest)).map (· + 1)
      else if c == '\x7b' || c == '\x7d' then
        if c == d && !inSpec then (formattedLength q inSpec false rest).map (· + 2) else some 0
      else (formattedLength q inSpec named (d :: rest)).map (· + 1)

end ImportOrder.Code
