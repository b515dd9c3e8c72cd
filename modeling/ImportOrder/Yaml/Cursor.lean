import ImportOrder.Yaml.Token
import ImportOrder.Text.Quoted

/-!
A place in a document, and reading from it the parts that do not depend on what surrounds them:
quoted and block scalars, names, tags and directives.
-/

namespace ImportOrder.Yaml

structure Cursor where
  rest : Text
  index : Nat := 0
  line : Nat := 0
  column : Nat := 0
deriving Repr

abbrev Reading := StateT Cursor (Except Error)

namespace Cursor

def peek (c : Cursor) (n : Nat) : Option Char := c.rest[n]?

/-- The place one character on. A byte order mark takes no column. -/
def next (c : Cursor) : Cursor :=
  match c.rest with
  | [] => c
  | ch :: rest =>
      let ends := isBreak ch && !(ch == '\r' && rest.head? == some '\n')
      { rest
        index := c.index + 1
        line := if ends then c.line + 1 else c.line
        column := if ends then 0 else if ch == '\ufeff' then c.column else c.column + 1 }

def forward : Nat → Cursor → Cursor
  | 0, c => c
  | n + 1, c => forward n c.next

/-- Three dashes or dots that stand alone. -/
def atSeparator (c : Cursor) : Bool :=
  (c.rest.take 3 == ['-', '-', '-'] || c.rest.take 3 == ['.', '.', '.']) && endsWord (c.peek 3)

end Cursor

namespace Reading

def peek (n : Nat) : Reading (Option Char) := return (← get).peek n

def skip (n : Nat) : Reading Unit := modify (·.forward n)

def malformed {α : Type} : Reading α := throw .malformed

def check (b : Bool) : Reading Unit := if b then return else malformed

def span (p : Char → Bool) : Reading Text := do
  let t := (← get).rest.takeWhile p
  skip t.length
  return t

/-- A line break, if there is one: all but two kinds read as a line feed. -/
def lineBreak : Reading Text := do
  match ← peek 0 with
  | none => return []
  | some c =>
      if c == '\u2028' || c == '\u2029' then
        skip 1
        return [c]
      else if isBreak c then
        skip (if c == '\r' && (← peek 1) == some '\n' then 2 else 1)
        return ['\n']
      else return []

/-- Repeats a step while it asks for more, at most `fuel` times. -/
def repeatUpTo {α : Type} (step : α → Reading (α × Bool)) : Nat → α → Reading α
  | 0, _ => malformed
  | fuel + 1, a => do
      let (b, more) ← step a
      if more then repeatUpTo step fuel b else return b

/-- Repeats a step while it asks for more. All but the last repetition read a character. -/
def iterate {α : Type} (step : α → Reading (α × Bool)) (a : α) : Reading α := do
  repeatUpTo step ((← get).rest.length + 2) a

/-- Spaces and a comment, up to the end of the line. -/
def comment : Reading Unit := do
  let _ ← span (· == ' ')
  if (← peek 0) == some '#' then
    let _ ← span (!isBreak ·)

/-- A line with nothing more than a comment on it, and its end. -/
def emptyRest : Reading Unit := do
  comment
  check (endsLine (← peek 0))
  let _ ← lineBreak

/-! ### Names, tags and directives -/

def name : Reading String := do
  let t ← span isNameChar
  check !t.isEmpty
  return String.ofList t

/-- The name of an anchor or of a reference to one, after its mark. -/
def anchorName : Reading String := do
  skip 1
  let n ← name
  let c ← peek 0
  check (endsWord c || c.any ['?', ':', ',', ']', '\x7d', '%', '@', Char.ofNat 96].contains)
  return n

def isUriChar (c : Char) : Bool :=
  isNameChar c ||
    (";/?:@&=+$,.!~*'()[]").toList.contains c

/-- One character of a tag, or a run of bytes written in hexadecimal. -/
def uriPart : Reading Text := do
  let t ← span isUriChar
  if !t.isEmpty then return t
  else
    let bytes ← iterate (fun bytes => do
      if (← peek 0) == some '%' then
        let digits := ((← get).rest.drop 1).take 2
        check (digits.length == 2 && digits.all isHexDigit)
        skip 3
        return (bytes ++ [UInt8.ofNat (hexValue digits)], true)
      else return (bytes, false)) []
    match String.fromUTF8? (ByteArray.mk bytes.toArray) with
    | some s => return s.toList
    | none => malformed

def uri : Reading String := do
  let t ← iterate (fun t => do
    let c ← peek 0
    if c.any fun c => isUriChar c || c == '%' then return (t ++ (← uriPart), true)
    else return (t, false)) []
  check !t.isEmpty
  return String.ofList t

/-- The handle of a tag, with its exclamation marks. -/
def tagHandle : Reading String := do
  check ((← peek 0) == some '!')
  if (← peek 1) == some ' ' then
    skip 1
    return "!"
  else
    skip 1
    let n ← span isNameChar
    check ((← peek 0) == some '!')
    skip 1
    return "!" ++ String.ofList n ++ "!"

def tag : Reading Token := do
  let c ← peek 1
  let read ← if c == some '<' then (do
      skip 2
      let suffix ← uri
      check ((← peek 0) == some '>')
      skip 1
      return Token.tag none suffix)
    else if endsWord c then (do
      skip 1
      return Token.tag none "!")
    else (do
      let word := (← get).rest.tail.takeWhile fun c => c != ' ' && !isBreak c
      let handle ← if word.contains '!' then tagHandle else (do skip 1; return "!")
      return Token.tag (some handle) (← uri))
  check (endsField (← peek 0))
  return read

def number : Reading Nat := do
  let t ← span fun c => '0' ≤ c && c ≤ '9'
  check !t.isEmpty
  return decimalValue t
where
  decimalValue (t : Text) : Nat := t.foldl (fun n c => n * 10 + (c.toNat - 48)) 0

def directive : Reading Token := do
  skip 1
  let kind ← name
  check (endsField (← peek 0))
  let read ← if kind == "YAML" then (do
      let _ ← span (· == ' ')
      let major ← number
      check ((← peek 0) == some '.')
      skip 1
      let _ ← number
      check (endsField (← peek 0))
      return Token.versionDirective major)
    else if kind == "TAG" then (do
      let _ ← span (· == ' ')
      let handle ← tagHandle
      check ((← peek 0) == some ' ')
      let _ ← span (· == ' ')
      let start ← uri
      check (endsField (← peek 0))
      return Token.tagDirective handle start)
    else (do
      let _ ← span (!isBreak ·)
      return Token.otherDirective)
  emptyRest
  return read

/-! ### Quoted scalars -/

/-- What a character after a backslash stands for. -/
def escapes : List (Char × Char) :=
  [('0', '\x00'), ('a', '\x07'), ('b', '\x08'), ('t', '\t'), ('\t', '\t'), ('n', '\n'),
   ('v', '\x0b'), ('f', '\x0c'), ('r', '\r'), ('e', '\x1b'), (' ', ' '),
   (Text.quotationMark, Text.quotationMark), ('\\', '\\'), ('/', '/'), ('N', '\x85'),
   ('_', '\xa0'), ('L', '\u2028'), ('P', '\u2029')]

/-- The number of hexadecimal digits that follow. -/
def escapeWidths : List (Char × Nat) := [('x', 2), ('u', 4), ('U', 8)]

/-- Empty lines inside a quoted scalar, as line breaks. -/
def quotedBreaks : Reading Text :=
  iterate (fun t => do
    check !(← get).atSeparator
    let _ ← span fun c => c == ' ' || c == '\t'
    if (← peek 0).any isBreak then return (t ++ (← lineBreak), true)
    else return (t, false)) []

def escape : Reading Text := do
  match ← peek 0 with
  | none => malformed
  | some c =>
      match escapes.lookup c, escapeWidths.lookup c with
      | some d, _ =>
          skip 1
          return [d]
      | none, some width =>
          let digits := ((← get).rest.drop 1).take width
          check (digits.length == width && digits.all isHexDigit)
          skip (1 + width)
          let code := hexValue digits
          if code ≤ 0x10ffff then return [Char.ofNat code] else throw .outOfRange
      | none, none =>
          check (isBreak c)
          let _ ← lineBreak
          quotedBreaks

/-- Characters between quotes up to a blank or the closing quote. -/
def quotedWord (quote : Char) : Reading Text :=
  iterate (fun t => do
    let plain ← span fun c =>
      !(c == Text.apostrophe || c == Text.quotationMark || c == '\\' || c == ' ' || c == '\t' ||
        isBreak c)
    let t := t ++ plain
    match ← peek 0 with
    | none => return (t, false)
    | some c =>
        if quote == Text.apostrophe && c == quote && (← peek 1) == some quote then
          skip 2
          return (t ++ [quote], true)
        else if (c == Text.apostrophe || c == Text.quotationMark) && c != quote then
          skip 1
          return (t ++ [c], true)
        else if c == '\\' then
          skip 1
          if quote == Text.apostrophe then return (t ++ [c], true)
          else return (t ++ (← escape), true)
        else return (t, false)) []

/-- Blanks between quotes. One line break is a space, more are one break fewer. -/
def quotedBlanks : Reading Text := do
  let blanks ← span fun c => c == ' ' || c == '\t'
  match ← peek 0 with
  | none => malformed
  | some c =>
      if isBreak c then
        let first ← lineBreak
        let more ← quotedBreaks
        return (if first != ['\n'] then first else if more.isEmpty then [' '] else []) ++ more
      else return blanks

def quoted (quote : Char) : Reading Text := do
  skip 1
  let first ← quotedWord quote
  let t ← iterate (fun t => do
    if (← peek 0) == some quote then return (t, false)
    else
      let blanks ← quotedBlanks
      return (t ++ blanks ++ (← quotedWord quote), true)) first
  skip 1
  return t

/-! ### Block scalars -/

/-- How the line breaks at the end of a block scalar are kept. -/
inductive Chomping where
  | strip
  | clip
  | keep
deriving DecidableEq

/-- The marks after the bar: how the end is kept, and how far the text is indented. -/
def blockHeader : Reading (Chomping × Option Nat) := do
  let chomping : Reading (Option Chomping) := do
    match ← peek 0 with
    | some '+' => skip 1; return some .keep
    | some '-' => skip 1; return some .strip
    | _ => return none
  let indent : Reading (Option Nat) := do
    match ← peek 0 with
    | some c =>
        if '0' ≤ c && c ≤ '9' then
          check (c != '0')
          skip 1
          return some (c.toNat - 48)
        else return none
    | none => return none
  let first ← chomping
  let width ← indent
  let last ← if first.isNone && width.isSome then chomping else pure none
  check (endsField (← peek 0))
  emptyRest
  return ((first.or last).getD .clip, width)

/-- Empty lines before the text of a block scalar and the deepest column they reach. -/
def leadingLines : Reading (Text × Nat) :=
  iterate (fun (t, deepest) => do
    match ← peek 0 with
    | some c =>
        if c == ' ' then
          skip 1
          return ((t, max deepest (← get).column), true)
        else if isBreak c then return ((t ++ (← lineBreak), deepest), true)
        else return ((t, deepest), false)
    | none => return ((t, deepest), false)) ([], 0)

def indentation (indent : Nat) : Reading Unit := do
  let c ← get
  let spaces := (c.rest.takeWhile (· == ' ')).length
  skip (min spaces (indent - c.column))

/-- Empty lines inside a block scalar, and the indentation of the line after them. -/
def blockBreaks (indent : Nat) : Reading Text := do
  indentation indent
  iterate (fun t => do
    if (← peek 0).any isBreak then
      let t := t ++ (← lineBreak)
      indentation indent
      return (t, true)
    else return (t, false)) []

def isSpaceOrTab (c : Option Char) : Bool := c == some ' ' || c == some '\t'

/-- The lines of a block scalar: its text without the last line break, that break, and the empty
lines after it. -/
def blockLines (folded : Bool) (indent : Nat) (breaks : Text) : Reading (Text × Text × Text) :=
  iterate (fun (t, _, breaks) => do
    let c ← get
    if c.column == indent && !c.rest.isEmpty then
      let flush := !isSpaceOrTab (← peek 0)
      let line ← span (!isBreak ·)
      let ending ← lineBreak
      let more ← blockBreaks indent
      let c ← get
      let t := t ++ breaks ++ line
      if c.column == indent && !c.rest.isEmpty then
        let joint :=
          if folded && ending == ['\n'] && flush && !isSpaceOrTab (← peek 0) then
            if more.isEmpty then [' '] else []
          else ending
        return ((t ++ joint, ending, more), true)
      else return ((t, ending, more), false)
    else return ((t, [], breaks), false)) ([], [], breaks)

/-- A literal or folded scalar, from its bar or bracket on, inside a block of margin `margin`. -/
def block (folded : Bool) (margin : Nat) : Reading Text := do
  skip 1
  let (chomping, width) ← blockHeader
  let least := max 1 margin
  let (indent, breaks) ← match width with
    | none => (do
        let (breaks, deepest) ← leadingLines
        return (max least deepest, breaks))
    | some n => (do return (least + n - 1, ← blockBreaks (least + n - 1)))
  let (t, ending, breaks) ← blockLines folded indent breaks
  return t ++ (if chomping == .strip then [] else ending) ++
    if chomping == .keep then breaks else []

end Reading
end ImportOrder.Yaml
