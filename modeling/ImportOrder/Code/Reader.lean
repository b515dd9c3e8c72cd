import ImportOrder.Code.Lexeme

/-!
From the characters of a source to its tokens. Lines of statements are told apart from lines that
only go on inside brackets, and margins become tokens that open and close blocks.
-/

namespace ImportOrder.Code

/-- The width of a margin. Tabs are counted in two ways, to the next multiple of eight and as one
column, so that a block whose meaning hangs on the width of a tab can be refused. -/
structure Margin where
  width : Nat := 0
  narrow : Nat := 0
deriving DecidableEq, Repr

/-- A formatted string whose end is not reached. -/
structure Formatted where
  quotes : Quotes
  /-- Its open fields, innermost first: the number of open brackets inside which the expression of
  the field stands, or nothing once its format specification has begun. -/
  fields : List (Option Nat) := []
deriving DecidableEq, Repr

/-- Is literal text to be read next? -/
def Formatted.inText (f : Formatted) : Bool :=
  match f.fields with
  | some _ :: _ => false
  | _ => true

structure Reader where
  rest : Text
  position : Position := ⟨1, 0⟩
  /-- No token of a line has been seen yet. -/
  atMargin : Bool := true
  /-- A statement has begun that no line end has closed. -/
  inStatement : Bool := false
  /-- The margins of open blocks, innermost first. -/
  margins : List Margin := []
  /-- Open brackets, innermost first. -/
  brackets : List Char := []
  strings : List Formatted := []
  joined : Nat := 0
  /-- Tokens read so far, last first. -/
  tokens : List Token := []

/-- The position after some characters. -/
def advance (p : Position) (cs : Text) : Position :=
  cs.foldl (fun p c => if c == '\n' then ⟨p.line + 1, 0⟩ else ⟨p.line, p.column + 1⟩) p

namespace Reader

def skip (r : Reader) (n : Nat) : Reader :=
  { r with rest := r.rest.drop n, position := advance r.position (r.rest.take n) }

/-- Reads the next `n` characters as one lexeme. -/
def emit (r : Reader) (lexeme : Lexeme) (n : Nat) : Reader :=
  let next := r.skip n
  { next with
    atMargin := false
    inStatement := true
    tokens := ⟨lexeme, r.position, next.position, r.joined⟩ :: r.tokens }

/-- Adds a token that no characters stand for. -/
def note (r : Reader) (lexeme : Lexeme) : Reader :=
  { r with tokens := ⟨lexeme, r.position, r.position, r.joined⟩ :: r.tokens }

/-- The blanks before the first token of a line: what is left after them, how many characters and
how many line continuations they were, and the margin they make. The first continuation that has
blanks before it fixes the margin; it must not be the last thing in the text. -/
def measure (margin : Margin) (fixed : Option Nat) (count joins : Nat) :
    Text → Option (Margin × Nat × Nat)
  | [] => some (finish margin fixed, count, joins)
  | [c] =>
      if c == '\\' then none
      else if c == ' ' || c == '\t' || c == '\x0c' then some (finish margin fixed, count + 1, joins)
      else some (finish margin fixed, count, joins)
  | c :: d :: rest =>
      if c == ' ' then
        measure ⟨margin.width + 1, margin.narrow + 1⟩ fixed (count + 1) joins (d :: rest)
      else if c == '\t' then
        measure ⟨(margin.width / 8 + 1) * 8, margin.narrow + 1⟩ fixed (count + 1) joins (d :: rest)
      else if c == '\x0c' then measure {} fixed (count + 1) joins (d :: rest)
      else if c == '\\' then
        if d == '\n' && !rest.isEmpty then
          let fixed := match fixed with
            | some (n + 1) => some (n + 1)
            | _ => some margin.width
          measure margin fixed (count + 2) (joins + 1) rest
        else none
      else some (finish margin fixed, count, joins)
where
  finish (margin : Margin) : Option Nat → Margin
    | some (n + 1) => ⟨n + 1, n + 1⟩
    | _ => margin

/-- Closes the blocks whose margins are wider than this one. -/
def closeBlocks (margin : Margin) : List Margin → Reader → Reader
  | [], r => { r with margins := [] }
  | m :: outer, r =>
      if margin.width < m.width then closeBlocks margin outer (r.note .dedent)
      else { r with margins := m :: outer }

/-- Opens or closes blocks as the margin of a statement asks. -/
def settle (r : Reader) (margin : Margin) : Option Reader :=
  let current := r.margins.headD {}
  if margin.width == current.width then
    if margin.narrow == current.narrow then some r else none
  else if current.width < margin.width then
    if r.margins.length + 1 < 100 && current.narrow < margin.narrow then
      some { r.note .indent with margins := margin :: r.margins }
    else none
  else
    let closed := closeBlocks margin r.margins r
    if closed.margins.headD {} == margin then some closed else none

/-- The start of a line: a line with no token on it means nothing, any other has a margin. -/
def enterLine (r : Reader) : Option Reader :=
  match measure {} none 0 0 r.rest with
  | none => none
  | some (margin, count, joins) =>
      let next := r.skip count
      match next.rest with
      | [] => some { next with atMargin := false }
      | '\n' :: _ => some (next.skip 1)
      | '#' :: comment => some (next.skip (1 + (comment.takeWhile (· != '\n')).length))
      | _ => { next with atMargin := false, joined := r.joined + joins }.settle margin

def openBracket (r : Reader) (c : Char) : Reader :=
  { r.emit (.mark c.toString) 1 with brackets := c :: r.brackets }

/-- A closing bracket, which must match the last one opened. -/
def closeBracket (r : Reader) (opening closing : Char) : Option Reader :=
  match r.brackets with
  | b :: outer =>
      if b == opening then some { r.emit (.mark closing.toString) 1 with brackets := outer }
      else none
  | [] => none

/-- A string literal, or the start of a formatted one. -/
def readString (r : Reader) (letters : Text) (quote : Char) : Option Reader :=
  let body := r.rest.drop letters.length
  let tripled := isTripled quote body
  let opening := letters.length + if tripled then 3 else 1
  if letters.contains 'f' || letters.contains 't' then
    let string : Formatted := { quotes := ⟨quote, tripled, letters.contains 'r'⟩ }
    some { r.emit .formattedStart opening with strings := string :: r.strings }
  else
    let length := if tripled then blockStringLength quote (body.drop 3)
      else lineStringLength quote (body.drop 1)
    length.map fun n => r.emit .string (opening + n)

def readWord (r : Reader) : Option Reader :=
  let spelling := r.rest.takeWhile isWordChar
  if Text.isIdentifier spelling then
    some (r.emit (.word (String.ofList spelling)) spelling.length)
  else none

/-- The parts of a formatted string outside the expressions of its fields. -/
def readFormatted (r : Reader) (f : Formatted) (outer : List Formatted) : Option Reader :=
  match formattedLength f.quotes (!f.fields.isEmpty) false r.rest with
  | none => none
  | some (n + 1) => some (r.emit .formattedText (n + 1))
  | some 0 =>
      match r.rest with
      | '\x7b' :: _ =>
          let next := r.openBracket '\x7b'
          let field := some next.brackets.length
          some { next with strings := { f with fields := field :: f.fields } :: outer }
      | '\x7d' :: _ =>
          match f.fields with
          | none :: fields =>
              (r.closeBracket '\x7b' '\x7d').map fun next =>
                { next with strings := { f with fields } :: outer }
          | _ => none
      | _ =>
          let length := if f.quotes.tripled then 3 else 1
          if f.fields.isEmpty then some { r.emit .formattedEnd length with strings := outer }
          else none

/-- An operator or a delimiter. Directly inside a field of a formatted string a colon begins the
format specification and a closing brace ends the field. -/
def readMark (r : Reader) : Option Reader :=
  match r.rest, r.strings with
  | ':' :: _, f :: outer =>
      if f.fields.head? == some (some r.brackets.length) then
        let fields := none :: f.fields.tail
        some { r.emit (.mark ":") 1 with strings := { f with fields } :: outer }
      else plain r
  | '\x7d' :: _, f :: outer =>
      let leaving := f.fields.head? == some (some r.brackets.length)
      (r.closeBracket '\x7b' '\x7d').map fun next =>
        if leaving then { next with strings := { f with fields := f.fields.tail } :: outer }
        else next
  | _, _ => plain r
where
  plain (r : Reader) : Option Reader :=
    match r.rest with
    | '(' :: _ => some (r.openBracket '(')
    | '[' :: _ => some (r.openBracket '[')
    | '\x7b' :: _ => some (r.openBracket '\x7b')
    | ')' :: _ => r.closeBracket '(' ')'
    | ']' :: _ => r.closeBracket '[' ']'
    | '\x7d' :: _ => r.closeBracket '\x7b' '\x7d'
    | cs => (markAt? cs).map fun m => r.emit (.mark m) m.length

/-- Reads on inside a line. At least one character is passed. -/
def readOn (r : Reader) (c : Char) (rest : Text) : Option Reader :=
  if c == ' ' || c == '\t' || c == '\x0c' then some (r.skip 1)
  else if c == '#' then some (r.skip (1 + (rest.takeWhile (· != '\n')).length))
  else if c == '\n' then
    if r.brackets.isEmpty then
      some { r.emit .newline 1 with atMargin := true, inStatement := false }
    else some (r.skip 1)
  else if c == '\\' then
    match rest with
    | '\n' :: _ :: _ => some (r.skip 2)
    | _ => none
  else match stringOpening? r.rest with
    | some (letters, quote) => r.readString letters quote
    | none =>
        if c.isDigit || c == '.' && (rest.head?.any Char.isDigit) then
          (numberLength r.rest).map (r.emit .number)
        else if isWordStart c then r.readWord
        else r.readMark

/-- What ends a source: the last statement, the open blocks, and the whole. -/
def conclude (r : Reader) : Option (List Token) :=
  if r.brackets.isEmpty && r.strings.isEmpty then
    let ended := if r.inStatement then r.note .newline else r
    let closed := r.margins.foldl (fun r _ => r.note .dedent) ended
    some (closed.note .finish).tokens.reverse
  else none

/-- Reads a source to its end; `fuel` bounds the number of steps. -/
def run : Nat → Reader → Option (List Token)
  | 0, _ => none
  | fuel + 1, r =>
      match r.strings with
      | f :: outer =>
          if f.inText then (r.readFormatted f outer).bind (run fuel)
          else match r.rest with
            | c :: rest => (r.readOn c rest).bind (run fuel)
            | [] => none
      | [] =>
          match r.rest with
          | [] => r.conclude
          | c :: rest =>
              if r.atMargin then r.enterLine.bind (run fuel)
              else (r.readOn c rest).bind (run fuel)

end Reader

/-- The tokens of a source. A byte order mark at its very start is passed over. -/
def tokens (source : Text) : Option (List Token) :=
  let text := Text.unifyBreaks source
  let reader : Reader := { rest := text }
  let start := if text.head? == some '\ufeff' then reader.skip 1 else reader
  start.run (2 * text.length + 4)

end ImportOrder.Code
