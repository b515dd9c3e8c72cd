import ImportOrder.Yaml.Cursor

/-!
From the text of a document to its tokens. Indentation becomes tokens that open and close block
collections, and a key without a mark of its own gets one when the colon after it is found.
-/

namespace ImportOrder.Yaml

/-- A token that may turn out to be a key. -/
structure KeyCandidate where
  /-- How many tokens come before it. -/
  number : Nat
  /-- Nothing but a key can stand there. -/
  isRequired : Bool
  index : Nat
  line : Nat
  column : Nat

structure Layout where
  cursor : Cursor
  /-- How many flow collections are open. -/
  flow : Nat := 0
  /-- The columns of open block collections, innermost first. -/
  columns : List Nat := []
  keyAllowed : Bool := true
  /-- For each number of open flow collections, the token there that may be a key. -/
  candidates : List (Nat × KeyCandidate) := []
  tokens : Array Token := #[]
  isDone : Bool := false

abbrev Scanning := StateT Layout (Except Error)

namespace Scanning

def cursor : Scanning Cursor := return (← get).cursor

def check (b : Bool) : Scanning Unit := if b then return else throw .malformed

def read {α : Type} (reading : Reading α) : Scanning α := do
  match StateT.run reading (← cursor) with
  | .ok (a, c) =>
      modify ({ · with cursor := c })
      return a
  | .error e => throw e

def push (t : Token) : Scanning Unit := modify fun s => { s with tokens := s.tokens.push t }

def allowKey (b : Bool) : Scanning Unit := modify ({ · with keyAllowed := b })

def inFlow : Scanning Bool := return (← get).flow != 0

/-- Does the innermost open block collection stand left of a column? -/
def isDeeper (column : Nat) : List Nat → Bool
  | [] => true
  | c :: _ => c < column

/-- Opens a block collection at a column if none stands as deep; true if it did. -/
def openBlock (column : Nat) : Scanning Bool := do
  let s ← get
  if isDeeper column s.columns then
    set { s with columns := column :: s.columns }
    return true
  else return false

/-- Closes the block collections that stand right of a column. -/
def closeBlocks (column : Nat) : Scanning Unit := do
  if !(← inFlow) then
    modify fun s =>
      let closed := (s.columns.takeWhile (column < ·)).length
      { s with
        columns := s.columns.drop closed
        tokens := s.tokens ++ Array.replicate closed Token.blockEnd }

def closeAllBlocks : Scanning Unit := do
  if !(← inFlow) then
    modify fun s =>
      { s with columns := [], tokens := s.tokens ++ Array.replicate s.columns.length Token.blockEnd }

/-- Gives up the candidate at this depth, which must not be the only thing allowed there. -/
def dropCandidate : Scanning Unit := do
  let s ← get
  match s.candidates.lookup s.flow with
  | some k =>
      check !k.isRequired
      set { s with candidates := s.candidates.filter (·.1 != s.flow) }
  | none => return

/-- Gives up the candidates on earlier lines or too far back. -/
def dropStale : Scanning Unit := do
  let s ← get
  let stale := fun (k : KeyCandidate) =>
    k.line != s.cursor.line || s.cursor.index - k.index > 1024
  check (s.candidates.all fun (_, k) => !(stale k && k.isRequired))
  set { s with candidates := s.candidates.filter fun (_, k) => !stale k }

/-- Makes the next token a candidate if a key may stand here. -/
def addCandidate : Scanning Unit := do
  let s ← get
  if s.keyAllowed then
    dropCandidate
    let c := s.cursor
    let k : KeyCandidate :=
      { number := s.tokens.size
        isRequired := s.flow == 0 && s.columns.head? == some c.column
        index := c.index
        line := c.line
        column := c.column }
    modify fun s => { s with candidates := (s.flow, k) :: s.candidates }

/-- Puts a token before others that have been found already. -/
def insertAt (n : Nat) (t : Token) : Scanning Unit :=
  modify fun s =>
    { s with tokens := (s.tokens.extract 0 n).push t ++ s.tokens.extract n s.tokens.size }

/-! ### Tokens of one character or a few -/

def marker (t : Token) : Scanning Unit := do
  closeAllBlocks
  dropCandidate
  allowKey false
  read (Reading.skip 3)
  push t

def openFlow (t : Token) : Scanning Unit := do
  addCandidate
  modify fun s => { s with flow := s.flow + 1, keyAllowed := true }
  read (Reading.skip 1)
  push t

def closeFlow (t : Token) : Scanning Unit := do
  dropCandidate
  check (← inFlow)
  modify fun s => { s with flow := s.flow - 1, keyAllowed := false }
  read (Reading.skip 1)
  push t

def comma : Scanning Unit := do
  allowKey true
  dropCandidate
  read (Reading.skip 1)
  push .comma

/-- A dash or a question mark that opens an entry of a block collection. -/
def entryMark (collection mark : Token) (keyAfter : Bool) : Scanning Unit := do
  if !(← inFlow) then
    check (← get).keyAllowed
    if ← openBlock (← cursor).column then push collection
  allowKey keyAfter
  dropCandidate
  read (Reading.skip 1)
  push mark

/-- A colon: what stands before it on this line was a key, or it belongs to a key with a mark. -/
def valueMark : Scanning Unit := do
  let s ← get
  match s.candidates.lookup s.flow with
  | some k =>
      set { s with candidates := s.candidates.filter (·.1 != s.flow) }
      insertAt k.number .key
      if !(← inFlow) then
        if ← openBlock k.column then insertAt k.number .blockMapping
      allowKey false
  | none =>
      if !(← inFlow) then
        check s.keyAllowed
        if ← openBlock s.cursor.column then push .blockMapping
      allowKey !(← inFlow)
      dropCandidate
  read (Reading.skip 1)
  push .value

/-- A token that may be a key, or the start of one. -/
def keyPart (reading : Reading Token) : Scanning Unit := do
  addCandidate
  allowKey false
  push (← read reading)

/-- The column right of the innermost open block collection. -/
def margin (columns : List Nat) : Nat := (columns.head?.map (· + 1)).getD 0

def blockScalar (folded : Bool) : Scanning Unit := do
  allowKey true
  dropCandidate
  let columns := (← get).columns
  push (.scalar (← read (Reading.block folded (margin columns))) false)

/-! ### Plain scalars -/

def isFlowMark (c : Char) : Bool := [',', '[', ']', '\x7b', '\x7d'].contains c

/-- Characters of a plain scalar up to a blank or a mark. -/
def plainWord (inFlow : Bool) : Text → Text
  | [] => []
  | c :: rest =>
      let stops := c == ' ' || c == '\t' || isBreak c ||
        (c == ':' && (endsWord rest.head? || (inFlow && rest.head?.any isFlowMark))) ||
        (inFlow && (isFlowMark c || c == '?'))
      if stops then [] else c :: plainWord inFlow rest

/-- Blanks after a word of a plain scalar: what they stand for if the scalar goes on, and whether
a line ended in them. -/
def plainBlanks : Reading (Text × Bool) := do
  let blanks ← Reading.span (· == ' ')
  if (← Reading.peek 0).any isBreak then
    let first ← Reading.lineBreak
    if (← get).atSeparator then return ([], true)
    let (more, parted) ← Reading.iterate (fun (t, _) => do
      match ← Reading.peek 0 with
      | some c =>
          if c == ' ' then
            Reading.skip 1
            return ((t, false), true)
          else if isBreak c then
            let t := t ++ (← Reading.lineBreak)
            if (← get).atSeparator then return ((t, true), false) else return ((t, false), true)
          else return ((t, false), false)
      | none => return ((t, false), false)) ([], false)
    if parted then return ([], true)
    else
      let lead := if first != ['\n'] then first else if more.isEmpty then [' '] else []
      return (lead ++ more, true)
  else return (blanks, false)

/-- A plain scalar, and whether a line ended after its last word. -/
def plainText (inFlow : Bool) (margin : Nat) : Reading (Text × Bool) := do
  let (t, _, ended) ← Reading.iterate (fun (t, blanks, ended) => do
    let c ← get
    let word := plainWord inFlow c.rest
    if c.peek 0 == some '#' || word.isEmpty then return ((t, blanks, ended), false)
    else
      Reading.skip word.length
      let t := t ++ blanks ++ word
      let (blanks, ended) ← plainBlanks
      let c ← get
      let stops := blanks.isEmpty || c.peek 0 == some '#' || (!inFlow && c.column < margin)
      return ((t, blanks, ended), !stops)) ([], [], false)
  return (t, ended)

def plainScalar : Scanning Unit := do
  addCandidate
  allowKey false
  let s ← get
  let (t, ended) ← read (plainText (s.flow != 0) (margin s.columns))
  if ended then allowKey true
  push (.scalar t true)

/-- May a plain scalar start here? -/
def startsPlain (inFlow : Bool) (c : Char) (following : Option Char) : Bool :=
  !(c == ' ' || c == '\t' || isBreak c ||
      ['-', '?', ':', ',', '[', ']', '\x7b', '\x7d', '#', '&', '*', '!', '|', '>', Text.apostrophe,
        Text.quotationMark, '%', '@', Char.ofNat 96].contains c) ||
    (!endsWord following && (c == '-' || (!inFlow && (c == '?' || c == ':'))))

/-! ### The whole text -/

/-- Passes over blanks, comments and line ends. Keys may start on a new line of a block. -/
def toNextToken : Scanning Unit := do
  let broke ← read do
    let c ← get
    if c.index == 0 && c.peek 0 == some '\ufeff' then Reading.skip 1
    Reading.iterate (fun broke => do
      Reading.comment
      let t ← Reading.lineBreak
      return (broke || !t.isEmpty, !t.isEmpty)) false
  if broke && !(← inFlow) then allowKey true

def finish : Scanning Unit := do
  closeAllBlocks
  dropCandidate
  push .finish
  modify ({ · with isDone := true })

/-- The next token, with the tokens that its place asks for before it. -/
def nextToken : Scanning Unit := do
  toNextToken
  dropStale
  let c ← cursor
  closeBlocks c.column
  let flow ← inFlow
  let ends := endsWord (c.peek 1)
  match c.peek 0 with
  | none => finish
  | some ch =>
      let separates := c.column == 0 && c.atSeparator
      if ch == '%' && c.column == 0 then
        closeAllBlocks
        dropCandidate
        allowKey false
        push (← read Reading.directive)
      else if separates && ch == '-' then marker .documentStart
      else if separates then marker .documentEnd
      else if ch == '[' then openFlow .flowSequence
      else if ch == '\x7b' then openFlow .flowMapping
      else if ch == ']' then closeFlow .flowSequenceEnd
      else if ch == '\x7d' then closeFlow .flowMappingEnd
      else if ch == ',' then comma
      else if ch == '-' && ends then entryMark .blockSequence .item true
      else if ch == '?' && (flow || ends) then entryMark .blockMapping .key !flow
      else if ch == ':' && (flow || ends) then valueMark
      else if ch == '*' then keyPart (Token.reference <$> Reading.anchorName)
      else if ch == '&' then keyPart (Token.anchor <$> Reading.anchorName)
      else if ch == '!' then keyPart Reading.tag
      else if ch == '|' && !flow then blockScalar false
      else if ch == '>' && !flow then blockScalar true
      else if ch == Text.apostrophe || ch == Text.quotationMark then
        keyPart ((Token.scalar · false) <$> Reading.quoted ch)
      else if startsPlain flow ch (c.peek 1) then plainScalar
      else throw .malformed

/-- All tokens; `fuel` bounds their number. -/
def upTo : Nat → Scanning Unit
  | 0 => throw .malformed
  | fuel + 1 => do
      nextToken
      if !(← get).isDone then upTo fuel

end Scanning

def tokens (text : Text) : Except Error (List Token) := do
  if text.all isAllowed then
    let layout : Layout := { cursor := { rest := text } }
    let (_, s) ← StateT.run (Scanning.upTo (text.length + 2)) layout
    return s.tokens.toList
  else throw .malformed

end ImportOrder.Yaml
