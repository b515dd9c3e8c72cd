import ImportOrder.Regex.Error
import ImportOrder.Text.CharacterName
import ImportOrder.Text.Numeral

/-!
Reading a pattern. The reader always looks one symbol ahead, so a backslash at the very end is
noticed as soon as the symbol in front of it has been taken.
-/

namespace ImportOrder.Regex

/-- A character of the pattern, or a backslash with the character behind it. -/
inductive Symbol where
  | char (c : Char)
  | escape (c : Char)
deriving DecidableEq

namespace Symbol

def text : Symbol → List Char
  | .char c => [c]
  | .escape c => ['\\', c]

def size : Symbol → Nat
  | .char _ => 1
  | .escape _ => 2

def ofText : List Char → List Symbol
  | [] => []
  | ['\\'] => []
  | '\\' :: c :: rest => .escape c :: ofText rest
  | c :: rest => .char c :: ofText rest

/-- Does a pattern end in a backslash that escapes nothing? -/
def dangles : List Char → Bool
  | [] => false
  | ['\\'] => true
  | '\\' :: _ :: rest => dangles rest
  | _ :: rest => dangles rest

end Symbol

structure Reader where
  rest : List Symbol
  position : Nat
  /-- Length of a pattern that ends in a lone backslash. -/
  dangling : Option Nat
  /-- Flags that hold for the whole pattern. -/
  flags : Flags := {}
  /-- Those of them that say which characters count as letters. -/
  typeFlags : List Char := []
  names : List (String × Nat) := []
  /-- Widths of the groups by number; an open group has none yet. -/
  widths : List (Option Width) := [none]
  /-- Number of groups when the outermost look behind began. -/
  lookbehind : Option Nat := none
  /-- Groups that conditions ask for, with the places of the questions. -/
  asked : List (Nat × Nat) := []

abbrev Reading := StateT Reader (Except Failure)

namespace Reading

def failAt {α : Type} (place : Nat) (cause : Cause) : Reading α :=
  throw (.error ⟨cause, some place⟩)

/-- Fails `back` characters before the next symbol. -/
def fail {α : Type} (back : Nat) (cause : Cause) : Reading α := do
  failAt ((← get).position - back) cause

def peek : Reading (Option Symbol) := return (← get).rest.head?

def sees (c : Char) : Reading Bool := return (← peek) == some (.char c)

def advance : Reading Unit := do
  let r ← get
  match r.rest with
  | [] => pure ()
  | t :: ts =>
    match ts, r.dangling with
    | [], some size => failAt (size - 1) .danglingEscape
    | _, _ => set { r with rest := ts, position := r.position + t.size }

def next : Reading (Option Symbol) := do
  let t ← peek
  advance
  return t

def skip (c : Char) : Reading Bool := do
  if ← sees c then
    advance
    return true
  else
    return false

/-- Up to `n` characters that satisfy `p`. -/
def upTo (p : Char → Bool) : Nat → Reading (List Char)
  | 0 => return []
  | n + 1 => do
    match ← peek with
    | some (.char c) =>
      if p c then
        advance
        return c :: (← upTo p n)
      else
        return []
    | _ => return []

def many (p : Char → Bool) : Reading (List Char) := do
  upTo p (← get).rest.length

/-- What stands before a terminator; `n` bounds the number of symbols. -/
def untilMark (mark : Char) (what : String) : Nat → List Char → Reading (List Char)
  | 0, _ => fail 0 .unexpectedEnd
  | n + 1, found => do
    match ← next with
    | none =>
      if found.isEmpty then fail 0 (.missing what)
      else fail found.length (.unterminatedName mark)
    | some t =>
      if t == .char mark then
        if found.isEmpty then fail 1 (.missing what) else return found
      else
        untilMark mark what n (found ++ t.text)

def name (mark : Char) (what : String) : Reading (List Char) := do
  untilMark mark what ((← get).rest.length + 1) []

/-- Passes over symbols up to and with the first that satisfies `p`. -/
def skipPast (p : Symbol → Bool) : Nat → Reading Unit
  | 0 => return ()
  | n + 1 => do
    match ← next with
    | none => return ()
    | some t => if p t then return () else skipPast p n

def isClosed (group : Nat) : Reading Bool := do
  return ((← get).widths[group]?.join).isSome

/-- Inside a look behind only groups closed before it may be asked for. -/
def checkLookbehind (group : Nat) : Reading Unit := do
  match (← get).lookbehind with
  | none => return ()
  | some limit =>
    unless ← isClosed group do fail 0 .openGroupReference
    if limit ≤ group then fail 0 .lookbehindReference

end Reading

open Reading

def isOctal (c : Char) : Bool := '0' ≤ c && c ≤ '7'

def isHex (c : Char) : Bool :=
  c.isDigit || ('a' ≤ c && c ≤ 'f') || ('A' ≤ c && c ≤ 'F')

def digitValue (c : Char) : Nat :=
  if c.isDigit then c.toNat - 48
  else if 'a' ≤ c then c.toNat - 87
  else c.toNat - 55

def numberIn (base : Nat) (digits : List Char) : Nat :=
  digits.foldl (fun n c => n * base + digitValue c) 0

/-- Control characters with a letter of their own. -/
def controlEscape : Char → Option Nat
  | 'a' => some 7
  | 'b' => some 8
  | 'f' => some 12
  | 'n' => some 10
  | 'r' => some 13
  | 't' => some 9
  | 'v' => some 11
  | '\\' => some 92
  | _ => none

def categoryEscape : Char → Option SetItem
  | 'd' => some (.category .digit false)
  | 'D' => some (.category .digit true)
  | 's' => some (.category .space false)
  | 'S' => some (.category .space true)
  | 'w' => some (.category .word false)
  | 'W' => some (.category .word true)
  | _ => none

def hexEscape (letter : Char) (count : Nat) : Reading Nat := do
  let digits ← upTo isHex count
  let escape := '\\' :: letter :: digits
  if digits.length != count then
    fail escape.length (.incompleteEscape (String.ofList escape))
  let n := numberIn 16 digits
  if 0x10ffff < n then fail escape.length (.badEscape (String.ofList escape))
  return n

/-- Escapes that spell a code, read after their letter. -/
def codeEscape (c : Char) : Reading (Option Nat) := do
  match c with
  | 'x' => return some (← hexEscape 'x' 2)
  | 'u' => return some (← hexEscape 'u' 4)
  | 'U' => return some (← hexEscape 'U' 8)
  | 'N' =>
    unless ← skip '\x7b' do fail 0 .missingBrace
    let name := String.ofList (← Reading.name '\x7d' "character name")
    match Text.characterNamed? name with
    | some code => return some code
    | none => fail (name.length + 4) (.undefinedCharacter name)
  | _ => return none

def octalValue (digits : List Char) : Reading Nat := do
  let n := numberIn 8 digits
  if 0o377 < n then
    fail (digits.length + 1) (.octalTooLarge (String.ofList ('\\' :: digits)))
  return n

/-- An escaped character that stands for itself: anything but a letter or digit of ASCII. -/
def selfEscape (c : Char) : Reading Nat := do
  if c.isAlphanum then fail 2 (.badEscape (String.ofList ['\\', c]))
  return c.toNat

def setEscape (c : Char) : Reading SetItem := do
  if let some n := controlEscape c then return .code n
  if let some item := categoryEscape c then return item
  if let some n ← codeEscape c then return .code n
  if isOctal c then
    return .code (← octalValue (c :: (← upTo isOctal 2)))
  return .code (← selfEscape c)

def literal (flags : Flags) (n : Nat) : Expr :=
  .char ⟨false, [.code n], flags.ignoreCase, flags.ascii⟩

def reference (flags : Flags) (group : Nat) : Reading Expr := do
  let width := ((← get).widths[group]?.join).getD (.exactly 0)
  return .backref group width flags.ignoreCase flags.ascii

/-- A number after a backslash: three octal digits spell a code, else it names a group. -/
def numberEscape (flags : Flags) (c : Char) : Reading Expr := do
  let mut digits := [c]
  if let some (.char d) ← peek then
    if d.isDigit then
      advance
      digits := [c, d]
      if let some (.char e) ← peek then
        if isOctal c && isOctal d && isOctal e then
          advance
          return literal flags (← octalValue [c, d, e])
  let group := numberIn 10 digits
  if (← get).widths.length ≤ group then
    fail digits.length (.invalidReference group)
  unless ← isClosed group do fail (digits.length + 1) .openGroupReference
  checkLookbehind group
  reference flags group

def escape (flags : Flags) (c : Char) : Reading Expr := do
  match c with
  | 'A' => return .anchor .start
  | 'Z' => return .anchor .textStop
  | 'b' => return .anchor (.boundary flags.ascii)
  | 'B' => return .anchor (.nonBoundary flags.ascii)
  | _ =>
    if let some item := categoryEscape c then
      return .char ⟨false, [item], false, flags.ascii⟩
    if let some n := controlEscape c then return literal flags n
    if let some n ← codeEscape c then return literal flags n
    if c == '0' then
      return literal flags (numberIn 8 (← upTo isOctal 2))
    if c.isDigit then numberEscape flags c
    else return literal flags (← selfEscape c)

/-- One end of a range in a set, or a single item. -/
def setItem : Symbol → Reading SetItem
  | .char c => return .code c.toNat
  | .escape c => setEscape c

/-- The items of a set opened at `start`, in reverse. -/
def setItems (start : Nat) : Nat → List SetItem → Reading (List SetItem)
  | 0, _ => failAt start .unterminatedSet
  | n + 1, items => do
    match ← next with
    | none => failAt start .unterminatedSet
    | some this =>
      if this == .char ']' && !items.isEmpty then return items
      let low ← setItem this
      if ← skip '-' then
        match ← next with
        | none => failAt start .unterminatedSet
        | some that =>
          if that == .char ']' then return .code '-'.toNat :: low :: items
          let high ← setItem that
          let bad := Reading.fail (this.size + 1 + that.size)
            (.badRange (String.ofList this.text) (String.ofList that.text))
          match low, high with
          | .code lo, .code hi =>
            if hi < lo then bad
            else setItems start n (.range lo hi :: items)
          | _, _ => bad
      else
        setItems start n (low :: items)

/-- A set, read after its opening bracket. -/
def charSet (flags : Flags) : Reading Expr := do
  let start := (← get).position - 1
  let negated ← skip '^'
  let items ← setItems start ((← get).rest.length + 1) []
  return .char ⟨negated, items.reverse, flags.ignoreCase, flags.ascii⟩

/-- The largest number that compiled code can hold. -/
def codeLimit : Nat := 4294967295

def bound (digits : List Char) : Reading (Option Nat) := do
  if digits.isEmpty then return none
  if Text.decimalLimit < digits.length then throw (.breakdown .numeralTooLong)
  let n := numberIn 10 digits
  if codeLimit ≤ n then throw (.breakdown .tooManyRepetitions)
  return some n

/-- The bounds in braces, read after the opening one; `none` if they are no bounds. -/
def braceBounds : Reading (Option (Nat × Option Nat)) := do
  if ← sees '\x7d' then return none
  let saved ← get
  let lo ← many Char.isDigit
  let hi ← if ← skip ',' then many Char.isDigit else pure lo
  unless ← skip '\x7d' do
    set saved
    return none
  let least := (← bound lo).getD 0
  let most ← bound hi
  if most.any (· < least) then failAt saved.position .minGreaterThanMax
  return some (least, most)

/-- The bounds a quantifier sets, read after its first character. -/
def quantifier (c : Char) : Reading (Option (Nat × Option Nat)) := do
  match c with
  | '?' => return some (0, some 1)
  | '*' => return some (0, none)
  | '+' => return some (1, none)
  | _ => braceBounds

def greed : Reading Greed := do
  if ← skip '?' then return .lazy
  if ← skip '+' then return .possessive
  return .greedy

/-- The quantifier that starts at `start` applies to the item in front of it. -/
def repeated (start least : Nat) (most : Option Nat) : List Expr → Reading (List Expr)
  | [] => failAt start .nothingToRepeat
  | item :: before => do
    if item.isAnchor then failAt start .nothingToRepeat
    if item.isLoop then failAt start .multipleRepeat
    return .loop (← greed) least most item :: before

def isFlag (c : Char) : Bool := ['i', 'L', 'm', 's', 'x', 'a', 't', 'u'].contains c

def isTypeFlag (c : Char) : Bool := c == 'a' || c == 'u'

def Flags.add (flags : Flags) : Char → Flags
  | 'i' => { flags with ignoreCase := true }
  | 'm' => { flags with multiLine := true }
  | 's' => { flags with dotAll := true }
  | 'x' => { flags with verbose := true }
  | 'a' => { flags with ascii := true }
  | 'u' => { flags with ascii := false }
  | 't' => { flags with template := true }
  | _ => flags

def Flags.remove (flags : Flags) : Char → Flags
  | 'i' => { flags with ignoreCase := false }
  | 'm' => { flags with multiLine := false }
  | 's' => { flags with dotAll := false }
  | 'x' => { flags with verbose := false }
  | _ => flags

/-- After a letter that is no flag. -/
def badFlag {α : Type} (t : Symbol) (expected : String) : Reading α :=
  match t with
  | .char c =>
    if Text.isLetter c then fail 1 .unknownFlag
    else fail 1 (.missingFlag expected)
  | .escape _ => fail 2 (.missingFlag expected)

/-- Flags to turn on, starting with `c`, and the mark behind them. -/
def flagsOn : Nat → Char → List Char → Reading (List Char × Char)
  | 0, _, _ => fail 0 .unexpectedEnd
  | n + 1, c, on => do
    if c == 'L' then fail 0 (.badFlags "cannot use 'L' flag with a str pattern")
    if isTypeFlag c && on.any (fun d => isTypeFlag d && d != c) then
      fail 0 (.badFlags "flags 'a', 'u' and 'L' are incompatible")
    match ← next with
    | none => fail 0 (.missingFlag "-, : or )")
    | some t =>
      match t with
      | .char d =>
        if d == ')' || d == '-' || d == ':' then return (c :: on, d)
        if isFlag d then flagsOn n d (c :: on) else badFlag t "-, : or )"
      | .escape _ => badFlag t "-, : or )"

/-- Flags to turn off, starting with `c`, up to the colon. -/
def flagsOff : Nat → Char → List Char → Reading (List Char)
  | 0, _, _ => fail 0 .unexpectedEnd
  | n + 1, c, off => do
    if isTypeFlag c || c == 'L' then
      fail 0 (.badFlags "cannot turn off flags 'a', 'u' and 'L'")
    match ← next with
    | none => fail 0 (.missingFlag ":")
    | some t =>
      match t with
      | .char d =>
        if d == ':' then return c :: off
        if isFlag d then flagsOff n d (c :: off) else badFlag t ":"
      | .escape _ => badFlag t ":"

/-- Flags inside a group: turned on and off for its body, or (`none`) on for the pattern. -/
def inlineFlags (c : Char) : Reading (Option (List Char × List Char)) := do
  let limit := (← get).rest.length + 1
  let (on, mark) ← if c == '-' then pure ([], '-') else flagsOn limit c []
  if mark == ')' then
    modify fun r => { r with
      flags := on.foldl Flags.add r.flags
      typeFlags := on.filter isTypeFlag ++ r.typeFlags }
    return none
  if on.contains 't' then fail 1 (.badFlags "cannot turn on global flag")
  let off ←
    if mark == '-' then
      match ← next with
      | none => fail 0 (.missingFlag "flag")
      | some t =>
        match t with
        | .char d => if isFlag d then flagsOff limit d [] else badFlag t "flag"
        | .escape _ => badFlag t "flag"
    else pure []
  if off.contains 't' then fail 1 (.badFlags "cannot turn off global flag")
  if on.any off.contains then fail 1 (.badFlags "flag turned on and off")
  return some (on, off)

/-- What an opening parenthesis begins. -/
inductive Opening where
  | nothing
  | wholeFlags
  | item (e : Expr)
  | capture (name : Option String)
  | plain (flags : Flags)
  | atomic
  | look (behind negative : Bool)
  | cond (group : Nat)

def groupName (mark : Char) : Reading String := do
  let name ← Reading.name mark "group name"
  unless Text.isIdentifier name do
    fail (name.length + 1) (.badGroupName (String.ofList name))
  return String.ofList name

def groupNamed (name : String) : Reading Nat := do
  match (← get).names.lookup name with
  | some group => return group
  | none => fail (name.length + 1) (.unknownGroup name)

def namedReference (flags : Flags) : Reading Expr := do
  let name ← groupName ')'
  let group ← groupNamed name
  unless ← isClosed group do fail (name.length + 1) .openGroupReference
  checkLookbehind group
  reference flags group

/-- No group has a number from here on. -/
def groupLimit : Nat := 1073741823

/-- The group a condition asks for, by name or number. -/
def condition : Reading Nat := do
  let name ← Reading.name ')' "group name"
  let shown := String.ofList name
  let group ←
    if Text.isIdentifier name then groupNamed shown
    else
      let some (.ofNat group) := Text.wholeNumber? 10 none name
        | fail (name.length + 1) (.badGroupName shown)
      if group == 0 then fail (name.length + 1) .badGroupNumber
      if groupLimit ≤ group then fail (name.length + 1) (.invalidReference group)
      modify fun r =>
        if r.asked.any (·.1 == group) then r
        else { r with asked := r.asked ++ [(group, r.position - name.length - 1)] }
      pure group
  checkLookbehind group
  return group

/-- Reads what follows an opening parenthesis at `start` up to the body of the group. -/
def opening (start : Nat) (flags : Flags) (leading : Bool) : Reading Opening := do
  unless ← skip '?' do return .capture none
  match ← next with
  | none => fail 0 .unexpectedEnd
  | some (.escape c) => fail 3 (.unknownExtension (String.ofList ['?', '\\', c]))
  | some (.char c) =>
    match c with
    | 'P' =>
      if ← skip '<' then return .capture (some (← groupName '>'))
      if ← skip '=' then return .item (← namedReference flags)
      match ← next with
      | none => fail 0 .unexpectedEnd
      | some t => fail (t.size + 2) (.unknownExtension ("?P" ++ String.ofList t.text))
    | ':' => return .plain flags
    | '#' =>
      let r ← get
      unless r.rest.contains (.char ')') do
        skipPast (fun _ => false) (r.rest.length + 1)
        failAt start .unterminatedComment
      skipPast (· == .char ')') (r.rest.length + 1)
      return .nothing
    | '=' => return .look false false
    | '!' => return .look false true
    | '<' =>
      match ← next with
      | none => fail 0 .unexpectedEnd
      | some (.char '=') => return .look true false
      | some (.char '!') => return .look true true
      | some t => fail (t.size + 2) (.unknownExtension ("?<" ++ String.ofList t.text))
    | '(' => return .cond (← condition)
    | '>' => return .atomic
    | _ =>
      unless isFlag c || c == '-' do fail 2 (.unknownExtension (String.ofList ['?', c]))
      match ← inlineFlags c with
      | none =>
        unless leading do failAt start .lateGlobalFlags
        return .wholeFlags
      | some (on, off) => return .plain (off.foldl Flags.remove (on.foldl Flags.add flags))

def openGroup (name : Option String) : Reading Nat := do
  let r ← get
  let group := r.widths.length
  match name with
  | none => set { r with widths := r.widths ++ [none] }
  | some name =>
    if let some earlier := r.names.lookup name then
      fail (name.length + 1) (.redefinedGroup name group earlier)
    set { r with widths := r.widths ++ [none], names := (name, group) :: r.names }
  return group

def closeGroup (group : Nat) (body : Expr) : Reading Unit :=
  modify fun r => { r with widths := r.widths.set group (some body.width) }

def closing (start : Nat) : Reading Unit := do
  unless ← skip ')' do failAt start .unterminatedGroup

def isVerboseBlank (t : Symbol) : Bool :=
  [' ', '\t', '\n', '\r', '\x0b', '\x0c'].any fun c => t == .char c

/-- Characters of which none stands for itself. -/
def isQuantifier (c : Char) : Bool := c == '*' || c == '+' || c == '?' || c == '\x7b'

/-- An item that is neither a group nor a quantifier, from its first symbol. -/
def simpleItem (flags : Flags) : Symbol → Reading Expr
  | .escape c => escape flags c
  | .char '[' => charSet flags
  | .char '.' => return .char ⟨true, if flags.dotAll then [] else [.code 10], false, false⟩
  | .char '^' => return .anchor (if flags.multiLine then .lineStart else .start)
  | .char '$' => return .anchor (if flags.multiLine then .lineStop else .stop)
  | .char c => return literal flags c.toNat

/-- What groups inside one another may take up together. A group takes two, a branch of a
condition one. -/
def nestingRoom : Nat := 976

/-- The room left inside something that takes up `part`. -/
def inside (part room : Nat) : Reading Nat :=
  if room < part then throw (.breakdown .nestedTooDeep) else return room - part

mutual

/-- Branches with bars between them. `leading` holds at the very start of the pattern, and `room`
is left for groups inside. -/
def alternation : Nat → Nat → Bool → Flags → Reading Expr
  | 0, _, _, _ => fail 0 .unexpectedEnd
  | n + 1, room, leading, flags => do
    let first ← sequence n room leading flags []
    if ← skip '|' then
      let whole := (← get).flags
      let flags := if leading then whole else flags
      return .alt first (← alternation n room false flags)
    else
      return first

/-- The items of one branch; those read so far stand in reverse. -/
def sequence : Nat → Nat → Bool → Flags → List Expr → Reading Expr
  | 0, _, _, _, _ => fail 0 .unexpectedEnd
  | n + 1, room, leading, flags, items => do
    match ← peek with
    | none | some (.char '|') | some (.char ')') => return .ofList items.reverse
    | some t =>
      advance
      let here := (← get).position
      if flags.verbose && isVerboseBlank t then
        sequence n room leading flags items
      else if flags.verbose && t == .char '#' then
        skipPast (· == .char '\n') ((← get).rest.length + 1)
        sequence n room leading flags items
      else
        match t with
        | .char '(' =>
          let start := here - 1
          match ← opening start flags (leading && items.isEmpty) with
          | .nothing => sequence n room leading flags items
          | .wholeFlags => sequence n room leading (← get).flags items
          | .item e => sequence n room leading flags (e :: items)
          | .capture name =>
            let group ← openGroup name
            let body ← alternation n (← inside 2 room) false flags
            closing start
            closeGroup group body
            sequence n room leading flags (.capture group body :: items)
          | .plain inner =>
            let body ← alternation n (← inside 2 room) false inner
            closing start
            sequence n room leading flags (.group body :: items)
          | .atomic =>
            let body ← alternation n (← inside 2 room) false flags
            closing start
            sequence n room leading flags (.atomic body :: items)
          | .look behind negative =>
            let outer := (← get).lookbehind
            if behind && outer.isNone then
              modify fun r => { r with lookbehind := some r.widths.length }
            let body ← alternation n (← inside 2 room) false flags
            modify fun r => { r with lookbehind := outer }
            closing start
            sequence n room leading flags (.look behind negative body :: items)
          | .cond group =>
            let room' ← inside 1 room
            let yes ← sequence n room' false flags []
            let no ← if ← skip '|' then sequence n room' false flags [] else pure .empty
            if ← sees '|' then fail 0 .tooManyBranches
            closing start
            sequence n room leading flags (.cond group yes no :: items)
        | .char c =>
          if isQuantifier c then
            match ← quantifier c with
            | none => sequence n room leading flags (literal flags c.toNat :: items)
            | some (least, most) =>
              sequence n room leading flags (← repeated (here - 1) least most items)
          else
            sequence n room leading flags ((← simpleItem flags t) :: items)
        | .escape _ => sequence n room leading flags ((← simpleItem flags t) :: items)

end

/-- The first part of an expression that cannot be compiled, from the outside in. -/
def Expr.fault? (template : Bool) : Expr → Option Cause
  | .empty | .char _ | .anchor _ | .backref .. => none
  | .seq a b | .alt a b | .cond _ a b => a.fault? template <|> b.fault? template
  | .loop greed _ _ body =>
    if template then some (.templateLoop greed) else body.fault? template
  | .group body | .capture _ body | .atomic body | .look false _ body => body.fault? template
  | .look true _ body =>
    if codeLimit < body.width.lo then some .lookbehindTooWide
    else if !body.width.isFixed then some .variableLookbehind
    else body.fault? template

def pattern (symbols : Nat) : Reading Expr := do
  let e ← alternation (2 * symbols + 4) nestingRoom true {}
  let r ← get
  if r.typeFlags.contains 'a' && r.typeFlags.contains 'u' then
    throw (.breakdown .clashingFlags)
  if (← peek).isSome then fail 0 .unbalancedParenthesis
  if let some (group, place) := r.asked.find? (r.widths.length ≤ ·.1) then
    failAt place (.invalidReference group)
  if let some cause := e.fault? r.flags.template then
    throw (.error ⟨cause, none⟩)
  return e

def Expr.parse (text : List Char) : Except Failure Expr :=
  let symbols := Symbol.ofText text
  let dangling := if Symbol.dangles text then some text.length else none
  if symbols.isEmpty && dangling.isSome then
    .error (.error ⟨.danglingEscape, some (text.length - 1)⟩)
  else
    (pattern symbols.length).run' { rest := symbols, position := 0, dangling }

end ImportOrder.Regex
