import ImportOrder.Code.Parse

/-!
Expressions. The rules accept or refuse; of an expression they keep only where it may stand.

Rules that occur inside each other do so through a `Grammar`, a choice of a parser for each `Rule`.
-/

namespace ImportOrder.Code

/-- Where an expression may stand. -/
structure Shape where
  /-- Left of an equals sign. -/
  assignable : Bool := false
  /-- Left of an annotation or of an augmented assignment. -/
  single : Bool := false
  /-- After `del`. -/
  deletable : Bool := false
  /-- It starts with a star. -/
  starred : Bool := false
deriving DecidableEq, Repr

/-- Names, attributes and subscripts. -/
def Shape.place : Shape := ⟨true, true, true, false⟩

/-- Several expressions as one. -/
def Shape.sequence (parts : List Shape) : Shape :=
  { assignable := parts.all (·.assignable)
    deletable := parts.all (·.deletable) }

/-- The rules that occur inside each other. -/
inductive Rule where
  | expression
  | disjunction
  | inversion
  | bitOr
  | factor
  | primary
  | named
  | starNamed
  | starExpressions
  | field
  | pattern
  | statement

abbrev Grammar := Rule → Parse Shape

namespace Grammar

open Parse

variable (g : Grammar)

/-- What `yield` yields may be missing before these. -/
def endsYield : Lexeme → Bool
  | .newline => true
  | .mark m => [")", "]", "\x7d", ";", "=", ":", "!", ","].contains m
  | _ => false

def yielded : Parse Unit := do
  word "yield"
  if ← word? "from" then
    let _ ← g .expression
  else if !(← next?).any endsYield then
    let _ ← g .starExpressions

def yieldOrStar : Parse Shape := do
  if ← nextIs (.word "yield") then
    g.yielded
    return {}
  else g .starExpressions

def formattedParts : Parse Unit :=
  many do
    if ← take? .formattedText then return true
    else if ← nextIs (.mark "\x7b") then
      let _ ← g .field
      return true
    else return false

def formattedField : Parse Unit := do
  mark "\x7b"
  let _ ← g.yieldOrStar
  let _ ← mark? "="
  if ← mark? "!" then
    let (conversion, _) ← name
    guard (["s", "r", "a"].contains conversion)
  if ← mark? ":" then g.formattedParts
  mark "\x7d"

/-- String literals in a row, formatted ones among them. -/
def strings : Parse Unit :=
  atLeastOne do
    if ← take? .string then return true
    else if ← take? .formattedStart then
      g.formattedParts
      expect .formattedEnd
      return true
    else return false

/-- An assignment expression comes next. -/
def isWalrus : Parse Bool := do
  return (← nextIsName) && (← second?) == some (.mark ":=")

/-- A clause of a comprehension comes next. -/
def isFor : Parse Bool := do
  return (← nextIs (.word "for")) ||
    ((← nextIs (.word "async")) && (← second?) == some (.word "for"))

/-- How far the arguments of a call have come: after a keyword argument stands no positional one,
after a double star only keyword arguments. -/
inductive ArgumentStage where
  | positional
  | keyword
  | double
deriving DecidableEq

def argument (stage : ArgumentStage) : Parse ArgumentStage := do
  if ← mark? "**" then
    let _ ← g .expression
    return .double
  else if ← mark? "*" then
    guard (stage != .double)
    let _ ← g .expression
    return stage
  else if (← nextIsName) && (← second?) == some (.mark "=") then
    let _ ← token
    let _ ← token
    let _ ← g .expression
    return if stage == .positional then .keyword else stage
  else
    guard (stage == .positional)
    let _ ← g .named
    return stage

/-- Arguments up to the closing bracket, which stays. -/
def arguments : Parse Unit := do
  if !(← nextIs (.mark ")")) then
    let _ ← iterate (fun stage? => do
      match stage? with
      | none => return none
      | some stage =>
          let stage ← g.argument stage
          if (← mark? ",") && !(← nextIs (.mark ")")) then
            return some (some stage)
          else return some none) (some ArgumentStage.positional)

/-- The operand of a star in a list of expressions. -/
def starOperand (operand : Parse Shape) : Parse Shape := do
  mark "*"
  return { assignable := (← operand).assignable, starred := true }

/-- What a loop binds, up to the word `in`, which stays. -/
def loopTargets : Parse Unit := do
  let one : Parse Shape := do
    if ← nextIs (.mark "*") then starOperand (g .primary) else g .primary
  let (parts, _) ← commaList one (· == .word "in")
  guard (parts.all (·.assignable))

/-- The clauses of a comprehension. -/
def clauses : Parse Unit :=
  atLeastOne do
    if ← isFor then
      let _ ← word? "async"
      word "for"
      g.loopTargets
      word "in"
      let _ ← g .disjunction
      many do
        if ← word? "if" then
          let _ ← g .disjunction
          return true
        else return false
      return true
    else return false

def subscriptPart : Parse Unit := do
  let bound : Parse Unit := do
    if !(← nextIs (.mark ":")) && !(← nextIs (.mark ",")) && !(← nextIs (.mark "]")) then
      let _ ← g .expression
  if ← mark? "*" then
    let _ ← g .expression
  else if ← isWalrus then
    let _ ← g .named
  else
    if !(← nextIs (.mark ":")) then
      let _ ← g .expression
    if ← mark? ":" then
      bound
      if ← mark? ":" then bound

def parenthesised : Parse Shape := do
  if ← mark? ")" then return { assignable := true, deletable := true }
  else if ← nextIs (.word "yield") then
    g.yielded
    mark ")"
    return {}
  else
    let first ← g .starNamed
    if ← isFor then
      guard !first.starred
      g.clauses
      mark ")"
      return {}
    else if ← mark? "," then
      if ← mark? ")" then return .sequence [first]
      else
        let (rest, _) ← commaList (g .starNamed) (· == .mark ")")
        mark ")"
        return .sequence (first :: rest)
    else
      mark ")"
      guard !first.starred
      return first

/-- What follows an opening square bracket of a list. -/
def bracketed : Parse Shape := do
  if ← mark? "]" then return { assignable := true, deletable := true }
  else
    let first ← g .starNamed
    if ← isFor then
      guard !first.starred
      g.clauses
      mark "]"
      return {}
    else if ← mark? "," then
      if ← mark? "]" then return .sequence [first]
      else
        let (rest, _) ← commaList (g .starNamed) (· == .mark "]")
        mark "]"
        return .sequence (first :: rest)
    else
      mark "]"
      return .sequence [first]

/-- An entry of a dictionary. -/
def entry : Parse Unit := do
  if ← mark? "**" then
    let _ ← g .bitOr
  else
    let _ ← g .expression
    mark ":"
    let _ ← g .expression

def entries : Parse Unit := do
  if ← mark? "," then
    if !(← nextIs (.mark "\x7d")) then
      let _ ← commaList g.entry (· == .mark "\x7d")

def elements : Parse Unit := do
  if ← mark? "," then
    if !(← nextIs (.mark "\x7d")) then
      let _ ← commaList (g .starNamed) (· == .mark "\x7d")

/-- What follows an opening brace of a dictionary or a set. -/
def braced : Parse Unit := do
  if ← nextIs (.mark "\x7d") then return
  else if ← nextIs (.mark "**") then
    g.entry
    g.entries
  else if (← nextIs (.mark "*")) || (← isWalrus) then
    let first ← g .starNamed
    if !first.starred && (← isFor) then g.clauses else g.elements
  else
    let _ ← g .expression
    if ← mark? ":" then
      let _ ← g .expression
      if ← isFor then g.clauses else g.entries
    else if ← isFor then g.clauses
    else g.elements

def atom : Parse Shape := do
  match ← next? with
  | some (.word spelling) =>
      let _ ← token
      if ["None", "True", "False"].contains spelling then return {}
      else if isKeyword spelling then failure
      else return .place
  | some .number =>
      let _ ← token
      return {}
  | some (.mark "...") =>
      let _ ← token
      return {}
  | some (.mark "(") =>
      let _ ← token
      g.parenthesised
  | some (.mark "[") =>
      let _ ← token
      g.bracketed
  | some (.mark "\x7b") =>
      let _ ← token
      g.braced
      mark "\x7d"
      return {}
  | _ =>
      g.strings
      return {}

/-- The only argument of a call, if it is a generator. -/
def generator? : Parse (Option Unit) := do
  if (← nextIs (.mark "*")) || (← nextIs (.mark "**")) || (← nextIs (.mark ")")) then return none
  else if (← nextIsName) && (← second?) == some (.mark "=") then return none
  else
    let _ ← g .named
    if ← isFor then
      g.clauses
      return some ()
    else return none

/-- The call after its opening parenthesis: one generator alone, or arguments. -/
def call : Parse Unit := do
  orAgain g.generator? g.arguments
  mark ")"

/-- An atom with attributes, calls and subscripts. -/
def primary : Parse Shape := do
  let first ← g.atom
  iterate (fun _ => do
    if ← mark? "." then
      let _ ← name
      return some Shape.place
    else if ← mark? "(" then
      g.call
      return some {}
    else if ← mark? "[" then
      let _ ← commaList g.subscriptPart (· == .mark "]")
      mark "]"
      return some Shape.place
    else return none) first

def power : Parse Shape := do
  let base ← if ← word? "await" then
      let _ ← g.primary
      pure {}
    else g.primary
  if ← mark? "**" then
    let _ ← g .factor
    return {}
  else return base

def factor : Parse Shape := do
  if ← anyMark ["+", "-", "~"] then
    let _ ← g .factor
    return {}
  else g.power

/-- Operands with operators between them. What an operator joins is no place. -/
def chain (operand : Parse Shape) (operator : Parse Bool) : Parse Shape := do
  let first ← operand
  iterate (fun _ => do
    if ← operator then
      let _ ← operand
      return some {}
    else return none) first

/-- The arithmetical and bitwise operators, tightest first. -/
def operators : List (List String) :=
  [["*", "/", "//", "%", "@"], ["+", "-"], ["<<", ">>"], ["&"], ["^"], ["|"]]

def bitOr : Parse Shape :=
  operators.foldl (fun operand level => chain operand (anyMark level)) g.factor

def comparator : Parse Bool := do
  if ← anyMark ["==", "!=", "<>", "<=", "<", ">=", ">"] then return true
  else if ← word? "in" then return true
  else if (← nextIs (.word "not")) && (← second?) == some (.word "in") then
    let _ ← token
    let _ ← token
    return true
  else if ← word? "is" then
    let _ ← word? "not"
    return true
  else return false

def inversion : Parse Shape := do
  if ← word? "not" then
    let _ ← g .inversion
    return {}
  else chain g.bitOr comparator

def disjunction : Parse Shape :=
  chain (chain g.inversion (word? "and")) (word? "or")

/-- How far a list of parameters has come. -/
structure Parameters where
  /-- A parameter before any slash or star. -/
  plain : Bool := false
  slash : Bool := false
  star : Bool := false
  /-- A lone star that no parameter has followed. -/
  bare : Bool := false
  /-- A parameter with a default before any star. -/
  defaulted : Bool := false
  finished : Bool := false

/-- One parameter, with an annotation if that is allowed here. -/
def parameter (annotated : Bool) (p : Parameters) : Parse Parameters := do
  let annotation : Parse Unit := do
    if annotated then
      if ← mark? ":" then
        let _ ← g .expression
  if ← mark? "/" then
    guard (p.plain && !p.slash && !p.star)
    return { p with slash := true }
  else if ← mark? "**" then
    guard !p.bare
    let _ ← name
    annotation
    return { p with finished := true }
  else if ← mark? "*" then
    guard !p.star
    if ← nextIs (.mark ",") then return { p with star := true, bare := true }
    else
      let _ ← name
      if annotated then
        if ← mark? ":" then
          let _ ← if ← nextIs (.mark "*") then starOperand g.bitOr else g .expression
      return { p with star := true }
  else
    let _ ← name
    annotation
    let hasDefault ← mark? "="
    if hasDefault then
      let _ ← g .expression
    if p.star then return { p with bare := false }
    else
      guard (hasDefault || !p.defaulted)
      return { p with plain := true, defaulted := hasDefault }

/-- Parameters up to the mark that closes them, which stays. -/
def parameters (annotated : Bool) (close : String) : Parse Unit := do
  if !(← nextIs (.mark close)) then
    let last ← iterate (fun (p, done) => do
      if done then return none
      else
        let p ← g.parameter annotated p
        let more ← mark? ","
        let closing ← nextIs (.mark close)
        guard (closing || (more && !p.finished))
        return some (p, closing)) (({} : Parameters), false)
    guard !last.1.bare

def expression : Parse Shape := do
  if ← word? "lambda" then
    g.parameters false ":"
    mark ":"
    let _ ← g .expression
    return {}
  else
    let first ← g.disjunction
    if ← word? "if" then
      let _ ← g.disjunction
      word "else"
      let _ ← g .expression
      return {}
    else return first

def named : Parse Shape := do
  if ← isWalrus then
    let _ ← token
    let _ ← token
    let _ ← g.expression
    return {}
  else g.expression

def starNamed : Parse Shape := do
  if ← nextIs (.mark "*") then starOperand g.bitOr else g.named

/-- A list of expressions without brackets ends before these. -/
def endsList : Lexeme → Bool
  | .newline => true
  | .mark m =>
      [")", "]", "\x7d", ";", "=", ":", "!", "+=", "-=", "*=", "/=", "//=", "%=", "@=", "&=", "|=",
       "^=", ">>=", "<<=", "**="].contains m
  | _ => false

/-- Expressions with commas between them, some perhaps with stars. -/
def starExpressions : Parse Shape := do
  let one : Parse Shape := do
    if ← nextIs (.mark "*") then starOperand g.bitOr else g.expression
  let (parts, commas) ← commaList one endsList
  match parts, commas with
  | [s], false => return s
  | _, _ => return .sequence parts

end Grammar
end ImportOrder.Code
