import ImportOrder.Code.Pattern
import ImportOrder.Code.Reader

/-!
Statements and whole modules. Import statements that stand alone on a line of the module are kept
with the tokens they are made of; everything else is only accepted or refused.
-/

namespace ImportOrder.Code

/-- A name that an import statement binds. -/
structure Alias where
  /-- The name after `as`, or else the one imported. -/
  bound : String
  first : Token
  last : Token
deriving Repr

structure Import where
  /-- The module named first, with the dots that make it relative. -/
  source : String
  aliases : List Alias
  first : Token
  last : Token
deriving Repr

namespace Parse

/-- A dotted name, with its first and last tokens. -/
def dottedName : Parse (String × Token × Token) := do
  let (head, first) ← name
  iterate (fun (spelling, first, _) => do
    if ← mark? "." then
      let (part, last) ← name
      return some (spelling ++ "." ++ part, first, last)
    else return none) (head, first, first)

/-- What is imported and, after `as`, what it is called. -/
def renamed (imported : Parse (String × Token × Token)) : Parse (String × Alias) := do
  let (spelling, first, last) ← imported
  if ← word? "as" then
    let (bound, last) ← name
    return (spelling, ⟨bound, first, last⟩)
  else return (spelling, ⟨spelling, first, last⟩)

def importModules : Parse Import := do
  let first ← token
  let (items, _) ← commaList (renamed dottedName) fun _ => false
  match items, items.getLast? with
  | (source, _) :: _, some (_, final) =>
      return ⟨source, items.map (·.2), first, final.last⟩
  | _, _ => failure

def relativeDots : Parse String :=
  iterate (fun dots => do
    if ← mark? "." then return some (dots ++ ".")
    else if ← mark? "..." then return some (dots ++ "...")
    else return none) ""

/-- The module behind its dots, which may stand alone if there are any. -/
def modulePath (dots : String) : Parse String := do
  if ← nextIs (.word "import") then
    guard (dots != "")
    return ""
  else
    let (spelling, _) ← dottedName
    return spelling

def memberName : Parse (String × Token × Token) := do
  let (spelling, t) ← name
  return (spelling, t, t)

/-- The names imported from a module: a star, or names, perhaps in parentheses. -/
def members (source : String) (first : Token) : Parse Import := do
  if ← nextIs (.mark "*") then
    let last ← token
    return ⟨source, [], first, last⟩
  else if ← mark? "(" then
    let (items, _) ← commaList (renamed memberName) (· == .mark ")")
    let last ← token
    guard (last.lexeme == .mark ")")
    return ⟨source, items.map (·.2), first, last⟩
  else
    let (items, _) ← commaList (renamed memberName) fun _ => false
    match items.getLast? with
    | some (_, final) => return ⟨source, items.map (·.2), first, final.last⟩
    | none => failure

def importNames : Parse Import := do
  let first ← token
  let dots ← relativeDots
  let path ← modulePath dots
  word "import"
  members (dots ++ path) first

end Parse

namespace Grammar

open Parse

variable (g : Grammar)

def augmented : List String :=
  ["+=", "-=", "*=", "/=", "//=", "%=", "@=", "&=", "|=", "^=", ">>=", "<<=", "**="]

/-- An expression, an assignment in any of its forms, or an annotation. -/
def expressionStatement : Parse Unit := do
  let first ← g.yieldOrStar
  if ← mark? ":" then
    guard first.single
    let _ ← g .expression
    if ← mark? "=" then
      let _ ← g.yieldOrStar
  else if ← anyMark augmented then
    guard first.single
    let _ ← g.yieldOrStar
  else
    let _ ← iterate (fun left => do
      if ← mark? "=" then
        guard left.assignable
        return some (← g.yieldOrStar)
      else return none) first

def typeParameter : Parse Unit := do
  let starred ← mark? "*"
  let doubled ← if starred then pure false else mark? "**"
  let _ ← name
  if !starred && !doubled then
    if ← mark? ":" then
      let _ ← g .expression
  if ← mark? "=" then
    let _ ← if starred then (do
        if ← nextIs (.mark "*") then starOperand g.bitOr else g .expression)
      else g .expression

def typeParameters : Parse Unit := do
  if ← mark? "[" then
    let _ ← commaList g.typeParameter (· == .mark "]")
    mark "]"

def names : Parse Unit := do
  let _ ← commaList name fun _ => false

def endsStatement (l : Lexeme) : Bool := l == .newline || l == .mark ";"

/-- The statements that start with a keyword and hold no block. -/
def keywordStatement (keyword : String) : Parse Unit := do
  match keyword with
  | "pass" | "break" | "continue" => return
  | "return" => if !(← next?).any endsStatement then let _ ← g .starExpressions
  | "raise" =>
      if !(← next?).any endsStatement then
        let _ ← g .expression
        if ← word? "from" then let _ ← g .expression
  | "assert" =>
      let _ ← g .expression
      if ← mark? "," then let _ ← g .expression
  | "global" | "nonlocal" => names
  | "del" =>
      let (parts, _) ← commaList (g .primary) endsStatement
      guard (parts.all (·.deletable))
  | _ => failure

/-- A new name for a type comes next. -/
def isTypeAlias : Parse Bool := do
  let lexemes : List Lexeme := (← ahead).map (·.lexeme)
  match lexemes with
  | .word "type" :: .word spelling :: .mark m :: _ =>
      return !isKeyword spelling && (m == "=" || m == "[")
  | _ => return false

/-- A statement that starts with this word and holds no block; imports apart. -/
def wordStatement (spelling : String) : Parse Unit := do
  if ["pass", "break", "continue", "return", "raise", "assert", "global", "nonlocal",
      "del"].contains spelling then
    let _ ← token
    g.keywordStatement spelling
  else if ← isTypeAlias then
    let _ ← token
    let _ ← name
    g.typeParameters
    mark "="
    let _ ← g .expression
  else g.expressionStatement

/-- A statement that holds no block. -/
def smallStatement : Parse (Option Import) := do
  match ← next? with
  | some (.word "import") => return some (← importModules)
  | some (.word "from") => return some (← importNames)
  | some (.word spelling) =>
      g.wordStatement spelling
      return none
  | _ =>
      g.expressionStatement
      return none

/-- Small statements up to the end of their line. An import that is the only one is kept. -/
def line : Parse (Option Import) := do
  let first ← g.smallStatement
  let count ← iterate (fun count => do
    if ← mark? ";" then
      if ← nextIs .newline then return some count
      else
        let _ ← g.smallStatement
        return some (count + 1)
    else return none) 1
  expect .newline
  return if count == 1 then first else none

/-- A colon and the statements it introduces. -/
def block : Parse Unit := do
  mark ":"
  if ← take? .newline then
    expect .indent
    atLeastOne do
      if (← nextIs .dedent) || (← nextIs .finish) then return false
      else
        let _ ← g .statement
        return true
    expect .dedent
  else
    let _ ← g.line

def elseBlock : Parse Unit := do
  if ← word? "else" then g.block

def ifStatement : Parse Unit := do
  let _ ← g .named
  g.block
  many do
    if ← word? "elif" then
      let _ ← g .named
      g.block
      return true
    else return false
  g.elseBlock

def whileStatement : Parse Unit := do
  let _ ← g .named
  g.block
  g.elseBlock

def forStatement : Parse Unit := do
  g.loopTargets
  word "in"
  let _ ← g .starExpressions
  g.block
  g.elseBlock

def withItem : Parse Unit := do
  let _ ← g .expression
  if ← word? "as" then
    let target ← if ← nextIs (.mark "*") then starOperand (g .primary) else g .primary
    guard target.assignable

/-- The items of a `with` statement stand in parentheses or without them. -/
def withStatement : Parse Unit := do
  let wrapped : Parse Unit := do
    mark "("
    let _ ← commaList g.withItem (· == .mark ")")
    mark ")"
    guard (← nextIs (.mark ":"))
  let bare : Parse Unit := do
    let _ ← commaList g.withItem fun _ => false
  wrapped <|> bare
  g.block

/-- The clauses that handle exceptions, all plain or all with stars. -/
def handlers : Parse Bool := do
  let one (expected : Option Bool) : Parse (Option (Option Bool)) := do
    if ← word? "except" then
      let starred ← mark? "*"
      guard (expected.all (· == starred))
      if starred || !(← nextIs (.mark ":")) then
        let _ ← g .expression
        if ← word? "as" then
          let _ ← name
      g.block
      return some (some starred)
    else return none
  return (← iterate one none).isSome

def tryStatement : Parse Unit := do
  g.block
  let handled ← g.handlers
  if handled then g.elseBlock
  if ← word? "finally" then g.block
  else guard handled

def functionStatement : Parse Unit := do
  let _ ← name
  g.typeParameters
  mark "("
  g.parameters true ")"
  mark ")"
  if ← mark? "->" then
    let _ ← g .expression
  g.block

def classStatement : Parse Unit := do
  let _ ← name
  g.typeParameters
  if ← mark? "(" then
    g.arguments
    mark ")"
  g.block

/-- Decorators and the definition they belong to. -/
def decorated : Parse Unit := do
  atLeastOne do
    if ← mark? "@" then
      let _ ← g .named
      expect .newline
      return true
    else return false
  if ← word? "class" then g.classStatement
  else
    let _ ← word? "async"
    word "def"
    g.functionStatement

def matchStatement : Parse Unit := do
  word "match"
  let (subjects, commas) ← commaList (g .starNamed) (· == .mark ":")
  guard (commas || subjects.all (!·.starred))
  mark ":"
  expect .newline
  expect .indent
  atLeastOne do
    if ← word? "case" then
      g.casePatterns
      if ← word? "if" then
        let _ ← g .named
      g.block
      return true
    else return false
  expect .dedent

/-- A statement that holds blocks; false if none comes next. -/
def compound? : Parse Bool := do
  match ← next? with
  | some (.mark "@") => g.decorated; return true
  | some (.word keyword) =>
      let rule : Option (Parse Unit) := match keyword with
        | "if" => g.ifStatement
        | "while" => g.whileStatement
        | "for" => g.forStatement
        | "with" => g.withStatement
        | "try" => g.tryStatement
        | "def" => g.functionStatement
        | "class" => g.classStatement
        | "async" => some do
            if ← word? "def" then g.functionStatement
            else if ← word? "for" then g.forStatement
            else
              word "with"
              g.withStatement
        | _ => none
      match rule with
      | some parse =>
          let _ ← token
          parse
          return true
      | none =>
          if keyword == "match" then (do g.matchStatement; return true) <|> return false
          else return false
  | _ => return false

def statement : Parse (Option Import) := do
  if ← g.compound? then return none else g.line

/-- The rules in terms of each other. -/
def step : Grammar
  | .expression => g.expression
  | .disjunction => g.disjunction
  | .inversion => g.inversion
  | .bitOr => g.bitOr
  | .factor => g.factor
  | .primary => g.primary
  | .named => g.named
  | .starNamed => g.starNamed
  | .starExpressions => g.starExpressions
  | .field => do g.formattedField; return {}
  | .pattern => do g.pattern; return {}
  | .statement => do let _ ← g.statement; return {}

/-- The rules, applied inside each other at most so many times. -/
def upTo : Nat → Grammar
  | 0 => fun _ => failure
  | depth + 1 => step (upTo depth)

/-- Another statement of a module, unless that ends here. -/
def another (found : List Import) : Parse (Option (List Import)) := do
  if ← nextIs .finish then return none
  else match ← g.statement with
    | some i => return some (i :: found)
    | none => return some found

def imports : Parse (List Import) := do
  let found ← iterate g.another []
  return found.reverse

end Grammar

/-- The import statements that stand alone on lines of a module, if the source is one. -/
def imports? (source : Text) : Option (List Import) := do
  let ts ← tokens source
  let (found, _) ← (Grammar.upTo (4 * ts.length + 4)).imports.run ts
  return found

end ImportOrder.Code
