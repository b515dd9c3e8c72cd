import ImportOrder.Code.Expression

/-!
Patterns of `case` clauses.
-/

namespace ImportOrder.Code.Grammar

open Parse

variable (g : Grammar)

/-- A number with a sign, perhaps with an imaginary part. -/
def signedNumber : Parse Unit := do
  let _ ← mark? "-"
  expect .number
  if ← anyMark ["+", "-"] then expect .number

def isConstant (spelling : String) : Bool := ["None", "True", "False"].contains spelling

/-- A literal that may be a pattern, or a key of one; false if none comes next. -/
def literal? : Parse Bool := do
  match ← next? with
  | some .number => signedNumber; return true
  | some (.mark "-") => signedNumber; return true
  | some .string => g.strings; return true
  | some .formattedStart => g.strings; return true
  | some (.word spelling) =>
      if isConstant spelling then
        let _ ← token
        return true
      else return false
  | _ => return false

/-- A name with attributes; are there any? -/
def attributes : Parse Bool := do
  let _ ← name
  iterate (fun _ => do
    if ← mark? "." then
      let _ ← name
      return some true
    else return none) false

/-- A pattern or a starred name; is it starred? -/
def starPattern : Parse Bool := do
  if ← mark? "*" then
    let _ ← name
    return true
  else
    let _ ← g .pattern
    return false

/-- Patterns of the attributes of a class; once one has a keyword, all have. -/
def classParts : Parse Unit := do
  if !(← nextIs (.mark ")")) then
    let _ ← iterate (fun (keyword, done) => do
      if done then return none
      else
        let isKeyword := (← nextIsName) && (← second?) == some (.mark "=")
        guard (isKeyword || !keyword)
        if isKeyword then
          let _ ← token
          let _ ← token
        let _ ← g .pattern
        let more ← mark? ","
        let closing ← nextIs (.mark ")")
        guard (closing || more)
        return some (isKeyword, closing)) (false, false)
  mark ")"

/-- Entries of a mapping pattern; the rest of the mapping comes last. -/
def mappingParts : Parse Unit := do
  if !(← nextIs (.mark "\x7d")) then
    let _ ← iterate (fun (rest, done) => do
      if done then return none
      else
        guard !rest
        let isRest ← mark? "**"
        if isRest then
          let _ ← name
        else
          if !(← g.literal?) then guard (← attributes)
          mark ":"
          let _ ← g .pattern
        let more ← mark? ","
        let closing ← nextIs (.mark "\x7d")
        guard (closing || more)
        return some (isRest, closing)) (false, false)
  mark "\x7d"

def closedPattern : Parse Unit := do
  if ← mark? "(" then
    if ← mark? ")" then return
    let (parts, commas) ← commaList g.starPattern (· == .mark ")")
    guard (commas || parts == [false])
    mark ")"
  else if ← mark? "[" then
    if ← mark? "]" then return
    let _ ← commaList g.starPattern (· == .mark "]")
    mark "]"
  else if ← mark? "\x7b" then g.mappingParts
  else if ← g.literal? then return
  else if ← word? "_" then return
  else
    let _ ← attributes
    if ← mark? "(" then g.classParts

def pattern : Parse Unit := do
  g.closedPattern
  many do
    if ← mark? "|" then
      g.closedPattern
      return true
    else return false
  if ← word? "as" then
    let (target, _) ← name
    guard (target != "_")

/-- What follows `case`: one pattern, or a sequence without brackets. -/
def casePatterns : Parse Unit := do
  let (parts, commas) ← commaList g.starPattern fun l => l == .mark ":" || l == .word "if"
  guard (commas || parts == [false])

end ImportOrder.Code.Grammar
