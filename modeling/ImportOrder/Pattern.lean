import ImportOrder.Regex
import ImportOrder.Settings

/-!
Patterns of a policy. A token between slashes is a regular expression, a token that names a group
refers to it, and any other token is a module name.
-/

namespace ImportOrder

inductive Pattern where
  | literal (value : String)
  | regex (token : String) (found : List Char → Bool)
  | group (name : String)

/-- A token whose regular expression cannot be read. -/
structure PatternError where
  token : String
  error : Regex.Error

namespace Pattern

/-- A token is at fault, or the compiler breaks down on it. -/
inductive Failure where
  | error (error : PatternError)
  | breakdown (breakdown : Regex.Breakdown)

/-- Is the token written between slashes? -/
def isRegexToken (token : String) : Bool :=
  2 ≤ token.length && token.toList.head? == some Settings.regexDelimiter &&
    token.toList.getLast? == some Settings.regexDelimiter

def interior (token : String) : List Char := (token.toList.drop 1).dropLast

def parse (compile : Regex.Compiler) (groups : List String) (token : String) :
    Except Failure Pattern :=
  if isRegexToken token then
    match compile (interior token) with
    | .ok found => .ok (.regex token found)
    | .error (.error e) => .error (.error ⟨token, e⟩)
    | .error (.breakdown b) => .error (.breakdown b)
  else if groups.contains token then .ok (.group token)
  else .ok (.literal token)

/-- Does a module belong to the pattern? A reference to a group matches nothing by itself. -/
def accepts (source : String) : Pattern → Bool
  | .literal value => value == source
  | .regex _ found => found source.toList
  | .group _ => false

end Pattern
end ImportOrder
