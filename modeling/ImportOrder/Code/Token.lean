import ImportOrder.Statement

/-!
The tokens of Python source.
-/

namespace ImportOrder.Code

inductive Lexeme where
  /-- A name or a keyword. -/
  | word (spelling : String)
  | number
  | string
  /-- The opening quotes of a formatted string. -/
  | formattedStart
  /-- Literal text inside a formatted string. -/
  | formattedText
  | formattedEnd
  /-- An operator or a delimiter. -/
  | mark (spelling : String)
  | newline
  | indent
  | dedent
  | finish
deriving DecidableEq, Repr

/-- A lexeme with the positions where it starts and ends. -/
structure Token where
  lexeme : Lexeme
  start : Position
  stop : Position
  /-- How many line continuations stood in the margins of the statements so far. -/
  joined : Nat
deriving DecidableEq, Repr

def keywords : List String :=
  ["False", "None", "True", "and", "as", "assert", "async", "await", "break", "class", "continue",
   "def", "del", "elif", "else", "except", "finally", "for", "from", "global", "if", "import", "in",
   "is", "lambda", "nonlocal", "not", "or", "pass", "raise", "return", "try", "while", "with",
   "yield"]

def isKeyword (spelling : String) : Bool := keywords.contains spelling

end ImportOrder.Code
