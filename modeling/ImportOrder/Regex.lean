import ImportOrder.Regex.Parser
import ImportOrder.Regex.Search

/-!
Compilers of regular expressions: a compiled pattern tells in which texts it is found.
-/

namespace ImportOrder.Regex

abbrev Compiler := List Char → Except Failure (List Char → Bool)

/-- The compiler of the program. -/
def compile : Compiler := fun pattern => (Expr.parse pattern).map (·.foundIn)

end ImportOrder.Regex
