import ImportOrder.Code.Collect
import ImportOrder.Yaml

/-!
The libraries that the tool stands on: a reader of YAML, a compiler of regular expressions, and a
collector of the imports in a source text. What the tool does is defined for any of them.
-/

namespace ImportOrder

structure Libraries where
  yaml : Text → Except Yaml.Error Value
  compile : Regex.Compiler
  collect : Collector

/-- The libraries of the program. -/
def Libraries.standard : Libraries := ⟨Yaml.parse, Regex.compile, Code.collect⟩

end ImportOrder
