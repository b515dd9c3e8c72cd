import ImportOrder.Check
import ImportOrder.Code.Module
import ImportOrder.LineIndex

/-!
The import statements of a document.

Positions are counted as if every statement of the module began at the start of a line: blanks and
line continuations in its margin do not count, and neither does a byte order mark.
-/

namespace ImportOrder.Code

/-- A position in a statement, counted from the statement's first token `first`. -/
def relocate (first : Token) (p : Position) : Position :=
  ⟨p.line - first.joined,
   if p.line == first.start.line then p.column - first.start.column else p.column⟩

/-- A text without the blanks and commas at its end. -/
def trimmed (t : Text) : Text :=
  ((t.trimEnd Text.isBlank).trimEnd (· == ',')).trimEnd Text.isBlank

def Alias.binding (index : LineIndex) (first : Token) (a : Alias) : Binding :=
  let start := index.offset (relocate first a.first.start)
  let stop := index.offset (relocate first a.last.stop)
  let text := trimmed (index.text.cut start stop)
  { name := a.bound, text, span := ⟨start, start + text.length⟩ }

/-- An import as a statement: it reaches to the end of the line on which its last token ends. -/
def Import.statement (index : LineIndex) (i : Import) : Statement :=
  let start := relocate i.first i.first.start
  let line := (relocate i.first i.last.stop).line
  let lo := index.offset start
  let hi := index.lineEnd line
  { source := i.source
    text := index.text.cut lo hi
    bindings := i.aliases.map (·.binding index i.first)
    start
    stop := ⟨line, hi - index.lineStart line⟩
    span := ⟨lo, hi⟩ }

/-- The import statements of a document and its first line break. -/
def collect : Collector := fun source =>
  (imports? source).map fun found =>
    { statements := found.map (·.statement (.ofText source))
      newline := (Text.firstBreak source).getD ['\n'] }

end ImportOrder.Code
