import ImportOrder.Text

/-!
Import statements of a document: where they stand, what they import from, and the names they bind.
-/

namespace ImportOrder

/-- A line, counted from 1, and a column, counted from 0. -/
structure Position where
  line : Nat
  column : Nat
deriving DecidableEq, Repr

/-- Offsets into a document; the second is not part of the span. -/
structure Span where
  start : Nat
  stop : Nat
deriving DecidableEq, Repr

/-- Order by the start, then by the end. -/
def Span.le (a b : Span) : Bool := a.start < b.start || (a.start == b.start && a.stop ≤ b.stop)

def Position.le (a b : Position) : Bool := a.line < b.line || (a.line == b.line && a.column ≤ b.column)

/-- A name bound by a statement, with the text that binds it. -/
structure Binding where
  name : String
  text : Text
  span : Span
  /-- A leading binding that member sorting leaves alone. -/
  isDefault : Bool := false
deriving DecidableEq, Repr

structure Statement where
  /-- The module imported from. -/
  source : String
  text : Text
  bindings : List Binding
  start : Position
  stop : Position
  span : Span
deriving DecidableEq, Repr

namespace Statement

def defaultBinding (s : Statement) : Option Binding := s.bindings.head?.filter (·.isDefault)

/-- The bindings that take part in member sorting. -/
def named (s : Statement) : List Binding :=
  match s.bindings with
  | [] => []
  | b :: rest => if b.isDefault then rest else b :: rest

/-- The name by which statements are sorted. -/
def firstName (s : Statement) : Option String := s.bindings.head?.map (·.name)

/-- The position of an offset of the document, found by counting line feeds in the statement. -/
def positionOf (s : Statement) (offset : Nat) : Position :=
  let lead := s.text.take (offset - s.span.start)
  let breaks := lead.count '\n'
  if breaks == 0 then ⟨s.start.line, s.start.column + lead.length⟩
  else ⟨s.start.line + breaks, (lead.reverse.takeWhile (· != '\n')).length⟩

end Statement
end ImportOrder
