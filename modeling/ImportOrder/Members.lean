import ImportOrder.Statement

/-!
The order of the names bound by one statement. Names compare by code point.
-/

namespace ImportOrder.Statement

/-- The named bindings by name, equal names in their order in the statement. -/
def sortedNamed (s : Statement) : List Binding := s.named.mergeSort fun a b => a.name ≤ b.name

/-- The first named binding that sorting puts elsewhere. -/
def firstMisplaced (s : Statement) : Option Binding :=
  (s.named.zip s.sortedNamed).findSome? fun (actual, expected) =>
    if actual.name == expected.name then none else some actual

end ImportOrder.Statement
