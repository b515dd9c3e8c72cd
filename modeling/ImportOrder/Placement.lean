import ImportOrder.Policy
import ImportOrder.Statement

/-!
Where a policy puts a statement: the slot of the first token that claims its module, and inside a
named group the first sub-pattern that does.
-/

namespace ImportOrder

structure Placement where
  group : Nat
  sub : Option Int
deriving DecidableEq, Repr

namespace Policy

/-- What a pattern makes of a module: nothing, a claim, or a claim by a sub-pattern. -/
def claim (p : Policy) (source : String) : Pattern → Option (Option Nat)
  | .group name =>
      (((p.groups.lookup name).getD []).findIdx? (·.accepts source)).map some
  | pattern => if pattern.accepts source then some none else none

def place (p : Policy) (source : String) : Placement :=
  let found := p.patterns.zipIdx.findSome? fun (pattern, slot) =>
    (p.claim source pattern).map fun sub => (⟨slot, sub.map Int.ofNat⟩ : Placement)
  found.getD ⟨p.everythingElse, none⟩

def placeAll (p : Policy) (statements : List Statement) : List Placement :=
  statements.map fun s => p.place s.source

end Policy
end ImportOrder
