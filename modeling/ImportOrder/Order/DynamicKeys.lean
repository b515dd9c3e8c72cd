import ImportOrder.Value

/-!
The backward scan over keys of any kind, for keys that are only known when the program runs. A
comparison of keys without an order between them ends the scan.
-/

namespace ImportOrder

inductive KeyError where
  | outOfRange
  | incomparable (why : Value.Incomparable)

namespace Value

/-- Whether a candidate is above the current key and below the best one so far. -/
def improves (current key : Value) (best : Option (Value × Nat)) : Except Incomparable Bool := do
  unless ← less current key do return false
  match best with
  | none => return true
  | some b => less key b.1

def scanAbove (current : Value) (eligible : Nat → Except KeyError Bool) :
    List (Value × Nat) → Option (Value × Nat) → Except KeyError (Option (Value × Nat))
  | [], best => return best
  | (key, j) :: rest, best => do
      let better ← if ← eligible j then (improves current key best).mapError .incomparable
        else pure false
      scanAbove current eligible rest (if better then some (key, j) else best)

/-- The earliest eligible position before `index` with the least key above its own. An index below
zero counts from the end and has nothing before it. -/
def backwardTarget (keys : List Value) (eligible : Option (List Bool)) (index : Int) :
    Except KeyError (Option Nat) := do
  let place := if index < 0 then index + keys.length else index
  let some current := if place < 0 then none else keys[place.toNat]? | throw .outOfRange
  let admits (j : Nat) : Except KeyError Bool :=
    match eligible with
    | none => .ok true
    | some flags =>
        match flags[j]? with
        | some b => .ok b
        | none => .error .outOfRange
  return (← scanAbove current admits (keys.take index.toNat).zipIdx none).map (·.2)

end Value
end ImportOrder
