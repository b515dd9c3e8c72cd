import ImportOrder.Placement
import ImportOrder.Violation

/-!
The order of placed statements. All order checks share one scan over the statements in front of
one: the earliest of those with the least key above its own is the one it belongs in front of.
Equal keys are never reported, so ties keep their order.
-/

namespace ImportOrder

/-- The best candidate among `keys`, starting from the best one so far. -/
def scanAbove {κ : Type} (less : κ → κ → Bool) (current : κ) :
    List (κ × Nat) → Option (κ × Nat) → Option (κ × Nat)
  | [], best => best
  | (key, j) :: rest, best =>
      if less current key && best.all (fun b => less key b.1) then
        scanAbove less current rest (some (key, j))
      else scanAbove less current rest best

/-- The earliest eligible position before `i` with the least key above that of `i`. -/
def backwardTarget {κ : Type} (less : κ → κ → Bool) (keys : List κ) (eligible : Nat → Bool)
    (i : Nat) : Option Nat :=
  match keys[i]? with
  | none => none
  | some current =>
      (scanAbove less current ((keys.take i).zipIdx.filter (eligible ·.2)) none).map (·.2)

/-- The positions met so far by key, the keys in the order in which they were met. -/
abbrev BucketTable (κ : Type) := List (κ × List Nat)

namespace BucketTable

/-- Puts a position behind those that have the same key. -/
def put {κ : Type} [BEq κ] (key : κ) (n : Nat) : BucketTable κ → BucketTable κ
  | [] => [(key, [n])]
  | entry :: rest =>
      if entry.1 == key then (entry.1, entry.2 ++ [n]) :: rest else entry :: put key n rest

/-- The table after all positions have been put in, one after the other. -/
def ofKeys {κ : Type} [BEq κ] (keys : List κ) : BucketTable κ :=
  keys.zipIdx.foldl (fun table x => put x.1 x.2 table) []

end BucketTable

/-- Positions by key, the buckets in the order of their keys. -/
def partition {κ : Type} [BEq κ] (le : κ → κ → Bool) (keys : List κ) : List (List Nat) :=
  ((BucketTable.ofKeys keys).mergeSort fun a b => le a.1 b.1).map (·.2)

structure Placed where
  statement : Statement
  placement : Placement

namespace Placed

def wrongOrder (items : List Placed) (i j : Nat) : Option Violation := do
  let item ← items[i]?
  let place ← items[j]?
  return { index := i, statement := item.statement, fault := .wrongOrder j place.statement }

/-- Order between groups. -/
def crossGroup (items : List Placed) (i : Nat) : Option Violation :=
  (backwardTarget (fun a b => decide (a < b)) (items.map (·.placement.group)) (fun _ => true) i).bind
    (wrongOrder items i)

def startsGroup (items : List Placed) (i : Nat) : Bool :=
  match items[i]? with
  | some item => !(items.take i).any (·.placement.group == item.placement.group)
  | none => false

/-- Are two statements on lines with another line between them? -/
def lineBetween (previous current : Statement) : Bool :=
  1 < previous.stop.line - current.start.line || 1 < current.start.line - previous.stop.line

/-- A group that starts right below another statement. -/
def blankLine (policy : Policy) (items : List Placed) (i : Nat) : Option Violation := do
  guard (policy.emptyLines && startsGroup items i && 0 < i)
  let item ← items[i]?
  let previous ← items[i - 1]?
  guard (!lineBetween previous.statement item.statement)
  return { index := i, statement := item.statement, fault := .missingBlankLine }

def checkGroups (policy : Policy) (items : List Placed) : List Violation :=
  (List.range items.length).flatMap fun i =>
    (crossGroup items i).toList ++ (blankLine policy items i).toList

/-- The key by which statements of one group are sorted: the first name; those without come last. -/
def nameLess : Option String → Option String → Bool
  | some a, some b => a < b
  | some _, none => true
  | none, _ => false

def pick (items : List Placed) (members : List Nat) : List Placed :=
  members.filterMap (items[·]?)

/-- A report against the member at a position of the bucket. -/
def against (items : List Placed) (members : List Nat) (pos target : Nat) : Option Violation := do
  wrongOrder items (← members[pos]?) (← members[target]?)

/-- Order by sub-pattern inside one group. -/
def checkSubOrder (policy : Policy) (items : List Placed) (members : List Nat) : List Violation :=
  if policy.ignoreInGroupSort then []
  else
    let subs := (pick items members).map (·.placement.sub)
    let keys := subs.map (·.getD 0)
    let defined (j : Nat) := (subs[j]?.join).isSome
    (List.range subs.length).filterMap fun pos =>
      if defined pos then
        (backwardTarget (fun a b => decide (a < b)) keys defined pos).bind
          (against items members pos)
      else none

/-- Order by first name inside one group. A statement placed by a sub-pattern only competes with
those placed by the same one, and one without names is never reported. -/
def checkAlphabetical (policy : Policy) (items : List Placed) (members : List Nat) :
    List Violation :=
  if policy.ignoreAlphabeticalSort then []
  else
    let group := pick items members
    let keys := group.map (·.statement.firstName)
    let subs := group.map (·.placement.sub)
    (List.range group.length).filterMap fun pos =>
      if (keys[pos]?.join).isSome then
        let sub := subs[pos]?.join
        (backwardTarget nameLess keys (fun j => sub.isNone || subs[j]?.join == sub) pos).bind
          (against items members pos)
      else none

/-- The first name out of order in one statement. -/
def checkMembers (policy : Policy) (index : Nat) (s : Statement) : Option Violation :=
  if policy.ignoreMembersSort then none
  else s.firstMisplaced.map fun b => { index, statement := s, fault := .wrongMemberOrder b }

def checkBucket (policy : Policy) (items : List Placed) (members : List Nat) : List Violation :=
  checkSubOrder policy items members ++
    members.filterMap (fun i => items[i]?.bind fun item => checkMembers policy i item.statement) ++
    checkAlphabetical policy items members

/-- Every check, the violations by position and without edits. -/
def checkOrder (policy : Policy) (items : List Placed) : List Violation :=
  let buckets := partition (fun a b => decide (a ≤ b)) (items.map (·.placement.group))
  (checkGroups policy items ++ buckets.flatMap (checkBucket policy items)).mergeSort
    fun v w => v.position.le w.position

end Placed
end ImportOrder
