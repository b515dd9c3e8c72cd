import ImportOrder.Yaml.Node

/-!
Values from YAML documents. A collection is there before what it holds: all scalars of one level
are made before anything of the next level, so of several errors the one nearest to the top of the
document is the error of the whole, and the first one among those of a level.
-/

namespace ImportOrder.Yaml

/-- An error, so many levels below the collection that is being filled. -/
structure Fault where
  depth : Nat
  error : Error

abbrev Outcome (α : Type) := Except Fault α

namespace Outcome

/-- Fails in the collection itself. -/
def fail {α : Type} (e : Error) : Outcome α := .error ⟨0, e⟩

def now {α : Type} (a : Except Error α) : Outcome α := a.mapError (⟨0, ·⟩)

/-- What happens one level below. -/
def below {α : Type} (a : Outcome α) : Outcome α :=
  a.mapError fun f => { f with depth := f.depth + 1 }

def both {α β : Type} : Outcome α → Outcome β → Outcome (α × β)
  | .ok a, .ok b => .ok (a, b)
  | .error f, .ok _ => .error f
  | .ok _, .error g => .error g
  | .error f, .error g => .error (if g.depth < f.depth then g else f)

def all {α : Type} : List (Outcome α) → Outcome (List α)
  | [] => .ok []
  | a :: rest => (both a (all rest)).map fun (x, xs) => x :: xs

/-- A key of a mapping. A collection is none, whatever it holds. -/
def key : Outcome Value → Outcome Value
  | .ok v => if v.isKey then .ok v else fail .malformed
  | .error f => if f.depth == 0 then .error f else fail .malformed

end Outcome

open Yaml.Outcome

/-- A key and its value. -/
abbrev Entry := Outcome Value × Outcome Value

/-- The mapping of some entries. A repeated key keeps its first place and its last value. -/
def Entry.mapping (es : List Entry) : Outcome (List (Value × Value)) :=
  (all (es.map fun (k, v) => both (key k) v)).map Value.ofEntries

/-- What a node means to the node around it. -/
structure Meaning where
  tag : String
  isMapping : Bool
  /-- Its value under a tag. -/
  valueAs : String → Outcome Value
  /-- Its value in a list of pairs. -/
  pair : Outcome Value
  /-- The text it stands for where a scalar is asked for. -/
  text : Except Error Text
  /-- The entries it brings in as the value of a merge key. -/
  brought : Except Error (List Entry)

namespace Meaning

def value (m : Meaning) : Outcome Value := m.valueAs m.tag

def ofScalar (tag : String) (t : Text) : Meaning where
  tag
  isMapping := false
  valueAs tag :=
    if Tag.isCollection tag then below (fail .malformed) else now (Scalar.value tag t)
  pair := fail .malformed
  text := .ok t
  brought := .error .malformed

/-- The mappings of a sequence are merged with the last ones first. -/
def ofSequence (tag : String) (items : List Meaning) : Meaning where
  tag
  isMapping := false
  valueAs tag :=
    if tag == Tag.seq then below ((all (items.map value)).map .list)
    else if tag == Tag.omap || tag == Tag.pairs then below ((all (items.map pair)).map .list)
    else if Tag.isCollection tag then below (fail .malformed)
    else fail .malformed
  pair := fail .malformed
  text := .error .malformed
  brought := do
    let parts ← items.mapM fun m => if m.isMapping then m.brought else .error .malformed
    return parts.reverse.flatten

/-- The entries that an entry of a mapping brings in, and those that it makes itself. -/
def entry : Meaning × Meaning → Except Error (List Entry × List Entry)
  | (k, v) =>
      if k.tag == Tag.merge then do return (← v.brought, [])
      -- The mark for the text of a mapping is itself a text as a key.
      else
        let tag := if k.tag == Tag.value then Tag.str else k.tag
        return ([], [(k.valueAs tag, v.value)])

/-- The entries of a mapping, those that are brought in first. -/
def entries (es : List (Meaning × Meaning)) : Except Error (List Entry) := do
  let parts ← es.mapM entry
  return parts.flatMap (·.1) ++ parts.flatMap (·.2)

/-- The text of a mapping where a scalar is asked for: that of the entry which is marked so. -/
def markedText (es : List (Meaning × Meaning)) : Except Error Text :=
  match es.find? fun (k, _) => k.tag == Tag.value with
  | some (_, v) => v.text
  | none => .error .malformed

def ofMapping (tag : String) (es : List (Meaning × Meaning)) : Meaning where
  tag
  isMapping := true
  valueAs tag :=
    let filled := now (entries es) >>= Entry.mapping
    if tag == Tag.map then below (filled.map .map)
    else if tag == Tag.set then below (filled.map fun es => .set (es.map (·.1)))
    else if Tag.isCollection tag then below (fail .malformed)
    else
      now do
        let t ← markedText es
        if tag == Tag.timestamp then throw .noTimestamp
        Scalar.value tag t
  pair :=
    match es with
    | [(k, v)] => (both k.value v.value).map fun (k, v) => .pair k v
    | _ => fail .malformed
  text := markedText es
  brought := entries es

end Meaning

mutual

def Node.meaning : Node → Meaning
  | .scalar tag t => .ofScalar tag t
  | .sequence tag items => .ofSequence tag (meanings items)
  | .mapping tag entries => .ofMapping tag (entryMeanings entries)

def meanings : List Node → List Meaning
  | [] => []
  | n :: rest => n.meaning :: meanings rest

def entryMeanings : List (Node × Node) → List (Meaning × Meaning)
  | [] => []
  | e :: rest => entryMeaning e :: entryMeanings rest

def entryMeaning : Node × Node → Meaning × Meaning
  | (k, v) => (k.meaning, v.meaning)

end

def Node.toValue (n : Node) : Except Error Value := n.meaning.value.mapError (·.error)

/-- The value of the only document in a text. A text without a document is null. -/
def parse (text : Text) : Except Error Value := do
  match ← Node.ofTokens (← tokens text) with
  | some n => n.toValue
  | none => return .null

end ImportOrder.Yaml
