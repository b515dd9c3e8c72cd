import ImportOrder.Statement

/-!
Edits of a text and their application in one pass. The edits that fix one thing are merged into a
single one over all of them; merged edits are then taken in document order, and one that starts
inside or directly behind the last one taken is left for another pass.
-/

namespace ImportOrder

/-- Puts a text in the place of a span of the document. -/
structure Edit where
  span : Span
  text : Text
deriving DecidableEq, Repr

namespace Edit

def le (a b : Edit) : Bool := a.span.le b.span

def sort (edits : List Edit) : List Edit := edits.mergeSort le

/-- The texts of edits in order, with what stands between them from `cursor` on. -/
def stitch (text : Text) : Nat → List Edit → Text
  | _, [] => []
  | cursor, e :: rest =>
      text.cut cursor e.span.start ++ e.text ++ stitch text (max cursor e.span.stop) rest

/-- The end of the edit that reaches furthest. -/
def reach (edits : List Edit) : Nat := edits.foldl (fun n e => max n e.span.stop) 0

/-- One edit that does what all the edits do. -/
def merge (text : Text) (edits : List Edit) : Option Edit :=
  match sort edits with
  | [] => none
  | first :: rest =>
      some {
        span := ⟨first.span.start, min (reach (first :: rest)) text.length⟩
        text := stitch text first.span.start (first :: rest) }

/-- Does an edit start at or before the end of the last one taken? -/
def blocked (last : Option Nat) (e : Edit) : Bool := last.any (e.span.start ≤ ·)

/-- The edits taken, each one behind the end of the one before it. -/
def select : Option Nat → List Edit → List Edit
  | _, [] => []
  | last, e :: rest =>
      if blocked last e then select last rest else e :: select (some e.span.stop) rest

/-- The text from `cursor` on with edits carried out. -/
def splice (text : Text) : Nat → List Edit → Text
  | cursor, [] => text.drop cursor
  | cursor, e :: rest => text.cut cursor e.span.start ++ e.text ++ splice text e.span.stop rest

end Edit

/-- What one pass over a text did. -/
structure Outcome where
  text : Text
  applied : Nat
  skipped : Nat
deriving DecidableEq, Repr

/-- Applies fixes, each given by its edits, as far as they do not get in each other's way. -/
def applyFixes (text : Text) (fixes : List (List Edit)) : Outcome :=
  let merged := Edit.sort (fixes.filterMap (Edit.merge text))
  let taken := Edit.select none merged
  { text := Edit.splice text 0 taken
    applied := taken.length
    skipped := merged.length - taken.length }

end ImportOrder
