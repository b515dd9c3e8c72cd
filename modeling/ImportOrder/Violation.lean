import ImportOrder.Edit
import ImportOrder.Members
import ImportOrder.Settings
import ImportOrder.Template

/-!
Violations of a policy, how they are reported, and the edits that would mend them.
-/

namespace ImportOrder

inductive Kind where
  | wrongOrder
  | missingBlankLine
  | wrongMemberOrder
deriving DecidableEq, Repr

namespace Kind

def name : Kind → String
  | .wrongOrder => "wrong-statement-order"
  | .missingBlankLine => "missing-blank-line"
  | .wrongMemberOrder => "wrong-member-order"

def ofName? (s : String) : Option Kind :=
  [wrongOrder, missingBlankLine, wrongMemberOrder].find? (·.name == s)

def template : Kind → String
  | .wrongOrder => Settings.wrongOrder
  | .missingBlankLine => Settings.missingBlankLine
  | .wrongMemberOrder => Settings.wrongMemberOrder

def hintTemplate : Kind → String
  | .wrongOrder => Settings.fixWrongOrder
  | .missingBlankLine => Settings.fixMissingBlankLine
  | .wrongMemberOrder => Settings.fixWrongMemberOrder

end Kind

namespace Edit

/-- Copies a statement in front of `place` and removes it with its line break. -/
def planMove (s : Statement) (place : Nat) (newline : Text) : List Edit :=
  [⟨⟨place, place⟩, s.text ++ newline⟩, ⟨⟨s.span.start, s.span.stop + newline.length⟩, []⟩]

def planBlankLine (s : Statement) (newline : Text) : List Edit :=
  [⟨⟨s.span.start, s.span.start⟩, newline⟩]

/-- The part of a statement between two offsets of the document. -/
def within (s : Statement) (span : Span) : Text :=
  s.text.slice (Int.ofNat span.start - s.span.start) (Int.ofNat span.stop - s.span.start)

/-- Writes the named bindings anew, sorted, unless a comment stands between them. -/
def planMembers (s : Statement) : List Edit :=
  match s.named.head?, s.named.getLast? with
  | some first, some last =>
      let span : Span := ⟨first.span.start, last.span.stop⟩
      if (within s span).contains '#' then []
      else [⟨span, [',', ' '].intercalate (s.sortedNamed.map (·.text))⟩]
  | _, _ => []

end Edit

/-- The edits that mend a violation of this kind. A move needs a statement to move above. -/
def Kind.plan (kind : Kind) (s : Statement) (reference : Option Statement) (newline : Text) :
    List Edit :=
  match kind, reference with
  | .wrongOrder, some r => Edit.planMove s r.span.start newline
  | .wrongOrder, none => []
  | .missingBlankLine, _ => Edit.planBlankLine s newline
  | .wrongMemberOrder, _ => Edit.planMembers s

/-- What is wrong: a statement belongs above an earlier one, a group starts without a blank line,
or a name stands out of order. -/
inductive Fault where
  | wrongOrder (place : Nat) (reference : Statement)
  | missingBlankLine
  | wrongMemberOrder (binding : Binding)
deriving DecidableEq, Repr

structure Violation where
  /-- Which statement of the sequence. -/
  index : Nat
  statement : Statement
  fault : Fault
  edits : List Edit := []
deriving DecidableEq, Repr

namespace Violation

def kind (v : Violation) : Kind :=
  match v.fault with
  | .wrongOrder .. => .wrongOrder
  | .missingBlankLine => .missingBlankLine
  | .wrongMemberOrder _ => .wrongMemberOrder

def reference (v : Violation) : Option Statement :=
  match v.fault with
  | .wrongOrder _ r => some r
  | _ => none

def place (v : Violation) : Option Nat :=
  match v.fault with
  | .wrongOrder j _ => some j
  | _ => none

def binding (v : Violation) : Option Binding :=
  match v.fault with
  | .wrongMemberOrder b => some b
  | _ => none

/-- The values of the message's placeholders. -/
def data (v : Violation) : List (String × String) :=
  match v.fault with
  | .wrongOrder _ r => [("current", v.statement.source), ("previous", r.source)]
  | .missingBlankLine => [("source", v.statement.source)]
  | .wrongMemberOrder b => [("specifier", b.name), ("source", v.statement.source)]

def message (v : Violation) : String := Template.fill v.kind.template v.data

def hint (v : Violation) : String := Template.fill v.kind.hintTemplate v.data

/-- Where the violation is reported: at the name that is out of order, else at the statement. -/
def position (v : Violation) : Position :=
  match v.binding with
  | some b => v.statement.positionOf b.span.start
  | none => v.statement.start

def plan (newline : Text) (v : Violation) : List Edit :=
  v.kind.plan v.statement v.reference newline

def withPlan (newline : Text) (v : Violation) : Violation := { v with edits := v.plan newline }

def isFixable (v : Violation) : Bool := !v.edits.isEmpty

end Violation
end ImportOrder
