import ImportOrder.Order
import ImportOrder.Value

/-!
Checking a sequence of statements against a policy, and fixing a text pass by pass.

How statements are found in a text is a parameter here: any function from texts to collections.
-/

namespace ImportOrder

/-- The statements of a document and the line break it uses. -/
structure Collection where
  statements : List Statement
  newline : Text := ['\n']
deriving DecidableEq, Repr

/-- A placement that cannot be right. -/
inductive Inconsistency where
  | wrongCount (actual expected : Nat)
  | outside (index : Nat) (claimed : Value) (limit : Nat)

def Inconsistency.message : Inconsistency → String
  | .wrongCount actual expected =>
      Template.format Settings.invariantCount
        [("actual", toString actual), ("expected", toString expected)]
  | .outside index claimed limit =>
      Template.format Settings.invariantGroupIndex
        [("index", toString index), ("group_index", claimed.toText), ("limit", toString limit)]

/-- A slot as a number from 0 to `limit`; truth values count as numbers. -/
def slot? (limit : Nat) : Value → Option Nat
  | .bool b => if b.toNat ≤ limit then some b.toNat else none
  | .int n => if 0 ≤ n && n ≤ limit then some n.toNat else none
  | _ => none

/-- The first claim of a group outside the slots of a policy, or all claims as placements. -/
def verifyGroups (limit : Nat) : Nat → List (Value × Option Int) →
    Except Inconsistency (List Placement)
  | _, [] => .ok []
  | index, (group, sub) :: rest =>
      match slot? limit group with
      | some slot => (verifyGroups limit (index + 1) rest).map (⟨slot, sub⟩ :: ·)
      | none => .error (.outside index group limit)

/-- Are claimed placements as many as the statements, each in a slot of the policy? -/
def verify (policy : Policy) (statements : List Statement) (claims : List (Value × Option Int)) :
    Except Inconsistency (List Placed) :=
  if claims.length == statements.length then
    (verifyGroups policy.order.length 0 claims).map fun placements =>
      (statements.zip placements).map fun (s, p) => ⟨s, p⟩
  else .error (.wrongCount claims.length statements.length)

/-- The violations of a sequence of statements by position, each with the edits that mend it. -/
def checkStatements (policy : Policy) (newline : Text) (statements : List Statement) :
    Except Inconsistency (List Violation) :=
  if statements.isEmpty then .ok []
  else
    let claims := (policy.placeAll statements).map fun p => (Value.int p.group, p.sub)
    (verify policy statements claims).map fun items =>
      (Placed.checkOrder policy items).map (·.withPlan newline)

/-- The violations one pass may mend. While a statement is out of order the starts of groups are
not final, so blank lines wait. -/
def passFixes (violations : List Violation) : List Violation :=
  if violations.any (·.kind == .wrongOrder) then violations.filter (·.kind != .missingBlankLine)
  else violations

/-- Why a text could not be checked. -/
inductive CheckError where
  | unparsed
  | inconsistent (why : Inconsistency)

def CheckError.message (file : String) : CheckError → String
  | .unparsed =>
      Template.format Settings.parseError [("filepath", file), ("error", Settings.syntaxError)]
  | .inconsistent why => why.message

/-- How statements are found in a text; `none` if it cannot be parsed. -/
abbrev Collector := Text → Option Collection

/-- The statements of a text with the violations among them. -/
def survey (collect : Collector) (policy : Policy) (text : Text) :
    Except CheckError (Collection × List Violation) :=
  match collect text with
  | none => .error .unparsed
  | some found =>
      match checkStatements policy found.newline found.statements with
      | .ok violations => .ok (found, violations)
      | .error why => .error (.inconsistent why)

/-- One pass of fixing: how many fixes were offered and what came of them. -/
structure Pass where
  offered : Nat
  outcome : Outcome
deriving DecidableEq, Repr

/-- A pass over a text, unless it has no violations. -/
def onePass (collect : Collector) (policy : Policy) (text : Text) :
    Except CheckError (Option Pass) :=
  (survey collect policy text).map fun (_, violations) =>
    if violations.isEmpty then none
    else
      let offered := passFixes violations
      some ⟨offered.length, applyFixes text (offered.map (·.edits))⟩

/-- Passes until one has nothing to do or does nothing, at most `limit` of them, and the text they
end with. -/
def passes (collect : Collector) (policy : Policy) : Nat → Text →
    List Pass × Except CheckError Text
  | 0, text => ([], .ok text)
  | limit + 1, text =>
      match onePass collect policy text with
      | .error e => ([], .error e)
      | .ok none => ([], .ok text)
      | .ok (some pass) =>
          if pass.outcome.applied == 0 then ([pass], .ok text)
          else
            let (rest, ending) := passes collect policy limit pass.outcome.text
            (pass :: rest, ending)

/-- How many fixes some passes applied in all. -/
def appliedIn : List Pass → Nat
  | [] => 0
  | pass :: rest => pass.outcome.applied + appliedIn rest

/-- What checking, and perhaps fixing, one file came to. -/
structure Result where
  file : String
  violations : List Violation
  statementCount : Nat
  fixed : Option Text := none
  fixesApplied : Nat := 0

namespace Result

def passed (r : Result) : Bool := r.violations.isEmpty

def status (r : Result) : String := if r.passed then Settings.passed else Settings.failed

end Result

def check (collect : Collector) (policy : Policy) (file : String) (text : Text) :
    Except CheckError Result :=
  (survey collect policy text).map fun (found, violations) =>
    { file, violations, statementCount := found.statements.length }

/-- Fixes a text and checks what it became. -/
def fix (collect : Collector) (policy : Policy) (file : String) (text : Text) :
    List Pass × Except CheckError Result :=
  let (done, ending) := passes collect policy Settings.maxFixPasses text
  (done, ending.bind fun final =>
    (check collect policy file final).map fun r =>
      { r with fixed := some final, fixesApplied := appliedIn done })

end ImportOrder
