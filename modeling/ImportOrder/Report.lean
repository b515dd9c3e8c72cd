import ImportOrder.Check
import ImportOrder.Json

/-!
Reports of results: lines for a terminal, JSON, and the table of placements.
-/

namespace ImportOrder

namespace Violation

def toJson (v : Violation) : Json :=
  .obj [
    ("kind", .str v.kind.name),
    ("line", .int v.position.line),
    ("column", .int v.position.column),
    ("source", .str v.statement.source),
    ("message", .str v.message),
    ("fix", .str v.hint),
    ("fixable", .bool v.isFixable)]

/-- The violation with its place, the first line of the statement, and how to mend it. -/
def toLines (file : String) (v : Violation) : String :=
  let place := Template.format Settings.fileLine
    [("filepath", file), ("line", toString v.position.line),
      ("column", toString v.position.column)]
  "\n".intercalate
    (["  " ++ place, "    " ++ String.ofList v.statement.text.firstLine, "  " ++ v.message] ++
      if v.isFixable then ["  " ++ Settings.fixPrefix ++ v.hint] else [])

end Violation

namespace Report

def violationCount (results : List Result) : Nat := (results.flatMap (·.violations)).length

def fixableCount (results : List Result) : Nat :=
  ((results.flatMap (·.violations)).filter (·.isFixable)).length

def bar : String := String.ofList (List.replicate Settings.barWidth Settings.barChar)

def summary (results : List Result) : String :=
  let total := violationCount results
  let files := "  " ++ Settings.labelFiles ++ " " ++ toString results.length
  let count :=
    if total == 0 then "  " ++ Settings.labelClean
    else
      "  " ++ Settings.labelViolations ++ " " ++ toString total ++ " (" ++
        toString (fixableCount results) ++ " " ++ Settings.labelFixable ++ ")"
  "\n".intercalate [bar, files, count, bar]

def fileJson (r : Result) : Json :=
  .obj [
    ("file", .str r.file),
    ("status", .str r.status),
    ("violations", .arr (r.violations.map (·.toJson)))]

def toJson (results : List Result) : Json :=
  let total := violationCount results
  .obj [
    ("status", .str (if total == 0 then Settings.passed else Settings.failed)),
    ("files", .arr (results.map fileJson)),
    ("summary", .obj [
      ("files", .int results.length),
      ("violations", .int total),
      ("fixable", .int (fixableCount results))])]

def violationLines (results : List Result) : List String :=
  results.flatMap fun r => r.violations.map (·.toLines r.file)

/-- The line, module and token of a row in their columns. -/
def columns (line source token : String) : List (String × String) :=
  [("line:>5", padStart 5 line), ("source:<40", padEnd 40 source), ("token:<24", padEnd 24 token)]

def tableRow (policy : Policy) (s : Statement) (p : Placement) : String :=
  Template.format Settings.classificationRow
    (columns (toString s.start.line) s.source (policy.tokenAt p.group) ++
      [("group_index", toString p.group),
        ("sub_index", (p.sub.map toString).getD "-")])

/-- A row for each statement with its place in the policy. -/
def table (policy : Policy) (statements : List Statement) : String :=
  "\n".intercalate
    (Template.format Settings.classificationHeader (columns "line" "source" "token") ::
      statements.map fun s => tableRow policy s (policy.place s.source))

end Report
end ImportOrder
