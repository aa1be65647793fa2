import CodeGrade.Json.Basic
import CodeGrade.Score.Verdict
import CodeGrade.Source.Metrics

/-!
# Reports

What an analysis finds out about a source unit.

## Main definitions

* `Report`: the issues, scores, metrics and verdict of a source unit.
* `Report.toJson`: the report as JSON.
-/

namespace CodeGrade

/-- What an analysis finds out about a source unit. -/
structure Report where
  source : String
  overall : Float
  categories : List (CategoryScore Float)
  issues : List Issue
  counts : Counts
  metrics : Metrics
  verdict : Verdict

/-- Whether the source passes a gate. -/
def Report.passes (report : Report) (minScore : Float) : Bool :=
  passesGate report.overall report.counts minScore

/-! ### Reports as JSON -/

/-- The value of an integer. -/
def Json.ofInt (n : Int) : Json := .number (Float.ofInt n)

/-- A member that is written only if there is a value. -/
def optionalMember (name : String) (value : Option String) : List (String × Json) :=
  match value with
  | some value => [(name, .string value)]
  | none => []

/-- A match as JSON. -/
def Match.toJson (m : Match) : Json :=
  .object ([("line", .number m.line.toFloat), ("message", .string m.message)] ++
    optionalMember "evidence" m.evidence ++ optionalMember "suggestion" m.suggestion)

/-- An issue as JSON. -/
def Issue.toJson (issue : Issue) : Json :=
  .object ([("ruleId", .string issue.ruleId), ("title", .string issue.title),
    ("category", .string issue.category.id), ("severity", .string issue.severity.name),
    ("line", .number issue.line.toFloat), ("message", .string issue.message)] ++
    optionalMember "evidence" issue.evidence ++ optionalMember "suggestion" issue.suggestion)

/-- The score of a category as JSON. -/
def CategoryScore.toJson (s : CategoryScore Float) : Json :=
  .object [("category", .string s.category.id), ("name", .string s.name),
    ("weight", .number s.weight), ("score", .number s.score), ("issueCount", .ofInt s.issueCount)]

/-- Counts as JSON. -/
def Counts.toJson (counts : Counts) : Json :=
  .object (Severity.all.map fun s => (s.name, .ofInt (counts.get s)))

/-- Metrics as JSON. -/
def Metrics.toJson (m : Metrics) : Json :=
  .object [("totalLines", .ofNat m.totalLines), ("blankLines", .ofNat m.blankLines),
    ("commentLines", .ofNat m.commentLines), ("functionCount", .ofNat m.functionCount),
    ("classCount", .ofNat m.classCount),
    ("averageFunctionLength", .number m.averageFunctionLength),
    ("maxFunctionLength", .ofNat m.maxFunctionLength)]

/-- A verdict as JSON. -/
def Verdict.toJson (v : Verdict) : Json :=
  .object [("level", .string v.level.name), ("label", .string v.label),
    ("productionReady", .bool v.productionReady), ("criticalCount", .ofInt v.criticalCount),
    ("highCount", .ofInt v.highCount)]

/-- A report as JSON. -/
def Report.toJson (r : Report) : Json :=
  .object [("source", .string r.source), ("overall", .number r.overall),
    ("categories", .array (r.categories.map CategoryScore.toJson)),
    ("issues", .array (r.issues.map Issue.toJson)), ("counts", r.counts.toJson),
    ("metrics", r.metrics.toJson), ("verdict", r.verdict.toJson)]

end CodeGrade
