import CodeGrade.Paint
import CodeGrade.Report.Basic

/-!
# Reports for the console

A report as text for a terminal: scores, metrics, and the first issues of each severity.

## Main definitions

* `Report.console`: the report as text.
-/

namespace CodeGrade

/-- The line between the parts of a report. -/
def divider : String := String.ofList (List.replicate 80 '=')

/-- How many issues of a severity are shown. -/
def shownPerSeverity : Nat := 5

/-- The styles of a severity. -/
def Severity.styles : Severity → List Style
  | .critical => [.red, .bold]
  | .high => [.red]
  | .medium => [.yellow]
  | .low => [.gray]

/-- The lines that show an issue. -/
def Issue.consoleLines (color : Bool) (issue : Issue) : List String :=
  let place := if issue.line.isPositive then "Line " ++ issue.line.text ++ ": " else ""
  ["    - " ++ place ++ issue.title, paint color [.gray] ("      " ++ issue.message)]

/-- The lines that show the issues of a severity; none if there are no issues. -/
def severityLines (color : Bool) (issues : List Issue) (severity : Severity) : List String :=
  let own := issues.filter (·.severity = severity)
  if own.isEmpty then []
  else
    let count := own.length
    let heading := severity.heading
    let hidden := count - shownPerSeverity
    ["", paint color severity.styles s!"  {heading} ({count}):"] ++
      (own.take shownPerSeverity).flatMap (Issue.consoleLines color) ++
      (if shownPerSeverity < count then [paint color [.gray] s!"    ... and {hidden} more"] else [])

/-- The style of the closing line. -/
def Verdict.style (v : Verdict) : Style :=
  if v.productionReady then .green else if v.level = .notReady then .red else .yellow

/-- The lines of a report. -/
def Report.consoleLines (color : Bool) (r : Report) : List String :=
  let cyan := paint color [.cyan]
  let metrics := r.metrics
  let found := r.issues.length
  ["", divider, paint color [.bold] ("CODE QUALITY REPORT - " ++ r.source), divider, "",
    "Overall Quality Score: " ++ Decimal.fixed 1 r.overall ++ "/10 " ++ stars r.overall, "",
    cyan "Category Scores:"] ++
  r.categories.map (fun s => "  - " ++ s.name ++ ": " ++ Decimal.fixed 1 s.score ++ "/10") ++
  ["", cyan "Code Metrics:", s!"  - Lines of Code: {metrics.totalLines}",
    s!"  - Functions: {metrics.functionCount}", s!"  - Classes: {metrics.classCount}"] ++
  (if 0.0 < metrics.averageFunctionLength then
    ["  - Avg Function Length: " ++ Decimal.fixed 1 metrics.averageFunctionLength ++ " lines"]
  else []) ++
  ["", cyan s!"Issues Found: {found}"] ++
  Severity.all.flatMap (severityLines color r.issues) ++
  ["", divider, paint color [r.verdict.style] r.verdict.label, divider, ""]

/-- The report as text for a terminal. -/
def Report.console (color : Bool) (r : Report) : String := "\n".intercalate (r.consoleLines color)

end CodeGrade
