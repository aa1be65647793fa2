import CodeGrade.Report.Bar
import CodeGrade.Report.Basic

/-!
# Reports in Markdown

One document for all reports: a summary table, and a section for each report with the scores of its
categories and its issues.

## Main definitions

* `markdownLines`: the lines of the document.
* `markdown`: the document.
-/

namespace CodeGrade

/-- A text with its column separators escaped. -/
def escapeCell (text : String) : String :=
  String.ofList (text.toList.flatMap fun c => if c = '|' then ['\\', '|'] else [c])

/-- A row of the summary table. -/
def Report.summaryRow (r : Report) : String :=
  let counts := r.counts
  "| `" ++ r.source ++ "` | " ++ Decimal.fixed 1 r.overall ++ "/10 | " ++ r.verdict.label ++
    s!" | {counts.critical} | {counts.high} | {counts.medium} | {counts.low} |"

/-- A row of the table of categories. -/
def CategoryScore.row (s : CategoryScore Float) : Except BarFault String := do
  let bar ← scoreBar s.score 10.0
  .ok ("| " ++ s.name ++ " | " ++ Decimal.fixed 0 (s.weight * 100.0) ++ "% | " ++
    Decimal.fixed 1 s.score ++ "/10 | " ++ bar ++ " |")

/-- A row of the table of issues. -/
def Issue.row (issue : Issue) : String :=
  let line := if issue.line.isPositive then issue.line.text else "-"
  "| " ++ issue.severity.name ++ " | " ++ line ++ " | " ++ issue.ruleId ++ " | " ++
    escapeCell issue.message ++ " |"

/-- The table of issues; nothing if there are none. -/
def issueTable (issues : List Issue) : List String :=
  if issues.isEmpty then []
  else
    ["| Severity | Line | Rule | Message |", "|----------|------|------|---------|"] ++
      issues.map Issue.row ++ [""]

/-- The section of a report. -/
def Report.section (r : Report) : Except BarFault (List String) := do
  let metrics := r.metrics
  let rows ← r.categories.mapM CategoryScore.row
  .ok (["## " ++ r.source ++ " — " ++ Decimal.fixed 1 r.overall ++ "/10", "",
    "**" ++ r.verdict.label ++ "**", "", s!"- Lines: {metrics.totalLines}",
    s!"- Functions: {metrics.functionCount} (avg " ++
      Decimal.fixed 1 metrics.averageFunctionLength ++ " lines)",
    s!"- Classes: {metrics.classCount}", "",
    "| Category | Weight | Score | Bar |", "|----------|--------|-------|-----|"] ++ rows ++
    [""] ++ issueTable r.issues)

/-- The lines of the document. -/
def markdownLines (reports : List Report) : Except BarFault (List String) := do
  let sections ← reports.mapM Report.section
  let count := reports.length
  .ok (["# Code Quality Report", "", s!"Files analyzed: {count}", "",
    "| File | Score | Verdict | Critical | High | Medium | Low |",
    "|------|-------|---------|----------|------|--------|-----|"] ++
    reports.map Report.summaryRow ++ [""] ++ sections.flatten)

/-- The document of reports. -/
def markdown (reports : List Report) : Except BarFault String := do
  let lines ← markdownLines reports
  .ok ("\n".intercalate lines)

end CodeGrade
