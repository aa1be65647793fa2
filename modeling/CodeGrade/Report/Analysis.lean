import CodeGrade.Evaluation
import CodeGrade.Report.Basic

/-!
# Analysing a source unit

A source unit that can be taken apart is judged by the rules. For one that cannot, the report holds
a single critical issue.

## Main definitions

* `Report.ofIssues`: the report of issues.
* `degradedReport`: the report of a unit that cannot be taken apart.
* `analyze`: the report of a unit.
* `tryAnalyze`: the same, unless the failure of a rule cannot be described.
* `analysisLog`: what the log says about it.
-/

namespace CodeGrade

/-- The report of issues and metrics. -/
def Report.ofIssues (source : String) (issues : List Issue) (metrics : Metrics)
    (policy : Policy Float) : Report :=
  let categories := scoreCategories policy issues
  let overall := overallScore categories
  let counts := Counts.ofIssues issues
  { source
    overall
    categories
    issues
    counts
    metrics
    verdict := Verdict.classify overall counts.critical counts.high }

/-- The issue of a unit that cannot be taken apart. A line beyond the unit's last one is replaced by
the whole file. -/
def unparsableIssue (lineCount : Nat) (line : LineNumber) (reason : String) : Issue where
  ruleId := unparsableId
  title := "Unparsable Source"
  category := .structural
  severity := .critical
  line := if line.le (LineNumber.ofNat lineCount) then line else LineNumber.ofNat 0
  message := s!"Source could not be parsed: {reason}"
  suggestion := some "Fix the syntax error so the file can be analyzed"

/-- The report of a unit that cannot be taken apart, or not even be read: one critical issue, and
the metrics that need only the lines. -/
def degradedReport (unit : SourceUnit) (catalog : Catalog) (line : LineNumber) (reason : String) :
    Report :=
  .ofIssues unit.name [unparsableIssue unit.lines.length line reason] (.ofLines unit.lines)
    catalog.policy

/-- The report of a source unit. -/
def analyze (unit : SourceUnit) (catalog : Catalog) : Report :=
  match Outline.ofUnit unit with
  | .ok outline =>
    .ofIssues unit.name (evaluate catalog ⟨unit, outline, catalog.thresholds⟩) outline.metrics
      catalog.policy
  | .error fault => degradedReport unit catalog fault.line fault.reason

/-- The report of a source unit, unless the failure of a rule cannot be described. -/
def tryAnalyze (unit : SourceUnit) (catalog : Catalog) : Except String Report :=
  match Outline.ofUnit unit with
  | .ok outline => do
    let issues ← tryEvaluate catalog ⟨unit, outline, catalog.thresholds⟩
    .ok (.ofIssues unit.name issues outline.metrics catalog.policy)
  | .error fault => .ok (degradedReport unit catalog fault.line fault.reason)

/-- The reports of source units, in order. -/
def analyzeAll (units : List SourceUnit) (catalog : Catalog) : List Report :=
  units.map (analyze · catalog)

/-- What the log says about the analysis of a source unit. -/
def analysisLog (unit : SourceUnit) (catalog : Catalog) : List LogEntry :=
  match Outline.ofUnit unit with
  | .ok outline =>
    let context : Context := ⟨unit, outline, catalog.thresholds⟩
    evaluationLog catalog context ++
      [{ level := .debug
         message := "Analyzed " ++ unit.name
         data := some (.object
           [("issues", .ofNat (evaluate catalog context).length),
            ("lines", .ofNat outline.metrics.totalLines)]) }]
  | .error fault =>
    [{ level := .debug
       message := "Structural extraction failed for " ++ unit.name
       data := some (.object [("line", .ofNat fault.line), ("reason", .string fault.reason)]) }]

end CodeGrade
