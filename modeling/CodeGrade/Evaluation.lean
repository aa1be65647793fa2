import CodeGrade.Catalog
import CodeGrade.Issue
import CodeGrade.Log

/-!
# Evaluating the rules

Every rule in force is run on a source unit. A rule that fails is skipped; one issue of low
severity stands for it. That issue describes the failure, so a failure that cannot be described
ends the evaluation.

## Main definitions

* `CatalogEntry.outcome`: the matches of a rule, or why there are none.
* `evaluate`: the issues of a source unit.
* `tryEvaluate`: the same, unless a failure cannot be described.
* `evaluationLog`: what the log says about it.
-/

namespace CodeGrade

/-- The first match that is neither on a line of the unit nor on the whole file. -/
def outOfRange? (matched : List Match) (lineCount : Nat) : Option LineNumber :=
  (matched.find? fun m => !m.line.within lineCount).map (·.line)

/-- The matches of a rule, all within the unit; or why there are none. -/
def CatalogEntry.outcome (entry : CatalogEntry) (c : Context) : Except RuleFault (List Match) := do
  let matched ← entry.rule.check c
  match outOfRange? matched c.unit.lines.length with
  | some line => .error (.outOfRange line c.unit.lines.length)
  | none => .ok matched

/-- The issue of a match. -/
def CatalogEntry.issue (entry : CatalogEntry) (m : Match) : Issue where
  ruleId := entry.rule.id
  title := entry.rule.title
  category := entry.rule.category
  severity := entry.severity
  line := m.line
  message := m.message
  evidence := m.evidence
  suggestion := m.suggestion

/-- The issue that stands for a rule that failed. -/
def CatalogEntry.failureIssue (entry : CatalogEntry) (fault : RuleFault) : Issue where
  ruleId := entry.rule.id
  title := "Rule Internal Error"
  category := entry.rule.category
  severity := .low
  line := LineNumber.ofNat 0
  message := "Rule '" ++ entry.rule.id ++ "' failed and was skipped: " ++ fault.message

/-- The issues of a rule. -/
def CatalogEntry.issues (entry : CatalogEntry) (c : Context) : List Issue :=
  match entry.outcome c with
  | .ok matched => matched.map entry.issue
  | .error fault => [entry.failureIssue fault]

/-- The issues of a rule with the place of the rule. -/
def CatalogEntry.ranked (entry : CatalogEntry) (c : Context) : List RankedIssue :=
  (entry.issues c).map fun issue => ⟨issue, entry.order⟩

/-- The issues of a source unit in the order of reports. -/
def evaluate (catalog : Catalog) (c : Context) : List Issue :=
  sortIssues (catalog.entries.flatMap (·.ranked c))

/-- Why the failure of a rule cannot be described, if that is so. -/
def CatalogEntry.breakdown? (entry : CatalogEntry) (c : Context) : Option String :=
  match entry.rule.check c with
  | .error (.indescribable reason) => some reason
  | _ => none

/-- The issues of a source unit in the order of reports. The first failure that cannot be described
leaves none. -/
def tryEvaluate (catalog : Catalog) (c : Context) : Except String (List Issue) :=
  match catalog.entries.findSome? (·.breakdown? c) with
  | some reason => .error reason
  | none => .ok (evaluate catalog c)

/-- What the log says about the rules that failed. -/
def evaluationLog (catalog : Catalog) (c : Context) : List LogEntry :=
  catalog.entries.filterMap fun entry =>
    match entry.outcome c with
    | .ok _ => none
    | .error fault =>
      some {
        level := .warn
        message := "Rule '" ++ entry.rule.id ++ "' failed on " ++ c.unit.name
        data := some (.object [("error", .string fault.message)]) }

end CodeGrade
