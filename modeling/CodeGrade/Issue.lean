import CodeGrade.Rule.Basic

/-!
# Issues

An issue is a match together with the rule that found it. Issues are sorted by severity, then by
line, then by the order in which the rules are registered; what is equal in all three stays in the
order in which it was found.

## Main definitions

* `Issue`: an issue.
* `RankedIssue`: an issue with the place of its rule.
* `sortIssues`: issues in the order of reports.
-/

namespace CodeGrade

/-- An issue of a source unit. -/
structure Issue where
  ruleId : String
  title : String
  category : Category
  severity : Severity
  line : LineNumber
  message : String
  evidence : Option String := none
  suggestion : Option String := none
  deriving DecidableEq, Repr

/-- An issue with the place of its rule among the registered rules. -/
structure RankedIssue where
  issue : Issue
  order : Int
  deriving DecidableEq, Repr

/-- Whether an issue comes no later than another in a report. -/
def RankedIssue.le (a b : RankedIssue) : Bool :=
  if a.issue.severity.rank < b.issue.severity.rank then true
  else if b.issue.severity.rank < a.issue.severity.rank then false
  else if a.issue.line.lt b.issue.line then true
  else if b.issue.line.lt a.issue.line then false
  else a.order ≤ b.order

/-- The issues in the order of reports. -/
def sortIssues (ranked : List RankedIssue) : List Issue :=
  (ranked.mergeSort RankedIssue.le).map (·.issue)

end CodeGrade
