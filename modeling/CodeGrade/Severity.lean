/-!
# Severities

How serious an issue is. The severities are listed from the gravest on, which is also the order in
which issues are reported.

## Main definitions

* `Severity`: the four severities.
* `Severity.all`, `Severity.rank`: their order.
-/

namespace CodeGrade

/-- How serious an issue is. -/
inductive Severity where
  | critical
  | high
  | medium
  | low
  deriving DecidableEq, Repr

namespace Severity

/-- The severities, the gravest first. -/
def all : List Severity := [critical, high, medium, low]

@[simp] theorem mem_all (severity : Severity) : severity ∈ all := by
  cases severity <;> decide

/-- The place of a severity in that order. -/
def rank : Severity → Nat
  | critical => 0
  | high => 1
  | medium => 2
  | low => 3

/-- The name of a severity. -/
def name : Severity → String
  | critical => "critical"
  | high => "high"
  | medium => "medium"
  | low => "low"

/-- The name of a severity in capitals. -/
def heading : Severity → String
  | critical => "CRITICAL"
  | high => "HIGH"
  | medium => "MEDIUM"
  | low => "LOW"

/-- The severity with a given name. -/
def ofName? (name : String) : Option Severity := all.find? (·.name = name)

end Severity

end CodeGrade
