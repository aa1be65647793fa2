import CodeGrade.Category
import CodeGrade.Json.Printer
import CodeGrade.LineNumber
import CodeGrade.Severity
import CodeGrade.Source.Outline

/-!
# Rules

A rule looks at a source unit and its outline and reports matches. The built-in rules always
succeed; a rule from elsewhere may fail, with any value at all, and the evaluation of rules copes
with that as long as the value can be described.

## Main definitions

* `Thresholds`: the limits that rules apply.
* `Context`: what a rule looks at.
* `Match`: what a rule reports.
* `RuleFault`: why a rule reports nothing.
* `Rule`: a check with its description.
-/

namespace CodeGrade

/-- The limits that rules apply. -/
structure Thresholds where
  maxFunctionLength : Nat
  warnFunctionLength : Nat
  maxComplexity : Nat
  maxNestingDepth : Nat
  maxClassMethods : Nat
  maxLineLength : Nat
  requireDocstrings : Bool
  requireTypeHints : Bool
  deriving DecidableEq, Repr

/-- The limits that hold unless a configuration changes them. -/
def Thresholds.standard : Thresholds where
  maxFunctionLength := 100
  warnFunctionLength := 50
  maxComplexity := 10
  maxNestingDepth := 4
  maxClassMethods := 20
  maxLineLength := 120
  requireDocstrings := true
  requireTypeHints := true

/-- What a rule looks at. -/
structure Context where
  unit : SourceUnit
  outline : Outline
  thresholds : Thresholds

/-- What a rule reports: a line (zero for the whole file) and a message, perhaps with the code in
question and advice. -/
structure Match where
  line : LineNumber
  message : String
  evidence : Option String := none
  suggestion : Option String := none
  deriving DecidableEq, Repr

/-- Why the check of a rule gave no matches. -/
inductive RuleFault where
  /-- The check failed, with a description. -/
  | failed (description : String)
  /-- The check failed with something that cannot be described, for the given reason. -/
  | indescribable (reason : String)
  /-- A match is neither on a line of the unit nor on the whole file. -/
  | outOfRange (line : LineNumber) (lineCount : Nat)
  deriving DecidableEq, Repr

/-- The wording of a rule's fault. -/
def RuleFault.message : RuleFault → String
  | failed description => description
  | indescribable reason => reason
  | outOfRange line lineCount => s!"match on line {line.text} is outside 0..{lineCount}"

/-- The fault of a check that failed with a value. -/
def RuleFault.ofValue (value : Json) : RuleFault :=
  match value.describe? with
  | some description => .failed description
  | none => .indescribable "Cannot convert object to primitive value"

/-- A check with its description. -/
structure Rule where
  id : String
  title : String
  category : Category
  severity : Severity
  description : String
  check : Context → Except RuleFault (List Match)

/-- The rule with a check that always succeeds. -/
def Rule.ofCheck (id title : String) (category : Category) (severity : Severity)
    (description : String) (check : Context → List Match) : Rule :=
  { id, title, category, severity, description, check := fun context => .ok (check context) }

end CodeGrade
