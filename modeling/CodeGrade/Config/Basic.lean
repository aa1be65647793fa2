import CodeGrade.Category
import CodeGrade.Json.Basic
import CodeGrade.Severity

/-!
# Rule configurations

What a user may change: the settings of single rules, the limits, the weights of the categories,
and the points deducted for issues. Everything may be left out.

## Main definitions

* `Configuration`: the changes.
* `Configuration.toJson`: the configuration as it is written.
-/

namespace CodeGrade

/-- The changes to one rule. -/
structure RuleOverride where
  enabled : Option Bool
  severity : Option Severity
  deriving DecidableEq, Repr

/-- The changes to the limits. -/
structure ThresholdOverrides where
  maxFunctionLength : Option Nat
  warnFunctionLength : Option Nat
  maxComplexity : Option Nat
  maxNestingDepth : Option Nat
  maxClassMethods : Option Nat
  maxLineLength : Option Nat
  requireDocstrings : Option Bool
  requireTypeHints : Option Bool
  deriving DecidableEq, Repr

/-- Points deducted for an issue of each severity, where they are given. -/
structure SeverityPoints where
  critical : Option Float
  high : Option Float
  medium : Option Float
  low : Option Float

/-- The points for a severity. -/
def SeverityPoints.get (points : SeverityPoints) : Severity → Option Float
  | .critical => points.critical
  | .high => points.high
  | .medium => points.medium
  | .low => points.low

/-- A value for each category, where it is given. -/
structure PerCategory (α : Type) where
  structural : Option α
  errorHandling : Option α
  performance : Option α
  security : Option α
  maintainability : Option α
  bestPractices : Option α

/-- The value for a category. -/
def PerCategory.get {α : Type} (values : PerCategory α) : Category → Option α
  | .structural => values.structural
  | .errorHandling => values.errorHandling
  | .performance => values.performance
  | .security => values.security
  | .maintainability => values.maintainability
  | .bestPractices => values.bestPractices

/-- The changes to the points deducted: for all categories, and for single ones. -/
structure DeductionOverrides where
  general : SeverityPoints
  categories : Option (PerCategory SeverityPoints)

/-- A rule configuration. -/
structure Configuration where
  rules : Option (List (String × RuleOverride))
  thresholds : Option ThresholdOverrides
  weights : Option (PerCategory Float)
  deductions : Option DeductionOverrides

/-- The configuration that changes nothing. -/
def Configuration.empty : Configuration := ⟨none, none, none, none⟩

/-! ### Configurations as JSON -/

/-- The members that are given. -/
def given (members : List (String × Option Json)) : List (String × Json) :=
  members.filterMap fun (name, value) => value.map (name, ·)

/-- The changes to a rule as they are written. -/
def RuleOverride.toJson (o : RuleOverride) : Json :=
  .object (given [("enabled", o.enabled.map .bool), ("severity", o.severity.map (.string ·.name))])

/-- The changes to the limits as they are written. -/
def ThresholdOverrides.toJson (o : ThresholdOverrides) : Json :=
  .object (given
    [("maxFunctionLength", o.maxFunctionLength.map Json.ofNat),
     ("warnFunctionLength", o.warnFunctionLength.map Json.ofNat),
     ("maxComplexity", o.maxComplexity.map Json.ofNat),
     ("maxNestingDepth", o.maxNestingDepth.map Json.ofNat),
     ("maxClassMethods", o.maxClassMethods.map Json.ofNat),
     ("maxLineLength", o.maxLineLength.map Json.ofNat),
     ("requireDocstrings", o.requireDocstrings.map .bool),
     ("requireTypeHints", o.requireTypeHints.map .bool)])

/-- The members of points. -/
def SeverityPoints.members (points : SeverityPoints) : List (String × Json) :=
  given (Severity.all.map fun s => (s.name, (points.get s).map .number))

/-- Values for categories as they are written. -/
def PerCategory.toJson {α : Type} (encode : α → Json) (values : PerCategory α) : Json :=
  .object (given (Category.all.map fun c => (c.id, (values.get c).map encode)))

/-- The changes to the points as they are written. -/
def DeductionOverrides.toJson (o : DeductionOverrides) : Json :=
  .object (o.general.members ++
    given [("categories", o.categories.map (PerCategory.toJson fun points => .object points.members))])

/-- The configuration as it is written. -/
def Configuration.toJson (c : Configuration) : Json :=
  .object (given
    [("rules", c.rules.map fun rules => .object (rules.map fun (id, o) => (id, o.toJson))),
     ("thresholds", c.thresholds.map ThresholdOverrides.toJson),
     ("weights", c.weights.map (PerCategory.toJson .number)),
     ("deductions", c.deductions.map DeductionOverrides.toJson)])

end CodeGrade
