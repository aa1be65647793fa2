import CodeGrade.Config.Validation
import CodeGrade.Rule.Basic
import CodeGrade.Score.Basic

/-!
# Resolving a configuration

Merges a configuration onto the standard limits, weights and deductions, and checks what only the
merged values can show. All problems are collected.

## Main definitions

* `Resolved`: what holds after the changes of a configuration.
* `Configuration.resolve`: the changes applied, or all problems.
-/

namespace CodeGrade

/-- The standard weight of a category. -/
def Category.standardWeight : Category → Float
  | .structural | .errorHandling => 0.2
  | .performance | .security | .maintainability | .bestPractices => 0.15

/-- The standard points deducted for an issue. -/
def Severity.standardDeduction : Severity → Float
  | .critical => 4.0
  | .high => 2.0
  | .medium => 1.0
  | .low => 0.3

/-- How far the sum of the weights may be from one. -/
def weightTolerance : Float := 1e-9

/-- Whether a rule is used, and with which severity. -/
structure RuleSetting where
  enabled : Bool
  severity : Severity
  deriving DecidableEq, Repr

/-- What holds after the changes of a configuration. -/
structure Resolved where
  thresholds : Thresholds
  policy : Policy Float
  rules : List (String × RuleSetting)

/-- The limits with changes. -/
def Thresholds.merge (o : ThresholdOverrides) (t : Thresholds) : Thresholds where
  maxFunctionLength := o.maxFunctionLength.getD t.maxFunctionLength
  warnFunctionLength := o.warnFunctionLength.getD t.warnFunctionLength
  maxComplexity := o.maxComplexity.getD t.maxComplexity
  maxNestingDepth := o.maxNestingDepth.getD t.maxNestingDepth
  maxClassMethods := o.maxClassMethods.getD t.maxClassMethods
  maxLineLength := o.maxLineLength.getD t.maxLineLength
  requireDocstrings := o.requireDocstrings.getD t.requireDocstrings
  requireTypeHints := o.requireTypeHints.getD t.requireTypeHints

namespace Configuration

/-- The limits under a configuration. -/
def resolvedThresholds (c : Configuration) : Thresholds :=
  match c.thresholds with
  | some overrides => Thresholds.standard.merge overrides
  | none => .standard

/-- The weights under a configuration. -/
def resolvedWeights (c : Configuration) : List (CategoryWeight Float) :=
  Category.all.map fun category =>
    ⟨category, (c.weights.bind (·.get category)).getD category.standardWeight⟩

/-- The points under a configuration: those of the category go before those of all categories. -/
def resolvedDeduction (c : Configuration) (category : Category) (severity : Severity) : Float :=
  let own := (c.deductions.bind (·.categories)).bind fun categories =>
    (categories.get category).bind (·.get severity)
  let general := c.deductions.bind (·.general.get severity)
  (own.or general).getD severity.standardDeduction

/-- The changes to a rule. -/
def override? (c : Configuration) (id : String) : Option RuleOverride :=
  c.rules.bind fun rules => (rules.find? (·.1 = id)).map (·.2)

/-- The setting of a rule with a given severity of its own. -/
def setting (c : Configuration) (id : String) (severity : Severity) : RuleSetting where
  enabled := ((c.override? id).bind (·.enabled)).getD true
  severity := ((c.override? id).bind (·.severity)).getD severity

/-- Problems of the limits. -/
def thresholdProblems (t : Thresholds) : List Problem :=
  if t.warnFunctionLength > t.maxFunctionLength then
    [.warningExceedsLimit t.warnFunctionLength t.maxFunctionLength]
  else []

/-- Problems of the weights: of each of them, and of their sum. -/
def weightProblems (weights : List (CategoryWeight Float)) : List Problem :=
  let each := weights.filterMap fun w =>
    if 0.0 < w.weight ∧ w.weight ≤ 1.0 then none else some (.weightOutOfRange w.category w.weight)
  let sum := weights.foldl (fun sum w => sum + w.weight) 0.0
  each ++ (if (sum - 1.0).abs > weightTolerance then [.weightSum sum] else [])

/-- Problems of the rules: those that are not known. -/
def ruleProblems (c : Configuration) (known : List String) : List Problem :=
  ((c.rules.getD []).filter fun (id, _) => !known.contains id).map fun (id, _) => .unknownRule id

/-- All problems that the merged values show. -/
def problems (c : Configuration) (known : List String) : List Problem :=
  thresholdProblems c.resolvedThresholds ++ weightProblems c.resolvedWeights ++
    c.ruleProblems known

/-- The changes applied, given the known rules and their own severities; or all problems. -/
def resolve (c : Configuration) (known : List (String × Severity)) :
    Except (List Problem) Resolved :=
  match c.problems (known.map (·.1)) with
  | [] =>
    .ok {
      thresholds := c.resolvedThresholds
      policy := ⟨c.resolvedWeights, c.resolvedDeduction⟩
      rules := known.map fun (id, severity) => (id, c.setting id severity) }
  | problems => .error problems

end Configuration

/-- The configuration in a value that may be missing: without one nothing changes. -/
def Configuration.ofValue (value : Option Json) : Except (List Problem) Configuration :=
  match value with
  | none | some .null => .ok .empty
  | some value => Configuration.validate (some value)

end CodeGrade
