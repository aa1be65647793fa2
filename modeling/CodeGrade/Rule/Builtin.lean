import CodeGrade.Rule.Documentation
import CodeGrade.Rule.Duplication
import CodeGrade.Rule.Handling
import CodeGrade.Rule.Injection
import CodeGrade.Rule.Loop
import CodeGrade.Rule.Naming
import CodeGrade.Rule.Resource
import CodeGrade.Rule.Secret
import CodeGrade.Rule.Size
import CodeGrade.Rule.Style

/-!
# The built-in rules

The rules in the order in which they are registered, which decides between issues of one severity
on one line.
-/

namespace CodeGrade

/-- The built-in rules in order. -/
def builtinRules : List Rule :=
  sizeRules ++ duplicationRules ++
    [bareExceptRule, unguardedIoRule, missingCleanupRule, noHandlingRule] ++ loopRules ++
    [hardcodedSecretRule] ++ injectionRules ++ documentationRules ++ [namingRule, todoRule] ++
    practiceRules

/-- The built-in rule with a given identifier. -/
def builtinRule? (id : String) : Option Rule := builtinRules.find? (·.id = id)

end CodeGrade
