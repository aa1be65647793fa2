import CodeGrade.Config.Resolution
import CodeGrade.Rule.Builtin

/-!
# The catalog

The rules that are in force under a configuration, with their severities, and everything else that
an analysis needs. Every problem of a configuration shows when the catalog is built, before any
source is looked at.

## Main definitions

* `Catalog`: the rules in force, the limits and the scoring.
* `Catalog.build`: the catalog of a configuration and a list of rules.
-/

namespace CodeGrade

/-- The identifier of the issue that stands for a source that cannot be taken apart. -/
def unparsableId : String := "unparsable-source"

/-- A rule in force: its severity, and its place among the registered rules. -/
structure CatalogEntry where
  rule : Rule
  severity : Severity
  order : Nat

/-- The rules in force, the limits and the scoring. -/
structure Catalog where
  entries : List CatalogEntry
  thresholds : Thresholds
  policy : Policy Float

/-- Problems of a list of rules, after rules with the identifiers in `seen`: an identifier that was
there before, and the reserved one. -/
def registrationProblems (seen : List String) : List Rule → List Problem
  | [] => []
  | rule :: rest =>
    (if seen.contains rule.id then [.registeredTwice rule.id] else []) ++
      (if rule.id = unparsableId then [.reservedRule rule.id] else []) ++
      registrationProblems (rule.id :: seen) rest

/-- The rules in force, given the settings of all rules. -/
def catalogEntries (settings : List (String × RuleSetting)) (rules : List Rule) :
    List CatalogEntry :=
  rules.zipIdx.filterMap fun (rule, order) =>
    match settings.find? (·.1 = rule.id) with
    | some (_, setting) => if setting.enabled then some ⟨rule, setting.severity, order⟩ else none
    | none => none

/-- The catalog of a configuration and a list of rules, or all problems of the first step that
shows any: the registration of the rules, the shape of the configuration, its merged values. -/
def Catalog.build (config : Option Json) (rules : List Rule := builtinRules) :
    Except (List Problem) Catalog :=
  match registrationProblems [] rules with
  | [] => do
    let config ← Configuration.ofValue config
    let resolved ← config.resolve (rules.map fun rule => (rule.id, rule.severity))
    .ok {
      entries := catalogEntries resolved.rules rules
      thresholds := resolved.thresholds
      policy := resolved.policy }
  | problems => .error problems

end CodeGrade
