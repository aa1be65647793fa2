import CodeGrade.Config.Basic
import CodeGrade.Config.Problem

/-!
# Validating a configuration

Reads a configuration from a JSON value. The problems of an object's known members come in the
order of the schema, and then one problem for all members of unknown names.

## Main definitions

* `Configuration.validate`: the configuration that a value is, or all its problems.
-/

namespace CodeGrade

namespace Schema

/-- The members of an object. -/
def members (path : List String) : Json → Validated (List (String × Json))
  | .object members => .valid members
  | other => .reject path (.wrongKind .object other.kind)

/-- A truth value. -/
def boolean (path : List String) : Json → Validated Bool
  | .bool value => .valid value
  | other => .reject path (.wrongKind .boolean other.kind)

/-- A number. -/
def number (path : List String) (complaints : Float → List Complaint) : Json → Validated Float
  | .number value => .accept path (complaints value) value
  | other => .reject path (.wrongKind .number other.kind)

/-- A weight: a finite number. -/
def weight (path : List String) : Json → Validated Float :=
  number path fun x => if Decimal.isFinite x then [] else [.notFinite]

/-- Points: a finite number that is not negative. -/
def points (path : List String) : Json → Validated Float :=
  number path fun x =>
    (if Decimal.isFinite x then [] else [.notFinite]) ++ (if x < 0.0 then [.negative] else [])

/-- A limit: a positive integer. -/
def limit (path : List String) (value : Json) : Validated Nat :=
  let complaints (x : Float) : List Complaint :=
    (if Decimal.isInteger x then [] else [.notInteger]) ++
      (if 0.0 < x then [] else [.notPositive])
  (fun x => (Decimal.nat? x).getD 0) <$> number path complaints value

/-- A severity. -/
def severity (path : List String) : Json → Validated Severity
  | .string name =>
    match Severity.ofName? name with
    | some severity => .valid severity
    | none => .reject path (.unknownSeverity name)
  | other => .reject path (.noSeverity other.kind)

/-- A member that may be missing. -/
def optional {α : Type} (path : List String) (members : List (String × Json)) (name : String)
    (read : List String → Json → Validated α) : Validated (Option α) :=
  match members.find? (·.1 = name) with
  | some (_, value) => some <$> read (path ++ [name]) value
  | none => .valid none

/-- Complains about the members whose names are not known. -/
def onlyKnown (path : List String) (members : List (String × Json)) (known : List String) :
    Validated Unit :=
  let unknown := (members.map (·.1)).filter fun name => !known.contains name
  .accept path (if unknown.isEmpty then [] else [.unknownKeys unknown]) ()

/-- Reads an object, of which only members of the known names may be given. -/
def object {α : Type} (path : List String) (known : List String) (value : Json)
    (read : List (String × Json) → Validated α) : Validated α :=
  match members path value with
  | .valid members =>
    (fun a _ => a) <$> read members <*> onlyKnown path members known
  | .invalid problems => .invalid problems

/-- The changes to one rule. -/
def ruleOverride (path : List String) (value : Json) : Validated RuleOverride :=
  object path ["enabled", "severity"] value fun members =>
    RuleOverride.mk <$> optional path members "enabled" boolean
      <*> optional path members "severity" severity

/-- The changes to rules, by their names. The name `__proto__` is checked like the others, but no
rule is called that. -/
def ruleOverrides (path : List String) (value : Json) : Validated (List (String × RuleOverride)) :=
  match members path value with
  | .valid members =>
    (fun rules => rules.filter fun (id, _) => id != "__proto__") <$>
      Validated.forEach (fun (id, value) => (id, ·) <$> ruleOverride (path ++ [id]) value) members
  | .invalid problems => .invalid problems

/-- The names of the limits. -/
def thresholdNames : List String :=
  ["maxFunctionLength", "warnFunctionLength", "maxComplexity", "maxNestingDepth", "maxClassMethods",
    "maxLineLength", "requireDocstrings", "requireTypeHints"]

/-- The changes to the limits. -/
def thresholds (path : List String) (value : Json) : Validated ThresholdOverrides :=
  object path thresholdNames value fun members =>
    ThresholdOverrides.mk <$> optional path members "maxFunctionLength" limit
      <*> optional path members "warnFunctionLength" limit
      <*> optional path members "maxComplexity" limit
      <*> optional path members "maxNestingDepth" limit
      <*> optional path members "maxClassMethods" limit
      <*> optional path members "maxLineLength" limit
      <*> optional path members "requireDocstrings" boolean
      <*> optional path members "requireTypeHints" boolean

/-- A value for each category. -/
def perCategory {α : Type} (read : List String → Json → Validated α) (path : List String)
    (value : Json) : Validated (PerCategory α) :=
  object path (Category.all.map Category.id) value fun members =>
    let at_ (c : Category) := optional path members c.id read
    PerCategory.mk <$> at_ .structural <*> at_ .errorHandling <*> at_ .performance <*>
      at_ .security <*> at_ .maintainability <*> at_ .bestPractices

/-- The points among the members of an object. -/
def severityPoints (path : List String) (members : List (String × Json)) :
    Validated SeverityPoints :=
  let at_ (s : Severity) := optional path members s.name points
  SeverityPoints.mk <$> at_ .critical <*> at_ .high <*> at_ .medium <*> at_ .low

/-- The changes to the points of a category. -/
def categoryPoints (path : List String) (value : Json) : Validated SeverityPoints :=
  object path (Severity.all.map Severity.name) value (severityPoints path)

/-- The changes to the points. -/
def deductions (path : List String) (value : Json) : Validated DeductionOverrides :=
  object path (Severity.all.map Severity.name ++ ["categories"]) value fun members =>
    DeductionOverrides.mk <$> severityPoints path members
      <*> optional path members "categories" (perCategory categoryPoints)

/-- A configuration. -/
def configuration (value : Json) : Validated Configuration :=
  object [] ["rules", "thresholds", "weights", "deductions"] value fun members =>
    Configuration.mk <$> optional [] members "rules" ruleOverrides
      <*> optional [] members "thresholds" thresholds
      <*> optional [] members "weights" (perCategory weight)
      <*> optional [] members "deductions" deductions

end Schema

/-- The configuration that a value is, or all its problems. A missing value is a problem of its
own. -/
def Configuration.validate (value : Option Json) : Except (List Problem) Configuration :=
  match value with
  | some value => (Schema.configuration value).toExcept
  | none => .error [.invalid [] .required]

end CodeGrade
