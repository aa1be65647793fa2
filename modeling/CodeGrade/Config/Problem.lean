import CodeGrade.Category
import CodeGrade.Decimal.Format
import CodeGrade.Json.Basic
import CodeGrade.Severity

/-!
# Problems of a configuration

What can be wrong with a rule configuration. All problems are collected before any is reported.

## Main definitions

* `Complaint`: what is wrong with a value, apart from where it stands.
* `Problem`: what is wrong with a configuration.
* `Problem.message`: the wording.
* `Validated`: a value, or all problems that were found.
-/

namespace CodeGrade

/-- What is wrong with a value of a configuration. -/
inductive Complaint where
  /-- The value is missing. -/
  | required
  /-- The value is of another sort. -/
  | wrongKind (expected received : Json.Kind)
  /-- The object has members of unknown names. -/
  | unknownKeys (names : List String)
  /-- The string is not a severity. -/
  | unknownSeverity (name : String)
  /-- The value is not a string, let alone a severity. -/
  | noSeverity (received : Json.Kind)
  /-- The number is not an integer. -/
  | notInteger
  /-- The number is not positive. -/
  | notPositive
  /-- The number is infinite. -/
  | notFinite
  /-- The number is negative. -/
  | negative
  deriving DecidableEq, Repr

/-- The severities as a complaint lists them. -/
def severityChoices : String := "'critical' | 'high' | 'medium' | 'low'"

/-- The wording of a complaint. -/
def Complaint.message : Complaint → String
  | required => "Required"
  | wrongKind expected received => s!"Expected {expected.name}, received {received.name}"
  | unknownKeys names =>
    "Unrecognized key(s) in object: " ++ ", ".intercalate (names.map fun name => s!"'{name}'")
  | unknownSeverity name => s!"Invalid enum value. Expected {severityChoices}, received '{name}'"
  | noSeverity received => s!"Expected {severityChoices}, received {received.name}"
  | notInteger => "Expected integer, received float"
  | notPositive => "Number must be greater than 0"
  | notFinite => "Number must be finite"
  | negative => "Number must be greater than or equal to 0"

/-- What is wrong with a configuration. -/
inductive Problem where
  /-- A value at a place is not as it should be. -/
  | invalid (path : List String) (complaint : Complaint)
  /-- The warning length exceeds the greatest length. -/
  | warningExceedsLimit (warning limit : Nat)
  /-- A weight is not positive, or greater than one. -/
  | weightOutOfRange (category : Category) (weight : Float)
  /-- The weights do not add up to one. -/
  | weightSum (sum : Float)
  /-- There is no rule of that name. -/
  | unknownRule (id : String)
  /-- Two rules have the same name. -/
  | registeredTwice (id : String)
  /-- The name of a rule is reserved. -/
  | reservedRule (id : String)
  /-- The file cannot be read. -/
  | unreadable (path reason : String)
  /-- The file is not JSON. -/
  | notJson (path : String)

/-- The place of a value as a problem names it. -/
def placeName (path : List String) : String :=
  let joined := ".".intercalate path
  if joined.isEmpty then "(root)" else joined

/-- The wording of a problem. -/
def Problem.message : Problem → String
  | invalid path complaint => placeName path ++ ": " ++ complaint.message
  | warningExceedsLimit warning limit =>
    "thresholds.warnFunctionLength (" ++ Decimal.natText warning ++
      ") exceeds maxFunctionLength (" ++ Decimal.natText limit ++ ")"
  | weightOutOfRange category weight =>
    "weights." ++ category.id ++ " must be in (0, 1], got " ++ Decimal.text weight
  | weightSum sum => "category weights must sum to 1.0, got " ++ Decimal.text sum
  | unknownRule id => s!"rules.{id}: unknown rule identifier"
  | registeredTwice id => s!"rule '{id}' is registered twice"
  | reservedRule id => s!"rule id '{id}' is reserved"
  | unreadable path reason => s!"cannot read {path}: {reason}"
  | notJson path => s!"{path} is not valid JSON"

/-- The wording of the rejection of a configuration. -/
def rejection (problems : List Problem) : String :=
  "Invalid rule configuration: " ++ "; ".intercalate (problems.map Problem.message)

/-- A value, or all problems that were found on the way to it. -/
inductive Validated (α : Type) where
  | valid (value : α)
  | invalid (problems : List Problem)

namespace Validated

/-- Applies a function to a validated value, collecting the problems of both. -/
def apply {α β : Type} : Validated (α → β) → Validated α → Validated β
  | valid f, valid a => valid (f a)
  | valid _, invalid ps => invalid ps
  | invalid ps, valid _ => invalid ps
  | invalid ps, invalid qs => invalid (ps ++ qs)

instance : Applicative Validated where
  pure := valid
  seq f x := apply f (x ())

/-- A complaint about the value at a place. -/
def reject {α : Type} (path : List String) (complaint : Complaint) : Validated α :=
  invalid [.invalid path complaint]

/-- The value, or the complaints about it if there are any. -/
def accept {α : Type} (path : List String) (complaints : List Complaint) (value : α) :
    Validated α :=
  if complaints.isEmpty then valid value else invalid (complaints.map (.invalid path))

/-- Validates every element of a list, in order. -/
def forEach {α β : Type} (f : α → Validated β) : List α → Validated (List β)
  | [] => valid []
  | a :: rest => apply (apply (valid List.cons) (f a)) (forEach f rest)

/-- The value or the problems. -/
def toExcept {α : Type} : Validated α → Except (List Problem) α
  | valid value => .ok value
  | invalid problems => .error problems

end Validated

end CodeGrade
