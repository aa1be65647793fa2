/-!
# Categories

The six aspects of code quality that are scored separately.

## Main definitions

* `Category`: the categories.
* `Category.all`: their order.
-/

namespace CodeGrade

/-- An aspect of code quality. -/
inductive Category where
  | structural
  | errorHandling
  | performance
  | security
  | maintainability
  | bestPractices
  deriving DecidableEq, Repr

namespace Category

/-- The categories in the order of reports. -/
def all : List Category :=
  [structural, errorHandling, performance, security, maintainability, bestPractices]

@[simp] theorem mem_all (category : Category) : category ∈ all := by
  cases category <;> decide

/-- The identifier of a category. -/
def id : Category → String
  | structural => "structure"
  | errorHandling => "error-handling"
  | performance => "performance"
  | security => "security"
  | maintainability => "maintainability"
  | bestPractices => "best-practices"

/-- The title of a category. -/
def title : Category → String
  | structural => "Structure"
  | errorHandling => "Error Handling"
  | performance => "Performance"
  | security => "Security"
  | maintainability => "Maintainability"
  | bestPractices => "Best Practices"

/-- The category with a given identifier. -/
def ofId? (id : String) : Option Category := all.find? (·.id = id)

end Category

end CodeGrade
