import CodeGrade.Rule.Basic
import CodeGrade.Source.Scope

/-!
# Rules on documentation

Public classes and functions without a docstring, and functions without type hints.
-/

namespace CodeGrade

/-- Whether the element's name does not begin with an underscore. -/
def Element.isPublic (element : Element) : Bool := element.name.head? != some '_'

/-- The match of an element without a docstring. -/
def undocumented (sort advice : String) (element : Element) : Match :=
  let name := String.ofList element.name
  { line := element.startLine
    message := s!"{sort} '{name}' has no docstring"
    suggestion := some advice }

/-- Public classes without a docstring. -/
def undocumentedClasses (c : Context) : List Match :=
  if c.thresholds.requireDocstrings then
    (c.outline.elements.toList.filter fun e => e.isClass && e.isPublic && !e.hasDocstring).map
      (undocumented "Class" "Describe what the class is responsible for")
  else []

/-- Whether the element stands directly inside a function. -/
def Outline.isClosure (outline : Outline) (element : Element) : Bool :=
  (element.parent.bind (outline.elements[·]?)).any (·.isFunction)

/-- Public functions without a docstring, apart from those inside other functions. -/
def undocumentedFunctions (c : Context) : List Match :=
  if c.thresholds.requireDocstrings then
    (c.outline.elements.toList.filter fun e =>
        e.isFunction && e.isPublic && !e.hasDocstring && !c.outline.isClosure e).map
      (undocumented "Function" "Add a docstring describing arguments and return value")
  else []

/-- Functions without type hints. -/
def untypedFunctions (c : Context) : List Match :=
  if c.thresholds.requireTypeHints then
    (c.outline.elements.toList.filter fun e => e.isFunction && !e.hasTypeHints).map fun e =>
      let name := String.ofList e.name
      { line := e.startLine
        message := s!"Function '{name}' has no type hints"
        suggestion := some "Annotate the parameters and the return type" }
  else []

/-- The rules on documentation. -/
def documentationRules : List Rule :=
  [.ofCheck "missing-class-docstring" "Missing Docstring" .maintainability .medium
      "Public class without a docstring" undocumentedClasses,
   .ofCheck "missing-function-docstring" "Missing Docstring" .maintainability .low
      "Public function or method without a docstring" undocumentedFunctions,
   .ofCheck "missing-type-hints" "Missing Type Hints" .maintainability .low
      "Function signature without any annotation" untypedFunctions]

end CodeGrade
