import CodeGrade.Rule.Basic
import CodeGrade.Source.Scope

/-!
# Rules on size

Functions that are too long, too deeply nested or too complex, and classes with too many methods.

## Main definitions

* `nestingDepth`: how deep a function nests control blocks.
* `complexity`: the cyclomatic complexity of statements.
-/

namespace CodeGrade

/-- Functions longer than the limit. -/
def longFunctions (c : Context) : List Match :=
  let limit := c.thresholds.maxFunctionLength
  c.outline.functions.filterMap fun (element, _) =>
    if element.length > limit then
      let name := String.ofList element.name
      let length := element.length
      let shown := Decimal.natText limit
      some {
        line := element.startLine
        message := s!"Function '{name}' is {length} lines (>{shown})"
        suggestion := some "Split it into smaller functions that each do one thing" }
    else none

/-- Functions longer than the warning limit, but not longer than the limit. -/
def lengthyFunctions (c : Context) : List Match :=
  let limit := c.thresholds.warnFunctionLength
  c.outline.functions.filterMap fun (element, _) =>
    if element.length > limit ∧ element.length ≤ c.thresholds.maxFunctionLength then
      let name := String.ofList element.name
      let length := element.length
      let shown := Decimal.natText limit
      some {
        line := element.startLine
        message := s!"Function '{name}' is {length} lines (>{shown})"
        suggestion := some "Consider extracting helper functions" }
    else none

/-- How many control blocks enclose the most deeply nested statement of an element. -/
def nestingDepth (outline : Outline) (element : Nat) : Nat :=
  ((outline.ownLines element).map fun line => (outline.controlParents line).length).foldl max 0

/-- Functions that nest control blocks deeper than the limit. -/
def deepNesting (c : Context) : List Match :=
  let limit := c.thresholds.maxNestingDepth
  c.outline.functions.filterMap fun (element, index) =>
    let depth := nestingDepth c.outline index
    if depth > limit then
      let name := String.ofList element.name
      let shown := Decimal.natText limit
      some {
        line := element.startLine
        message := s!"Function '{name}' nests control blocks {depth} levels deep (>{shown})"
        suggestion := some "Use early returns or extract the inner blocks" }
    else none

/-- The words that add a path inside an expression. -/
def isDecisionWord (word : List Char) : Bool :=
  word = "if".toList || word = "for".toList || word = "and".toList || word = "or".toList

/-- The number of paths that a statement adds: one for a keyword that decides something, and one
for each deciding word after as many characters as the keyword has. -/
def LogicalLine.decisions (line : LogicalLine) : Nat :=
  let header := if line.keyword.any Keyword.isDecision then 1 else 0
  let rest := line.code.drop ((line.keyword.map (·.text.length)).getD 0)
  header + (Text.words rest).countP isDecisionWord

/-- The cyclomatic complexity of statements: the number of paths through them. -/
def complexity (lines : List LogicalLine) : Nat :=
  lines.foldl (fun paths line => paths + line.decisions) 1

/-- Functions with a complexity above the limit. -/
def highComplexity (c : Context) : List Match :=
  let limit := c.thresholds.maxComplexity
  c.outline.functions.filterMap fun (element, index) =>
    let paths := complexity (c.outline.ownLines index)
    if paths > limit then
      let name := String.ofList element.name
      let shown := Decimal.natText limit
      some {
        line := element.startLine
        message := s!"Function '{name}' has cyclomatic complexity {paths} (>{shown})"
        suggestion := some "Break the decision logic into smaller functions" }
    else none

/-- The number of functions directly inside an element. -/
def methodCount (outline : Outline) (element : Nat) : Nat :=
  outline.elements.toList.countP fun e => e.parent = some element && e.isFunction

/-- Classes with more methods than the limit. -/
def largeClasses (c : Context) : List Match :=
  let limit := c.thresholds.maxClassMethods
  c.outline.elements.toList.zipIdx.filterMap fun (element, index) =>
    let methods := methodCount c.outline index
    if element.isClass ∧ methods > limit then
      let name := String.ofList element.name
      let shown := Decimal.natText limit
      some {
        line := element.startLine
        message := s!"Class '{name}' defines {methods} methods (>{shown})"
        suggestion := some "Split unrelated responsibilities into separate classes" }
    else none

/-- The rules on size. -/
def sizeRules : List Rule :=
  [.ofCheck "long-function" "Long Function" .structural .high
      "Function body is longer than maxFunctionLength lines" longFunctions,
   .ofCheck "long-function-warning" "Long Function" .structural .medium
      "Function body is longer than warnFunctionLength lines" lengthyFunctions,
   .ofCheck "deep-nesting" "Deep Nesting" .structural .medium
      "Control blocks nested deeper than maxNestingDepth" deepNesting,
   .ofCheck "high-complexity" "High Complexity" .structural .medium
      "Cyclomatic complexity above maxComplexity" highComplexity,
   .ofCheck "large-class" "Large Class" .structural .medium
      "Class defines more methods than maxClassMethods, a sign of mixed responsibilities"
      largeClasses]

end CodeGrade
