import CodeGrade.Rule.Basic
import CodeGrade.Rule.Call
import CodeGrade.Source.Scope

/-!
# Rules on loops

Loops that only append to a list, and loops inside loops over the same collection.
-/

namespace CodeGrade

/-- Whether the code is a call of a list's `append`. -/
def isAppend (code : List Char) : Bool := (methodCallAt? "append" code).isSome

/-- Whether a loop does nothing but append to a list, perhaps under one condition. -/
def accumulates (outline : Outline) (loop : LogicalLine) : Bool :=
  if !loop.opensBlock then isAppend loop.inlineBody
  else
    match outline.bodyOf loop with
    | [only] => isAppend only.code || (only.keyword = some .ifKw && isAppend only.inlineBody)
    | [first, second] => first.keyword = some .ifKw && first.opensBlock && isAppend second.code
    | _ => false

/-- Loops that a list comprehension could replace. -/
def comprehensionOpportunities (c : Context) : List Match :=
  c.outline.lines.toList.filterMap fun line =>
    if line.isForLoop && accumulates c.outline line then
      some {
        line := line.startLine
        message := "Consider using list comprehension"
        evidence := some (String.ofList line.code)
        suggestion := some "Build the list with [expr for item in iterable if cond]" }
    else none

/-- The outermost loop around `inner` that runs over the given collection. -/
def outerLoop? (outline : Outline) (inner : LogicalLine) (collection : List Char) :
    Option LogicalLine :=
  (inner.parents.filterMap (outline.lines[·]?)).find? fun header =>
    header.isForLoop && header.iterable? = some collection

/-- Loops inside a loop over the same collection. -/
def nestedLoops (c : Context) : List Match :=
  c.outline.lines.toList.filterMap fun inner =>
    if inner.isForLoop then do
      let collection ← inner.iterable?
      let outer ← outerLoop? c.outline inner collection
      let shown := String.ofList collection
      let line := outer.startLine
      some {
        line := inner.startLine
        message := s!"Nested loop over '{shown}' (outer loop on line {line}) is O(n²)"
        evidence := some (String.ofList inner.code)
        suggestion := some "Index the collection in a dict or set before looping" }
    else none

/-- The rules on loops. -/
def loopRules : List Rule :=
  [.ofCheck "comprehension-opportunity" "List Comprehension Opportunity" .performance .low
      "Loop whose only job is appending to a list" comprehensionOpportunities,
   .ofCheck "nested-loop-same-collection" "Quadratic Loop" .performance .medium
      "Nested loops iterating over the same collection" nestedLoops]

end CodeGrade
