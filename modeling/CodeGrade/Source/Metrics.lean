import CodeGrade.Decimal.Binary64
import CodeGrade.Source.Unit
import CodeGrade.Text.Blank

/-!
# Metrics of a source unit

Counts of lines, functions and classes.

## Main definitions

* `Metrics`: the counts.
* `Metrics.ofLines`: the counts that need only the lines.
* `Metrics.withElements`: the counts completed by the lengths of the functions.
-/

namespace CodeGrade

/-- The counts of a source unit. -/
structure Metrics where
  totalLines : Nat
  blankLines : Nat
  commentLines : Nat
  functionCount : Nat
  classCount : Nat
  averageFunctionLength : Float
  maxFunctionLength : Nat

/-- Whether a line holds nothing but blanks. -/
def isBlankLine (line : List Char) : Bool := (Text.trim line).isEmpty

/-- Whether the first character of a line, blanks apart, begins a comment. -/
def isCommentLine (line : List Char) : Bool := (Text.trim line).head? == some '#'

/-- The counts of a unit of which only the lines are known. -/
def Metrics.ofLines (lines : List (List Char)) : Metrics where
  totalLines := lines.length
  blankLines := lines.countP isBlankLine
  commentLines := lines.countP isCommentLine
  functionCount := 0
  classCount := 0
  averageFunctionLength := 0.0
  maxFunctionLength := 0

/-- The average of lengths, rounded to hundredths; zero if there are none. -/
def averageLength (lengths : List Nat) : Float :=
  if lengths.isEmpty then 0.0
  else
    let average := Float.ofNat (lengths.foldl (· + ·) 0) / Float.ofNat lengths.length
    Decimal.roundHalfUp (average * 100.0) / 100.0

/-- Adds the lengths of the functions and the number of classes. -/
def Metrics.withElements (metrics : Metrics) (lengths : List Nat) (classCount : Nat) : Metrics :=
  { metrics with
    functionCount := lengths.length
    classCount
    averageFunctionLength := averageLength lengths
    maxFunctionLength := lengths.foldl max 0 }

end CodeGrade
