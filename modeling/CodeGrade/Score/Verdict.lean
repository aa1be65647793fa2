import CodeGrade.Score.Basic

/-!
# Verdicts

What a score means: how ready the code is, whether it passes a gate, and how many stars it gets.

## Main definitions

* `Verdict`, `Verdict.classify`: how ready the code is.
* `passesGate`: whether the code passes a gate.
* `stars`: the stars of a score.
-/

namespace CodeGrade

/-- How ready code is. -/
inductive Level where
  | notReady
  | poor
  | fair
  | good
  | excellent
  deriving DecidableEq, Repr

namespace Level

/-- The levels, the lowest first. -/
def all : List Level := [notReady, poor, fair, good, excellent]

/-- The name of a level. -/
def name : Level → String
  | notReady => "not-ready"
  | poor => "poor"
  | fair => "fair"
  | good => "good"
  | excellent => "excellent"

/-- The level with a given name. -/
def ofName? (name : String) : Option Level := all.find? (·.name = name)

/-- The place of a level among the levels. -/
def rank : Level → Nat
  | notReady => 0
  | poor => 1
  | fair => 2
  | good => 3
  | excellent => 4

/-- What the level means. -/
def label : Level → String
  | notReady => "Not production ready — fix critical issues first"
  | poor => "Poor — major refactor required"
  | fair => "Fair — significant improvements needed"
  | good => "Good — minor improvements, deployable with monitoring"
  | excellent => "Excellent — deploy immediately"

/-- Whether code of the level may be put to use. -/
def isReady : Level → Bool
  | good | excellent => true
  | _ => false

end Level

/-- A verdict on code. -/
structure Verdict where
  level : Level
  label : String
  productionReady : Bool
  criticalCount : Int
  highCount : Int
  deriving DecidableEq, Repr

variable {α : Type} [Arithmetic α]

open Arithmetic (ofInt lt le)

/-- The level of an overall score. A critical issue outweighs every score. -/
def levelOf (overall : α) (criticalCount : Int) : Level :=
  if criticalCount > 0 then .notReady
  else if lt overall (ofInt 5) then .poor
  else if lt overall (ofInt 7) then .fair
  else if lt overall (ofInt 9) then .good
  else .excellent

/-- The verdict on an overall score and the numbers of grave issues. -/
def Verdict.classify (overall : α) (criticalCount highCount : Int) : Verdict :=
  let level := levelOf overall criticalCount
  { level
    label := level.label
    productionReady := level.isReady
    criticalCount
    highCount }

/-- Whether code passes a gate: its score is high enough, and it has no critical issue. -/
def passesGate (overall : α) (counts : Counts) (minScore : α) : Bool :=
  le minScore overall && counts.critical == 0

/-- The number of stars of a score. -/
def starCount (score : α) : Nat :=
  if le (ofInt 9) score then 5
  else if le (ofInt 7) score then 4
  else if le (ofInt 5) score then 3
  else if le (ofInt 3) score then 2
  else 1

/-- The stars of a score, out of five. -/
def stars (score : α) : String :=
  let count := starCount score
  String.ofList (List.replicate count '★' ++ List.replicate (5 - count) '☆')

end CodeGrade
