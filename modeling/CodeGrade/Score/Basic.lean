import CodeGrade.Issue
import CodeGrade.Score.Arithmetic

/-!
# Scores

Each category starts at ten points, from which the points of its issues are deducted. The overall
score is the weighted sum of the categories.

## Main definitions

* `Policy`: the weights of the categories and the points deducted.
* `Counts`: how many issues there are of each severity.
* `CategoryScore`, `scoreCategories`: the scores of the categories.
* `overallScore`: the overall score.
-/

namespace CodeGrade

/-- A category with its weight in the overall score. -/
structure CategoryWeight (α : Type) where
  category : Category
  weight : α
  deriving DecidableEq, Repr

/-- How issues are scored: the categories with their weights, and the points deducted for an issue
of a category and severity. -/
structure Policy (α : Type) where
  categories : List (CategoryWeight α)
  deduction : Category → Severity → α

/-- How many issues there are of each severity. -/
structure Counts where
  critical : Int
  high : Int
  medium : Int
  low : Int
  deriving DecidableEq, Repr

/-- The number of issues of a severity. -/
def Counts.get (counts : Counts) : Severity → Int
  | .critical => counts.critical
  | .high => counts.high
  | .medium => counts.medium
  | .low => counts.low

/-- The number of issues of a severity. -/
def countOf (issues : List Issue) (severity : Severity) : Nat :=
  issues.countP (·.severity = severity)

/-- How many issues there are of each severity. -/
def Counts.ofIssues (issues : List Issue) : Counts where
  critical := countOf issues .critical
  high := countOf issues .high
  medium := countOf issues .medium
  low := countOf issues .low

theorem Counts.get_ofIssues (issues : List Issue) (severity : Severity) :
    (Counts.ofIssues issues).get severity = countOf issues severity := by
  cases severity <;> rfl

/-- The score of a category. -/
structure CategoryScore (α : Type) where
  category : Category
  name : String
  weight : α
  score : α
  issueCount : Int
  deriving DecidableEq, Repr

variable {α : Type} [Arithmetic α]

open Arithmetic (ofInt clamp smaller larger)

/-- The best score. -/
def maxScore : α := ofInt 10

/-- The points deducted for issues, added up by severity. -/
def deductionSum (points : Severity → α) (counts : Counts) : α :=
  Severity.all.foldl (fun sum s => sum + ofInt (counts.get s) * points s) (ofInt 0)

/-- The score of a category whose issues have the given counts. -/
def scoreOfCounts (points : Severity → α) (counts : Counts) : α :=
  roundScore (clamp (ofInt 0) maxScore (maxScore - deductionSum points counts))

/-- The score of one category. -/
def scoreCategory (policy : Policy α) (issues : List Issue) (c : CategoryWeight α) :
    CategoryScore α :=
  let own := issues.filter (·.category = c.category)
  { category := c.category
    name := c.category.title
    weight := c.weight
    score := scoreOfCounts (policy.deduction c.category) (Counts.ofIssues own)
    issueCount := own.length }

/-- The scores of all categories. -/
def scoreCategories (policy : Policy α) (issues : List Issue) : List (CategoryScore α) :=
  policy.categories.map (scoreCategory policy issues)

/-- The weighted sum of scores. -/
def weightedSum (scores : List (CategoryScore α)) : α :=
  scores.foldl (fun sum s => sum + s.score * s.weight) (ofInt 0)

/-- The overall score: the weighted sum, rounded, and kept between the lowest and the highest
score. -/
def overallScore (scores : List (CategoryScore α)) : α :=
  match scores with
  | [] => maxScore
  | first :: rest =>
    let low := rest.foldl (fun low s => smaller low s.score) first.score
    let high := rest.foldl (fun high s => larger high s.score) first.score
    clamp (ofInt 0) maxScore (clamp low high (roundScore (weightedSum scores)))

end CodeGrade
