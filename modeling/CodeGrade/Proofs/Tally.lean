import CodeGrade.Proofs.Consistency
import Mathlib

/-!
# Scores depend on a tally

A tally says how many issues there are of each category and severity. The counts by severity, the
scores of the categories, the overall score and the verdict are functions of the tally alone: the
order of the issues, their lines, rules and messages do not matter. No law of arithmetic is used, so
this holds for binary64 numbers, whose sums depend on the order of their terms.

## Main definitions

* `tally`: how many issues there are of each category and severity.
* `Counts.ofTally`: the counts of a tally.
* `scoresOfTally`: the scores of a tally.
-/

namespace CodeGrade

/-- The number of issues of a category and a severity. -/
def tally (issues : List Issue) (category : Category) (severity : Severity) : ℕ :=
  issues.countP fun issue => issue.category = category ∧ issue.severity = severity

/-- The counts that a number for each severity makes up. -/
def Counts.ofNumbers (count : Severity → ℕ) : Counts where
  critical := count .critical
  high := count .high
  medium := count .medium
  low := count .low

/-- The counts by severity of a tally. -/
def Counts.ofTally (count : Category → Severity → ℕ) : Counts :=
  .ofNumbers fun severity => (Category.all.map (count · severity)).sum

/-- The scores of the categories, from a tally. -/
def scoresOfTally {α : Type} [Arithmetic α] (policy : Policy α)
    (count : Category → Severity → ℕ) : List (CategoryScore α) :=
  policy.categories.map fun c =>
    { category := c.category
      name := c.category.title
      weight := c.weight
      score := scoreOfCounts (policy.deduction c.category) (.ofNumbers (count c.category))
      issueCount := ((Severity.all.map (count c.category)).sum : ℕ) }

variable (issues : List Issue)

theorem countOf_filter_category (category : Category) :
    countOf (issues.filter (·.category = category)) = tally issues category := by
  funext severity
  rw [countOf, List.countP_filter, tally]
  refine List.countP_congr fun issue _ => ?_
  simp [and_comm]

/-- The issues of a severity are spread over the categories. -/
theorem sum_tally_category (severity : Severity) :
    (Category.all.map (tally issues · severity)).sum = countOf issues severity := by
  have hcount : ∀ category, tally issues category severity =
      (issues.filter (·.severity = severity)).countP (·.category = category) := by
    intro category
    rw [List.countP_filter, tally]
    exact List.countP_congr fun issue _ => by simp
  calc (Category.all.map (tally issues · severity)).sum
    _ = (issues.filter (·.severity = severity)).length := by simp only [hcount, sum_category]
    _ = countOf issues severity := List.countP_eq_length_filter.symm

theorem Counts.ofIssues_eq_ofTally : Counts.ofIssues issues = Counts.ofTally (tally issues) := by
  simp only [Counts.ofTally, sum_tally_category]
  rfl

theorem scoreCategories_eq_scoresOfTally {α : Type} [Arithmetic α] (policy : Policy α) :
    scoreCategories policy issues = scoresOfTally policy (tally issues) := by
  refine List.map_congr_left fun c _ => ?_
  simp only [← countOf_filter_category, sum_countOf]
  rfl

/-- Two lists with as many issues of each category and severity have the same counts, the same
scores, the same overall score and the same verdict, under every policy and in every arithmetic. -/
theorem tally_determines_verdict {α : Type} [Arithmetic α] (policy : Policy α)
    {issues₁ issues₂ : List Issue}
    (htally : ∀ category severity,
      tally issues₁ category severity = tally issues₂ category severity) :
    scoreCategories policy issues₁ = scoreCategories policy issues₂ ∧
      Counts.ofIssues issues₁ = Counts.ofIssues issues₂ ∧
      overallScore (scoreCategories policy issues₁) =
        overallScore (scoreCategories policy issues₂) ∧
      Verdict.classify (overallScore (scoreCategories policy issues₁))
          (Counts.ofIssues issues₁).critical (Counts.ofIssues issues₁).high =
        Verdict.classify (overallScore (scoreCategories policy issues₂))
          (Counts.ofIssues issues₂).critical (Counts.ofIssues issues₂).high := by
  have htally : tally issues₁ = tally issues₂ := by
    funext category severity
    exact htally category severity
  have hscores : scoreCategories policy issues₁ = scoreCategories policy issues₂ := by
    rw [scoreCategories_eq_scoresOfTally, scoreCategories_eq_scoresOfTally, htally]
  have hcounts : Counts.ofIssues issues₁ = Counts.ofIssues issues₂ := by
    rw [Counts.ofIssues_eq_ofTally, Counts.ofIssues_eq_ofTally, htally]
  exact ⟨hscores, hcounts, by rw [hscores], by rw [hscores, hcounts]⟩

/-- Deductions that add up to another number in another order. -/
def unevenDeductions : Policy Float where
  categories := [⟨.security, 0.6⟩, ⟨.maintainability, 0.4⟩]
  deduction
    | _, .critical => 4.0
    | _, .high => 0.1
    | _, .medium => 0.2
    | _, .low => 0.3

/-- Four issues, from the gravest on. -/
def gravestFirst : List Issue :=
  [⟨"sql-injection", "SQL Injection", .security, .high, .ofNat 7, "a", none, none⟩,
    ⟨"eval-usage", "Eval", .security, .medium, .ofNat 3, "b", none, none⟩,
    ⟨"weak-hash", "Hash", .security, .low, .ofNat 9, "c", none, none⟩,
    ⟨"naming-convention", "Naming", .maintainability, .low, .ofNat 1, "d", none, none⟩]

/-- As many issues of each kind, in another order, found by one rule on no line. -/
def gravestLast : List Issue :=
  [(.maintainability, .low), (.security, .low), (.security, .medium), (.security, .high)].map
    fun kind => ⟨"other", "Other", kind.1, kind.2, .ofNat 0, "", none, none⟩

/-- The deductions differ when they are added up in the order of the issues, and the scores do
not. -/
theorem gravestLast_scores :
    (0.1 + 0.2 + 0.3 : Float) ≠ 0.3 + 0.2 + 0.1 ∧
      (∀ category severity,
        tally gravestFirst category severity = tally gravestLast category severity) ∧
      scoreCategories unevenDeductions gravestFirst =
        scoreCategories unevenDeductions gravestLast := by
  have htally : ∀ category severity,
      tally gravestFirst category severity = tally gravestLast category severity := by
    intro category severity
    cases category <;> cases severity <;> decide
  exact ⟨by decide +kernel, htally, (tally_determines_verdict unevenDeductions htally).1⟩

end CodeGrade
