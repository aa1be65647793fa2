import CodeGrade.Score.Verdict
import Mathlib

/-!
# Scores in exact arithmetic

What the functions on scores compute when no number is rounded but by `roundScore`. A category's
score is a number of hundredths between zero and ten. The weights may miss one by a small tolerance,
so the weighted sum of the scores may leave their range; rounding to hundredths brings it back, and
the bounds that the overall score is kept in are never needed.

## Main definitions

* `Policy.Acceptable`: what is asked of weights and points.
* `Hundredths`: a number of hundredths.
* `OverallWithin`: scores whose overall score is their rounded sum and lies between them.
-/

namespace CodeGrade

open Arithmetic (clamp smaller larger)

/-! ### The operations -/

theorem roundScore_eq (x : ℚ) : roundScore x = (⌊100 * x + 1 / 2⌋ : ℚ) / 100 := by
  rw [mul_comm]
  rfl

theorem clamp_eq {low high : ℚ} (h : low ≤ high) (x : ℚ) :
    clamp low high x = max low (min high x) := by
  have hclamp : clamp low high x = if x < low then low else if high < x then high else x := by
    simp only [clamp, Arithmetic.lt, decide_eq_true_eq]
  rw [hclamp]
  grind

theorem smaller_eq (a b : ℚ) : smaller a b = min a b := by
  simp only [smaller, Arithmetic.lt, decide_eq_true_eq]
  grind

theorem larger_eq (a b : ℚ) : larger a b = max a b := by
  simp only [larger, Arithmetic.lt, decide_eq_true_eq]
  grind

theorem deductionSum_eq (points : Severity → ℚ) (counts : Counts) :
    deductionSum points counts = counts.critical * points .critical + counts.high * points .high +
      counts.medium * points .medium + counts.low * points .low := by
  have hfold : deductionSum points counts = 0 + counts.critical * points .critical +
      counts.high * points .high + counts.medium * points .medium + counts.low * points .low := by
    rfl
  rw [hfold, zero_add]

theorem weightedSum_eq (scores : List (CategoryScore ℚ)) :
    weightedSum scores = (scores.map fun s => s.score * s.weight).sum := by
  rw [List.sum_eq_foldl, List.foldl_map]
  rfl

theorem scoreOfCounts_eq (points : Severity → ℚ) (counts : Counts) :
    scoreOfCounts points counts =
      roundScore (max 0 (min 10 (10 - deductionSum points counts))) := by
  rw [scoreOfCounts, ← clamp_eq (by norm_num)]
  rfl

/-- The overall score in terms of the lowest and the highest score. -/
theorem overallScore_eq {scores : List (CategoryScore ℚ)} {low high : ℚ}
    (hlow : (scores.map (·.score)).min? = some low)
    (hhigh : (scores.map (·.score)).max? = some high) :
    overallScore scores =
      max 0 (min 10 (max low (min high (roundScore (weightedSum scores))))) := by
  cases scores with
  | nil => simp at hlow
  | cons first rest =>
    have hle : low ≤ high :=
      (List.min?_eq_some_iff.1 hlow).2 high (List.max?_eq_some_iff.1 hhigh).1
    have hfoldLow : rest.foldl (fun low s => smaller low s.score) first.score = low := by
      simp only [List.map_cons, List.min?_cons', List.foldl_map, Option.some_inj] at hlow
      simpa only [smaller_eq] using hlow
    have hfoldHigh : rest.foldl (fun high s => larger high s.score) first.score = high := by
      simp only [List.map_cons, List.max?_cons', List.foldl_map, Option.some_inj] at hhigh
      simpa only [larger_eq] using hhigh
    rw [← clamp_eq hle, ← clamp_eq (by norm_num), overallScore, hfoldLow, hfoldHigh]
    rfl

/-! ### Rounding -/

/-- The number is a whole number of hundredths. -/
def Hundredths (x : ℚ) : Prop := ∃ n : ℤ, x = n / 100

theorem hundredths_roundScore (x : ℚ) : Hundredths (roundScore x) := ⟨_, roundScore_eq x⟩

theorem roundScore_mono {x y : ℚ} (h : x ≤ y) : roundScore x ≤ roundScore y := by
  rw [roundScore_eq, roundScore_eq]
  gcongr

/-- Rounding does not go below a number of hundredths that is missed by less than half of one. -/
theorem Hundredths.le_roundScore {low x : ℚ} (hlow : Hundredths low) (h : low - 1 / 200 ≤ x) :
    low ≤ roundScore x := by
  obtain ⟨n, rfl⟩ := hlow
  have hfloor : n ≤ ⌊100 * x + 1 / 2⌋ := Int.le_floor.2 (by linarith)
  rw [roundScore_eq]
  gcongr

/-- Rounding does not go above a number of hundredths that is exceeded by less than half of one. -/
theorem Hundredths.roundScore_le {high x : ℚ} (hhigh : Hundredths high) (h : x < high + 1 / 200) :
    roundScore x ≤ high := by
  obtain ⟨n, rfl⟩ := hhigh
  have hfloor : ⌊100 * x + 1 / 2⌋ < n + 1 := Int.floor_lt.2 (by push_cast; linarith)
  have hfloor := Int.lt_add_one_iff.1 hfloor
  rw [roundScore_eq]
  gcongr

/-! ### Scores of categories -/

theorem scoreOfCounts_range (points : Severity → ℚ) (counts : Counts) :
    0 ≤ scoreOfCounts points counts ∧ scoreOfCounts points counts ≤ 10 := by
  rw [scoreOfCounts_eq]
  have hlow : (0 : ℚ) ≤ max 0 (min 10 (10 - deductionSum points counts)) := le_max_left _ _
  have hhigh : max 0 (min 10 (10 - deductionSum points counts)) ≤ (10 : ℚ) :=
    max_le (by norm_num) (min_le_left _ _)
  constructor
  · exact Hundredths.le_roundScore ⟨0, by norm_num⟩ (by linarith)
  · exact Hundredths.roundScore_le ⟨1000, by norm_num⟩ (by linarith)

theorem score_of_mem {policy : Policy ℚ} {issues : List Issue} :
    ∀ s ∈ scoreCategories policy issues, (0 ≤ s.score ∧ s.score ≤ 10) ∧ Hundredths s.score := by
  intro s hs
  obtain ⟨weight, -, rfl⟩ := List.mem_map.1 hs
  exact ⟨scoreOfCounts_range _ _, hundredths_roundScore _⟩

theorem map_weight_scoreCategories (policy : Policy ℚ) (issues : List Issue) :
    (scoreCategories policy issues).map (·.weight) = policy.categories.map (·.weight) := by
  rw [scoreCategories, List.map_map]
  rfl

/-! ### The overall score -/

/-- What is asked of weights and points: the weights are positive, none above one, and they add up
to one with a small tolerance; no points are negative. -/
structure Policy.Acceptable (policy : Policy ℚ) : Prop where
  weights : ∀ w ∈ policy.categories, 0 < w.weight ∧ w.weight ≤ 1
  sum : |(policy.categories.map (·.weight)).sum - 1| ≤ 1 / 10 ^ 9
  deductions : ∀ category severity, 0 ≤ policy.deduction category severity

/-- The weighted sum of scores lies between the bounds of the scores, each multiplied by the sum of
the weights. -/
theorem weightedSum_between {scores : List (CategoryScore ℚ)} {low high : ℚ}
    (hweights : ∀ s ∈ scores, 0 ≤ s.weight)
    (hscores : ∀ s ∈ scores, low ≤ s.score ∧ s.score ≤ high) :
    low * (scores.map (·.weight)).sum ≤ weightedSum scores ∧
      weightedSum scores ≤ high * (scores.map (·.weight)).sum := by
  rw [weightedSum_eq, ← List.sum_map_mul_left, ← List.sum_map_mul_left]
  constructor
  · refine List.sum_le_sum fun s hs => ?_
    exact mul_le_mul_of_nonneg_right (hscores s hs).1 (hweights s hs)
  · refine List.sum_le_sum fun s hs => ?_
    exact mul_le_mul_of_nonneg_right (hscores s hs).2 (hweights s hs)

/-- The tolerance of the weights moves no score by half a hundredth. -/
theorem abs_mul_sub_lt {sum x : ℚ} (hsum : |sum - 1| ≤ 1 / 10 ^ 9) (hx : 0 ≤ x ∧ x ≤ 10) :
    |x * sum - x| < 1 / 200 := by
  have hfactor : x * sum - x = x * (sum - 1) := by ring
  rw [hfactor, abs_mul, abs_of_nonneg hx.1]
  calc x * |sum - 1| ≤ 10 * (1 / 10 ^ 9) :=
        mul_le_mul hx.2 hsum (abs_nonneg _) (by norm_num)
    _ < 1 / 200 := by norm_num

/-- Scores whose overall score is their weighted sum, rounded, and lies between the lowest and the
highest of them. -/
structure OverallWithin (scores : List (CategoryScore ℚ)) : Prop where
  range : ∀ s ∈ scores, (0 ≤ s.score ∧ s.score ≤ 10) ∧ Hundredths s.score
  overall : overallScore scores =
    (⌊100 * (scores.map fun s => s.score * s.weight).sum + 1 / 2⌋ : ℚ) / 100
  hundredths : Hundredths (overallScore scores)
  lowest : ∃ s ∈ scores, (∀ t ∈ scores, s.score ≤ t.score) ∧ s.score ≤ overallScore scores
  highest : ∃ s ∈ scores, (∀ t ∈ scores, t.score ≤ s.score) ∧ overallScore scores ≤ s.score

theorem overallWithin_of_sum {scores : List (CategoryScore ℚ)}
    (hrange : ∀ s ∈ scores, (0 ≤ s.score ∧ s.score ≤ 10) ∧ Hundredths s.score)
    (hweights : ∀ s ∈ scores, 0 ≤ s.weight)
    (hsum : |(scores.map (·.weight)).sum - 1| ≤ 1 / 10 ^ 9) : OverallWithin scores := by
  have hne : scores.map (·.score) ≠ [] := by
    intro hnil
    rw [List.map_eq_nil_iff.1 hnil] at hsum
    norm_num at hsum
  obtain ⟨low, hlow⟩ := Option.isSome_iff_exists.1 (List.isSome_min?_of_ne_nil hne)
  obtain ⟨high, hhigh⟩ := Option.isSome_iff_exists.1 (List.isSome_max?_of_ne_nil hne)
  obtain ⟨hlowMem, hlowest⟩ := List.min?_eq_some_iff.1 hlow
  obtain ⟨hhighMem, hhighest⟩ := List.max?_eq_some_iff.1 hhigh
  obtain ⟨s, hs, rfl⟩ := List.mem_map.1 hlowMem
  obtain ⟨t, ht, rfl⟩ := List.mem_map.1 hhighMem
  have hbelow : ∀ u ∈ scores, s.score ≤ u.score := fun u hu => hlowest _ (List.mem_map_of_mem hu)
  have habove : ∀ u ∈ scores, u.score ≤ t.score := fun u hu => hhighest _ (List.mem_map_of_mem hu)
  obtain ⟨hsumBelow, hsumAbove⟩ :=
    weightedSum_between hweights fun u hu => ⟨hbelow u hu, habove u hu⟩
  have hslackLow := abs_lt.1 (abs_mul_sub_lt hsum (hrange s hs).1)
  have hslackHigh := abs_lt.1 (abs_mul_sub_lt hsum (hrange t ht).1)
  have hroundLow : s.score ≤ roundScore (weightedSum scores) :=
    (hrange s hs).2.le_roundScore (by linarith)
  have hroundHigh : roundScore (weightedSum scores) ≤ t.score :=
    (hrange t ht).2.roundScore_le (by linarith)
  have hoverall : overallScore scores = roundScore (weightedSum scores) := by
    rw [overallScore_eq hlow hhigh, min_eq_right hroundHigh, max_eq_right hroundLow,
      min_eq_right (hroundHigh.trans (hrange t ht).1.2),
      max_eq_right ((hrange s hs).1.1.trans hroundLow)]
  constructor
  case range => exact hrange
  case overall => rw [hoverall, roundScore_eq, weightedSum_eq]
  case hundredths => exact hoverall ▸ hundredths_roundScore _
  case lowest => exact ⟨s, hs, hbelow, hoverall ▸ hroundLow⟩
  case highest => exact ⟨t, ht, habove, hoverall ▸ hroundHigh⟩

/-- Under an acceptable policy the scores are hundredths between zero and ten, and the overall score
needs no bounds. -/
theorem overallScore_within {policy : Policy ℚ} (hpolicy : policy.Acceptable)
    (issues : List Issue) : OverallWithin (scoreCategories policy issues) := by
  refine overallWithin_of_sum score_of_mem (fun s hs => ?_) ?_
  · obtain ⟨weight, hweight, rfl⟩ := List.mem_map.1 hs
    exact (hpolicy.weights weight hweight).1.le
  · rw [map_weight_scoreCategories]
    exact hpolicy.sum

/-- A policy whose weights exceed one by the whole tolerance. -/
def heavyPolicy : Policy ℚ where
  categories :=
    [⟨.structural, 1 / 5 + 1 / 10 ^ 9⟩, ⟨.errorHandling, 1 / 5⟩, ⟨.performance, 3 / 20⟩,
      ⟨.security, 3 / 20⟩, ⟨.maintainability, 3 / 20⟩, ⟨.bestPractices, 3 / 20⟩]
  deduction
    | _, .critical => 4
    | _, .high => 2
    | _, .medium => 1
    | _, .low => 3 / 10

theorem heavyPolicy_acceptable : heavyPolicy.Acceptable := by
  constructor
  case weights =>
    intro w hw
    simp only [heavyPolicy, List.mem_cons, List.not_mem_nil, or_false] at hw
    rcases hw with rfl | rfl | rfl | rfl | rfl | rfl <;> norm_num
  case sum =>
    simp only [heavyPolicy, List.map_cons, List.map_nil, List.sum_cons, List.sum_nil]
    norm_num
  case deductions =>
    intro category severity
    cases severity <;> norm_num [heavyPolicy]

/-- The weighted sum of the best scores is above all of them, and the overall score is not. -/
theorem heavyPolicy_overall : heavyPolicy.Acceptable ∧
    10 < weightedSum (scoreCategories heavyPolicy []) ∧
    OverallWithin (scoreCategories heavyPolicy []) :=
  ⟨heavyPolicy_acceptable, by decide +kernel, overallScore_within heavyPolicy_acceptable []⟩

end CodeGrade
