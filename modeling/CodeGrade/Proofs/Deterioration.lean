import CodeGrade.Proofs.Accepting
import CodeGrade.Proofs.ExactScore
import CodeGrade.Proofs.ExactValue
import Mathlib

/-!
# More issues never help

In exact arithmetic an issue that is added to a list takes points from its category and gives none
to any other, so the scores, the verdict and the gate can only get worse. The overall score is kept
between the lowest and the highest score, and both of these bounds move down with the scores.

## Main definitions

* `Policy.Nonneg`: weights and points are not negative.
* `NoBetter`: a list of issues is judged no better than another.
-/

namespace CodeGrade

/-! ### Counting issues -/

theorem Counts.get_le_of_sublist {fewer more : List Issue} (h : fewer.Sublist more)
    (severity : Severity) :
    (Counts.ofIssues fewer).get severity ≤ (Counts.ofIssues more).get severity := by
  rw [get_ofIssues, get_ofIssues]
  exact Int.ofNat_le.2 h.countP_le

/-! ### Scores -/

theorem deductionSum_mono {points : Severity → ℚ} (hpoints : ∀ severity, 0 ≤ points severity)
    {a b : Counts} (h : ∀ severity, a.get severity ≤ b.get severity) :
    deductionSum points a ≤ deductionSum points b := by
  have hterm : ∀ severity, (a.get severity : ℚ) * points severity ≤
      b.get severity * points severity := by
    intro severity
    apply mul_le_mul_of_nonneg_right _ (hpoints severity)
    exact Int.cast_le.2 (h severity)
  rw [deductionSum_eq, deductionSum_eq]
  exact add_le_add (add_le_add (add_le_add (hterm .critical) (hterm .high)) (hterm .medium))
    (hterm .low)

theorem scoreOfCounts_anti {points : Severity → ℚ} (hpoints : ∀ severity, 0 ≤ points severity)
    {a b : Counts} (h : ∀ severity, a.get severity ≤ b.get severity) :
    scoreOfCounts points b ≤ scoreOfCounts points a := by
  have hsum := deductionSum_mono hpoints h
  rw [scoreOfCounts_eq, scoreOfCounts_eq]
  apply roundScore_mono
  gcongr

/-- Weights and points are not negative. -/
structure Policy.Nonneg (policy : Policy ℚ) : Prop where
  weights : ∀ w ∈ policy.categories, 0 ≤ w.weight
  deductions : ∀ category severity, 0 ≤ policy.deduction category severity

theorem scoreCategory_anti {policy : Policy ℚ} (hpolicy : policy.Nonneg)
    {fewer more : List Issue} (h : fewer.Sublist more) (w : CategoryWeight ℚ) :
    (scoreCategory policy more w).score ≤ (scoreCategory policy fewer w).score := by
  apply scoreOfCounts_anti (hpolicy.deductions w.category)
  exact Counts.get_le_of_sublist (h.filter _)

/-- The overall score does not rise when no score does. The lowest and the highest score, between
which it is kept, do not rise either. -/
theorem overallScore_mono {ι : Type} {items : List ι} {f g : ι → CategoryScore ℚ}
    (hweight : ∀ i ∈ items, (f i).weight = (g i).weight ∧ 0 ≤ (g i).weight)
    (hscore : ∀ i ∈ items, (f i).score ≤ (g i).score) :
    overallScore (items.map f) ≤ overallScore (items.map g) := by
  rcases eq_or_ne items [] with rfl | hne
  · exact le_refl _
  have hsome : ∀ k : ι → CategoryScore ℚ, (items.map k).map (·.score) ≠ [] := by
    intro k hnil
    exact hne (List.map_eq_nil_iff.1 (List.map_eq_nil_iff.1 hnil))
  obtain ⟨low, hlow⟩ := Option.isSome_iff_exists.1 (List.isSome_min?_of_ne_nil (hsome f))
  obtain ⟨high, hhigh⟩ := Option.isSome_iff_exists.1 (List.isSome_max?_of_ne_nil (hsome f))
  obtain ⟨low', hlow'⟩ := Option.isSome_iff_exists.1 (List.isSome_min?_of_ne_nil (hsome g))
  obtain ⟨high', hhigh'⟩ := Option.isSome_iff_exists.1 (List.isSome_max?_of_ne_nil (hsome g))
  have hlowest : low ≤ low' := by
    obtain ⟨s, hs, rfl⟩ := List.mem_map.1 (List.min?_eq_some_iff.1 hlow').1
    obtain ⟨i, hi, rfl⟩ := List.mem_map.1 hs
    have hbelow : low ≤ (f i).score := by
      apply (List.min?_eq_some_iff.1 hlow).2
      exact List.mem_map_of_mem (List.mem_map_of_mem hi)
    exact hbelow.trans (hscore i hi)
  have hhighest : high ≤ high' := by
    obtain ⟨s, hs, rfl⟩ := List.mem_map.1 (List.max?_eq_some_iff.1 hhigh).1
    obtain ⟨i, hi, rfl⟩ := List.mem_map.1 hs
    have habove : (g i).score ≤ high' := by
      apply (List.max?_eq_some_iff.1 hhigh').2
      exact List.mem_map_of_mem (List.mem_map_of_mem hi)
    exact (hscore i hi).trans habove
  have hsum : weightedSum (items.map f) ≤ weightedSum (items.map g) := by
    rw [weightedSum_eq, weightedSum_eq, List.map_map, List.map_map]
    refine List.sum_le_sum fun i hi => ?_
    simp only [Function.comp_apply, (hweight i hi).1]
    exact mul_le_mul_of_nonneg_right (hscore i hi) (hweight i hi).2
  have hround := roundScore_mono hsum
  rw [overallScore_eq hlow hhigh, overallScore_eq hlow' hhigh']
  gcongr

theorem overallScore_anti {policy : Policy ℚ} (hpolicy : policy.Nonneg)
    {fewer more : List Issue} (h : fewer.Sublist more) :
    overallScore (scoreCategories policy more) ≤ overallScore (scoreCategories policy fewer) := by
  apply overallScore_mono
  · intro w hw
    exact ⟨rfl, hpolicy.weights w hw⟩
  · intro w hw
    exact scoreCategory_anti hpolicy h w

/-! ### Verdicts and gates -/

theorem rank_levelOf_mono {x y : ℚ} (hxy : x ≤ y) {m n : ℤ} (hnm : n ≤ m) :
    (levelOf x m).rank ≤ (levelOf y n).rank := by
  simp only [levelOf, Arithmetic.lt, Arithmetic.ofInt, decide_eq_true_eq]
  grind [Level.rank]

theorem passesGate_iff {overall minScore : ℚ} {counts : Counts} :
    passesGate overall counts minScore = true ↔ minScore ≤ overall ∧ counts.critical = 0 := by
  simp [passesGate, Arithmetic.le]

/-- The first list of issues is judged no better than the second: by the score of any category, the
overall score, the level of the verdict, or a gate. -/
structure NoBetter (policy : Policy ℚ) (more fewer : List Issue) : Prop where
  categories : List.Forall₂ (fun s t => s.category = t.category ∧ s.score ≤ t.score)
    (scoreCategories policy more) (scoreCategories policy fewer)
  overall : overallScore (scoreCategories policy more) ≤
    overallScore (scoreCategories policy fewer)
  level :
    (Verdict.classify (overallScore (scoreCategories policy more))
      (Counts.ofIssues more).critical (Counts.ofIssues more).high).level.rank ≤
    (Verdict.classify (overallScore (scoreCategories policy fewer))
      (Counts.ofIssues fewer).critical (Counts.ofIssues fewer).high).level.rank
  gate : ∀ minScore,
    passesGate (overallScore (scoreCategories policy more)) (Counts.ofIssues more) minScore →
    passesGate (overallScore (scoreCategories policy fewer)) (Counts.ofIssues fewer) minScore

theorem noBetter_of_sublist {policy : Policy ℚ} (hpolicy : policy.Nonneg)
    {fewer more : List Issue} (h : fewer.Sublist more) : NoBetter policy more fewer := by
  have hoverall := overallScore_anti hpolicy h
  have hcritical := Counts.get_le_of_sublist h .critical
  constructor
  case categories =>
    rw [scoreCategories, scoreCategories, List.forall₂_map_left_iff, List.forall₂_map_right_iff,
      List.forall₂_same]
    intro w _
    exact ⟨rfl, scoreCategory_anti hpolicy h w⟩
  case overall => exact hoverall
  case level => exact rank_levelOf_mono hoverall hcritical
  case gate =>
    intro minScore hgate
    obtain ⟨hscore, hnone⟩ := passesGate_iff.1 hgate
    have hnonneg : 0 ≤ (Counts.ofIssues fewer).critical := Int.natCast_nonneg _
    refine passesGate_iff.2 ⟨hscore.trans hoverall, ?_⟩
    change _ ≤ (Counts.ofIssues more).critical at hcritical
    exact le_antisymm (hnone ▸ hcritical) hnonneg

/-! ### Accepted configurations -/

theorem Catalog.policy_of_build {config : Option Json} {rules : List Rule} {catalog : Catalog}
    (h : Catalog.build config rules = .ok catalog) :
    catalog.policy.Finite ∧ catalog.policy.exact.Nonneg := by
  obtain ⟨-, c, hvalid, hproblems, rfl⟩ := Catalog.build_eq_ok.1 h
  have hweights := Configuration.resolvedWeights_range hproblems
  have hdeductions := Configuration.resolvedDeduction_proper hvalid
  constructor
  · constructor
    case weights =>
      intro w hw
      exact Decimal.isFinite_of_range (hweights w hw).1 (hweights w hw).2
    case deductions =>
      intro category severity
      exact (hdeductions category severity).isFinite
  · constructor
    case weights =>
      intro w hw
      obtain ⟨weight, hweight, rfl⟩ := List.mem_map.1 hw
      exact Decimal.exact_nonneg_of_pos (hweights weight hweight).1
    case deductions =>
      intro category severity
      exact Decimal.exact_nonneg_of_not_lt (hdeductions category severity).not_neg

/-- Under the policy of an accepted configuration, with all its numbers taken exactly, issues are
judged no better for an issue that is added anywhere. -/
theorem extra_issue_never_improves {config : Option Json} {rules : List Rule} {catalog : Catalog}
    (h : Catalog.build config rules = .ok catalog) :
    catalog.policy.Finite ∧ ∀ before extra after,
      NoBetter catalog.policy.exact (before ++ extra :: after) (before ++ after) := by
  obtain ⟨hfinite, hnonneg⟩ := Catalog.policy_of_build h
  refine ⟨hfinite, fun before extra after => noBetter_of_sublist hnonneg ?_⟩
  exact (List.sublist_cons_self extra after).append_left before

/-- A configuration in which low issues cost half a hundredth, and nothing in one category. -/
def lenientDeductions : Json :=
  .object [("deductions", .object [("low", .number 0.005),
    ("categories", .object [("performance", .object [("low", .number 0.0)])])])]

/-- A low issue of a category. -/
def lowIssue (category : Category) : Issue where
  ruleId := "todo-comment"
  title := "TODO Comment"
  category
  severity := .low
  line := LineNumber.ofNat 1
  message := "TODO"

theorem lenientDeductions_noBetter : ∃ catalog,
    Catalog.build (some lenientDeductions) = .ok catalog ∧ catalog.policy.Finite ∧
      NoBetter catalog.policy.exact
        [lowIssue .performance, lowIssue .security, lowIssue .performance]
        [lowIssue .performance, lowIssue .performance] := by
  have haccepted : (Catalog.build (some lenientDeductions)).toOption.isSome = true := by
    decide +kernel
  obtain ⟨catalog, hcatalog⟩ := Option.isSome_iff_exists.1 haccepted
  have hbuild := toOption_eq_some.1 hcatalog
  obtain ⟨hfinite, hworse⟩ := extra_issue_never_improves hbuild
  exact ⟨catalog, hbuild, hfinite,
    hworse [lowIssue .performance] (lowIssue .security) [lowIssue .performance]⟩

end CodeGrade
