import CodeGrade.Proofs.Defined
import CodeGrade.Proofs.Independence
import Mathlib

/-!
# Reports agree with themselves

A report says most things more than once: its issues are counted by severity and by category, and
its verdict repeats two of the counts and sums up the score. Whatever the rules of a catalog do, all
of this agrees with the list of issues, and the list is in order.

## Main definitions

* `Issue.InOrder`: the order of the issues in a report.
* `Report.Consistent`: a report whose parts agree.
-/

namespace CodeGrade

/-- The first issue is graver than the second, or as grave and not on a later line. -/
def Issue.InOrder (a b : Issue) : Prop :=
  a.severity.rank < b.severity.rank ∨
    a.severity.rank = b.severity.rank ∧ a.line.le b.line = true

/-- The parts of the report agree. -/
structure Report.Consistent (report : Report) : Prop where
  categories : report.categories.map (·.category.id) =
    ["structure", "error-handling", "performance", "security", "maintainability", "best-practices"]
  counts : ∀ severity, report.counts.get severity =
    (report.issues.filter (·.severity = severity)).length
  counts_sum : report.counts.critical + report.counts.high + report.counts.medium +
    report.counts.low = report.issues.length
  issueCounts : ∀ s ∈ report.categories,
    s.issueCount = (report.issues.filter (·.category = s.category)).length
  issueCounts_sum : (report.categories.map (·.issueCount)).sum = report.issues.length
  criticalCount : report.verdict.criticalCount = report.counts.critical
  highCount : report.verdict.highCount = report.counts.high
  notReady : report.verdict.level = .notReady ↔
    ∃ issue ∈ report.issues, issue.severity = .critical
  productionReady : report.verdict.productionReady = true ↔
    (∀ issue ∈ report.issues, issue.severity ≠ .critical) ∧ 7.0 ≤ report.overall
  sorted : report.issues.Pairwise Issue.InOrder

/-! ### Counting -/

/-- Counting the elements with each value of a key counts every element once. -/
theorem sum_map_countP {α κ : Type} [DecidableEq κ] (key : α → κ) {keys : List κ}
    (hnodup : keys.Nodup) (hmem : ∀ k, k ∈ keys) (l : List α) :
    (keys.map fun k => l.countP (key · = k)).sum = l.length := by
  have hcount : ∀ k, l.countP (key · = k) = (l.map key : Multiset κ).count k := by
    intro k
    rw [Multiset.coe_count, List.count, List.countP_map]
    exact List.countP_congr fun a _ => by simp
  calc (keys.map fun k => l.countP (key · = k)).sum
    _ = ∑ k ∈ keys.toFinset, l.countP (key · = k) := (List.sum_toFinset _ hnodup).symm
    _ = ∑ k ∈ keys.toFinset, (l.map key : Multiset κ).count k := by simp only [hcount]
    _ = (l.map key : Multiset κ).card := Multiset.sum_count_eq_card (by simp [hmem])
    _ = l.length := by simp

theorem sum_countOf (issues : List Issue) :
    (Severity.all.map (countOf issues)).sum = issues.length :=
  sum_map_countP Issue.severity (by decide) Severity.mem_all issues

theorem sum_category (issues : List Issue) :
    (Category.all.map fun category => issues.countP (·.category = category)).sum =
      issues.length :=
  sum_map_countP Issue.category (by decide) Category.mem_all issues

theorem countOf_pos {issues : List Issue} {severity : Severity} :
    0 < countOf issues severity ↔ ∃ issue ∈ issues, issue.severity = severity := by
  simp [countOf, List.countP_pos_iff]

/-! ### Verdicts -/

/-- A score says of code that it is poor at worst. -/
theorem levelOf_eq_notReady {α : Type} [Arithmetic α] {overall : α} {criticalCount : ℤ} :
    levelOf overall criticalCount = .notReady ↔ 0 < criticalCount := by
  rw [levelOf]
  grind

theorem isReady_levelOf {overall : Float} (hoverall : 0.0 ≤ overall) {criticalCount : ℤ} :
    (levelOf overall criticalCount).isReady = true ↔ ¬0 < criticalCount ∧ 7.0 ≤ overall := by
  have hfive : Decimal.Binary64.ofFloat (Arithmetic.ofInt 5) =
      .finite false (5 * 2 ^ 50) (-50) := by
    decide +kernel
  have hseven : Decimal.Binary64.ofFloat (Arithmetic.ofInt 7) =
      .finite false (7 * 2 ^ 50) (-50) := by
    decide +kernel
  have hfair : overall < Arithmetic.ofInt 5 → overall < Arithmetic.ofInt 7 :=
    Decimal.lt_of_lt_of_mantissa_le (by decide) (by decide) hfive hseven
  have hready : 7.0 ≤ overall ↔ ¬overall < Arithmetic.ofInt 7 :=
    (Decimal.not_lt_iff_le hoverall (count_nonneg 7)).symm
  have hlt : ∀ bound : Float, Arithmetic.lt overall bound = true ↔ overall < bound := by
    intro bound
    exact decide_eq_true_iff
  simp only [levelOf, hready, hlt]
  split_ifs <;> simp_all [Level.isReady]

/-! ### Order -/

theorem LineNumber.le_ofNat (m n : ℕ) :
    (LineNumber.ofNat m).le (LineNumber.ofNat n) = decide (m ≤ n) := by
  simp [LineNumber.le, LineNumber.ofNat]

theorem hasLine_of_evaluate {catalog : Catalog} {c : Context} :
    ∀ issue ∈ evaluate catalog c, c.HasLine issue.line := by
  intro issue hissue
  obtain ⟨entry, -, hissue⟩ := mem_evaluate.1 hissue
  exact (CatalogEntry.reports_iff.2 rfl).hasLine issue hissue

theorem pairwise_inOrder (catalog : Catalog) (c : Context) :
    (evaluate catalog c).Pairwise Issue.InOrder := by
  have hsorted : (evaluate catalog c).Pairwise fun a b =>
      a.severity.rank < b.severity.rank ∨
        a.severity.rank = b.severity.rank ∧ a.line.toNat ≤ b.line.toNat := by
    rw [evaluate_eq_sortedBy, List.pairwise_map]
    have hkeys : (sortedBy RankedIssue.key (catalog.entries.flatMap (·.ranked c))).Pairwise
        fun a b => a.key ≤ b.key ∧ (a.key = b.key → True) :=
      pairwise_sortedBy (List.pairwise_of_forall fun _ _ => trivial)
    refine hkeys.imp fun {a b} hle => ?_
    have hle := hle.1
    simp only [RankedIssue.key, Prod.Lex.toLex_le_toLex] at hle
    omega
  -- The keys compare lines as natural numbers, and such are the lines of all issues.
  refine hsorted.imp_of_mem fun {a b} ha hb hle => ?_
  obtain ⟨m, -, hm⟩ := hasLine_of_evaluate a ha
  obtain ⟨n, -, hn⟩ := hasLine_of_evaluate b hb
  rw [hm, hn, LineNumber.toNat_ofNat, LineNumber.toNat_ofNat] at hle
  rwa [Issue.InOrder, hm, hn, LineNumber.le_ofNat, decide_eq_true_iff]

/-! ### Reports -/

theorem consistent_ofIssues {policy : Policy Float} {issues : List Issue}
    (hcategories : policy.categories.map (·.category) = Category.all)
    (hoverall : 0.0 ≤ overallScore (scoreCategories policy issues))
    (hsorted : issues.Pairwise Issue.InOrder) (source : String) (metrics : Metrics) :
    (Report.ofIssues source issues metrics policy).Consistent := by
  have hmap : ∀ {β : Type} (f : Category → β),
      (policy.categories.map fun w => f w.category) = Category.all.map f := by
    intro β f
    rw [← hcategories, List.map_map]
    rfl
  constructor
  case categories =>
    simp only [Report.ofIssues, scoreCategories, List.map_map]
    exact hmap Category.id
  case counts =>
    intro severity
    rw [Report.ofIssues, Counts.get_ofIssues, countOf, List.countP_eq_length_filter]
  case counts_sum =>
    have hsum := sum_countOf issues
    simp only [Severity.all, List.map_cons, List.map_nil, List.sum_cons, List.sum_nil] at hsum
    simp only [Report.ofIssues, Counts.ofIssues]
    omega
  case issueCounts =>
    intro s hs
    obtain ⟨w, -, rfl⟩ := List.mem_map.1 hs
    rfl
  case issueCounts_sum =>
    simp only [Report.ofIssues, scoreCategories, List.map_map]
    calc _ = (Category.all.map fun category =>
            ((issues.filter (·.category = category)).length : ℤ)).sum :=
          congrArg List.sum (hmap fun category =>
            ((issues.filter (·.category = category)).length : ℤ))
      _ = ((Category.all.map fun category => issues.countP (·.category = category)).sum : ℕ) := by
          simp only [List.countP_eq_length_filter, Nat.cast_list_sum, List.map_map]
          rfl
      _ = issues.length := by rw [sum_category]
  case criticalCount => rfl
  case highCount => rfl
  case notReady =>
    change levelOf _ (countOf issues .critical : ℤ) = .notReady ↔
      ∃ issue ∈ issues, issue.severity = .critical
    rw [levelOf_eq_notReady, Int.natCast_pos, countOf_pos]
  case productionReady =>
    change (levelOf _ (countOf issues .critical : ℤ)).isReady = true ↔
      (∀ issue ∈ issues, issue.severity ≠ .critical) ∧ _
    rw [isReady_levelOf hoverall, Int.natCast_pos, countOf_pos]
    simp only [not_exists, not_and, ne_eq]
    rfl
  case sorted => exact hsorted

theorem consistent_analyze {config : Option Json} {rules : List Rule} {catalog : Catalog}
    (hbuild : Catalog.build config rules = .ok catalog) (unit : SourceUnit) :
    (analyze unit catalog).Consistent := by
  have hcategories : catalog.policy.categories.map (·.category) = Category.all := by
    obtain ⟨-, c, -, -, rfl⟩ := Catalog.build_eq_ok.1 hbuild
    rfl
  have hoverall := Catalog.overallScore_nonneg hbuild
  rw [analyze]
  split
  · exact consistent_ofIssues hcategories (hoverall _) (pairwise_inOrder _ _) _ _
  · exact consistent_ofIssues hcategories (hoverall _) (List.pairwise_singleton _ _) _ _

theorem exists_tryAnalyze_iff {unit : SourceUnit} {catalog : Catalog} :
    (∃ report, tryAnalyze unit catalog = .ok report) ↔
      ∀ outline, Outline.ofUnit unit = .ok outline → ∀ entry ∈ catalog.entries, ∀ reason,
        entry.rule.check ⟨unit, outline, catalog.thresholds⟩ ≠ .error (.indescribable reason) := by
  cases houtline : Outline.ofUnit unit with
  | error fault => simp [tryAnalyze, houtline]
  | ok outline =>
    simp only [tryAnalyze, houtline, ok_bind_iff, tryEvaluate_eq_ok, Except.ok.injEq,
      forall_eq']
    constructor
    · rintro ⟨report, issues, ⟨hdescribed, -⟩, -⟩
      exact hdescribed
    · intro hdescribed
      exact ⟨_, _, ⟨hdescribed, rfl⟩, rfl⟩

/-- Under an accepted configuration, whatever the registered rules are, the parts of every report
agree. Only a rule that fails with something that cannot be described leaves a unit without a
report, and only one that can be taken apart. -/
theorem reports_consistent {config : Option Json} {rules : List Rule} {catalog : Catalog}
    (hbuild : Catalog.build config rules = .ok catalog) (unit : SourceUnit) :
    (∀ report, tryAnalyze unit catalog = .ok report → report.Consistent) ∧
      ((∃ report, tryAnalyze unit catalog = .ok report) ↔
        ∀ outline, Outline.ofUnit unit = .ok outline → ∀ entry ∈ catalog.entries, ∀ reason,
          entry.rule.check ⟨unit, outline, catalog.thresholds⟩ ≠
            .error (.indescribable reason)) := by
  refine ⟨fun report hreport => ?_, exists_tryAnalyze_iff⟩
  rw [eq_analyze_of_tryAnalyze hreport]
  exact consistent_analyze hbuild unit

/-- A rule that fails, and one that finds two things in the wrong order. -/
def unevenRules : List Rule := [
  ⟨"explodes", "Explodes", .security, .high, "Fails.", fun _ => .error (.failed "no reason")⟩,
  .ofCheck "backwards" "Backwards" .bestPractices .critical "Finds the first line and the file."
    fun _ => [⟨.ofNat 1, "found", none, none⟩, ⟨.ofNat 0, "found", none, none⟩]]

/-- Neither the failure nor the order of the findings shows in what the report says of itself. -/
theorem unevenRules_consistent : ∃ catalog report,
    Catalog.build none unevenRules = .ok catalog ∧ tryAnalyze oneFunction catalog = .ok report ∧
      report.Consistent := by
  have haccepted : (Catalog.build none unevenRules).toOption.isSome = true := by decide +kernel
  obtain ⟨catalog, hcatalog⟩ := Option.isSome_iff_exists.1 haccepted
  have hbuild := toOption_eq_some.1 hcatalog
  obtain ⟨hconsistent, hexists⟩ := reports_consistent hbuild oneFunction
  obtain ⟨report, hreport⟩ := hexists.2 fun outline _ entry hentry reason => by
    have hrule := Catalog.rule_mem_of_build hbuild entry hentry
    simp only [unevenRules, List.mem_cons, List.not_mem_nil, or_false] at hrule
    rcases hrule with hrule | hrule <;> simp [hrule, Rule.ofCheck]
  exact ⟨catalog, report, hbuild, hreport, hconsistent report hreport⟩

end CodeGrade
