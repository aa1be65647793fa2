import CodeGrade.Proofs.Accepting
import CodeGrade.Proofs.ReportOrder

/-!
# Independence of rule settings

What a configuration says of one rule shows in the issues of that rule and in the score of its
category. Everything else in a report stays as it is; without the rule, its issues are missing and
nothing moves.

## Main definitions

* `Configuration.AgreeExcept`: configurations that differ in the settings of one rule only.
* `Report.AgreeExcept`: reports that differ in what one rule contributes only.
* `Catalog.without`: a catalog without a rule.
-/

namespace CodeGrade

namespace Configuration

variable {a b : Configuration} {id : String}

end Configuration

/-! ### Issues of a rule -/

section Evaluation

variable {catalog : Catalog} {entry : CatalogEntry} {c : Context}

end Evaluation

/-! ### Scores of other categories -/

theorem eq_analyze_of_tryAnalyze {unit : SourceUnit} {catalog : Catalog} {report : Report}
    (h : tryAnalyze unit catalog = .ok report) : report = analyze unit catalog := by
  cases houtline : Outline.ofUnit unit with
  | error fault =>
    simp only [tryAnalyze, houtline] at h
    rw [← Except.ok.inj h, analyze, houtline]
  | ok outline =>
    simp only [tryAnalyze, houtline] at h
    obtain ⟨issues, hissues, hreport⟩ := ok_bind_iff.1 h
    rw [← Except.ok.inj hreport, (tryEvaluate_eq_ok.1 hissues).2, analyze, houtline]

section Report

variable {rules : List Rule} {rule : Rule} {a b : Configuration}

end Report

end CodeGrade
