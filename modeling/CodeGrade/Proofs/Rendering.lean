import CodeGrade.Proofs.Paths
import CodeGrade.Proofs.Rounding
import CodeGrade.Report.Analysis
import CodeGrade.Report.Markdown

/-!
# Rendering reports

A bar can only be drawn for a score that fits into it. The scores of a report do, under every
accepted configuration: they are from zero to ten after all roundings, and a bar has as many cells
as it should. So the document of such reports is always there, and its lines are those of its parts.

## Main definitions

* `Report.Proper`: a report whose scores fit into their bars.
* `textLines`: the lines of a document.
-/

namespace CodeGrade

/-! ### Bars -/

/-- What the bar has to know about the numbers up to twenty. -/
theorem ofNat_of_le {n : ℕ} (h : n ≤ 20) :
    ¬Float.ofNat n < 0.0 ∧ Decimal.nat? (Float.ofNat n) = some n ∧
      20.0 - Float.ofNat n = Float.ofNat (20 - n) := by
  have hall : ∀ k : Fin 21, ¬Float.ofNat k < 0.0 ∧ Decimal.nat? (Float.ofNat k) = some k.val ∧
      20.0 - Float.ofNat k = Float.ofNat (20 - k) := by
    decide +kernel
  exact hall ⟨n, by omega⟩

theorem cells_ofNat {n : ℕ} (h : n ≤ 20) (cell : Char) :
    cells cell (Float.ofNat n) = .ok (List.replicate n cell) := by
  obtain ⟨hnonneg, hnat, -⟩ := ofNat_of_le h
  have hroom : ¬n > maxTextLength := by
    have hmax : 20 ≤ maxTextLength := by decide
    omega
  rw [cells]
  split
  · rename_i hparts
    simp [Decimal.nat?, hparts] at hnat
  · rename_i hparts
    simp [Decimal.nat?, hparts] at hnat
  · rw [if_neg hnonneg, hnat]
    exact if_neg hroom

theorem normal_twenty : Decimal.Normal 20.0 20 :=
  ⟨20 * 2 ^ 48, -48, by decide +kernel, by decide, by norm_num⟩

/-- No rounding fills more than the twenty cells of a bar. -/
theorem roundHalfUp_share {score : Float} (hnonneg : 0.0 ≤ score) (hle : score ≤ 10.0) :
    ∃ n ≤ 20, Decimal.roundHalfUp (score / 10.0 * 20.0) = Float.ofNat n := by
  have hscore := Decimal.within_of_le hnonneg hle normal_ten
  have hshare := hscore.div normal_ten (t := 1) (by norm_num) (by decide) (by decide)
  have hscaled := hshare.mul normal_twenty (t := 5) (by norm_num) (by decide) (by decide)
  exact hscaled.roundHalfUp (by norm_num)

theorem scoreBar_eq_ok {score : Float} (hnonneg : 0.0 ≤ score) (hle : score ≤ 10.0) :
    ∃ n ≤ 20, scoreBar score 10.0 = .ok ("`" ++
      String.ofList (List.replicate n '█' ++ List.replicate (20 - n) '░') ++ "` " ++
        Decimal.fixed 0 (score / 10.0 * 100.0) ++ "%") := by
  obtain ⟨n, hn, hfilled⟩ := roundHalfUp_share hnonneg hle
  obtain ⟨-, -, hempty⟩ := ofNat_of_le hn
  obtain ⟨hrest, -, -⟩ := ofNat_of_le (Nat.sub_le 20 n)
  refine ⟨n, hn, ?_⟩
  simp only [scoreBar, hfilled, hempty, hrest, decide_false, Bool.false_and, Bool.false_eq_true,
    if_false, cells_ofNat hn, cells_ofNat (Nat.sub_le 20 n)]
  rfl

/-! ### Proper reports -/

/-- The verdict is worded as its level is, and the scores of the categories are out of ten. -/
structure Report.Proper (r : Report) : Prop where
  label : r.verdict.label = r.verdict.level.label
  scores : ∀ s ∈ r.categories, 0.0 ≤ s.score ∧ s.score ≤ 10.0

section Catalog

variable {config : Option Json} {rules : List Rule} {catalog : Catalog}

/-- Under an accepted configuration all reports are proper. -/
theorem Catalog.proper_ofIssues (h : Catalog.build config rules = .ok catalog) (source : String)
    (issues : List Issue) (metrics : Metrics) :
    (Report.ofIssues source issues metrics catalog.policy).Proper := by
  obtain ⟨-, c, hvalid, -, rfl⟩ := Catalog.build_eq_ok.1 h
  refine ⟨rfl, fun s hs => ?_⟩
  obtain ⟨w, -, rfl⟩ := List.mem_map.1 hs
  have hpoints := Configuration.resolvedDeduction_proper hvalid w.category
  exact ⟨scoreOfCounts_nonneg hpoints _, scoreOfCounts_le hpoints _⟩

theorem Catalog.proper_analyze (h : Catalog.build config rules = .ok catalog) (unit : SourceUnit) :
    (analyze unit catalog).Proper := by
  unfold analyze
  split
  · exact Catalog.proper_ofIssues h _ _ _
  · exact Catalog.proper_ofIssues h _ _ _

end Catalog

theorem source_analyze (unit : SourceUnit) (catalog : Catalog) :
    (analyze unit catalog).source = unit.name := by
  unfold analyze
  split <;> rfl

/-! ### Documents -/

theorem mapM_eq_ok {ε α β : Type} {f : α → Except ε β} {xs : List α}
    (h : ∀ x ∈ xs, ∃ y, f x = .ok y) : ∃ ys, xs.mapM f = .ok ys := by
  induction xs with
  | nil => exact ⟨[], rfl⟩
  | cons x xs ih =>
    rw [List.forall_mem_cons] at h
    obtain ⟨y, hy⟩ := h.1
    obtain ⟨ys, hys⟩ := ih h.2
    exact ⟨y :: ys, by simp [List.mapM_cons, hy, hys, bind, Except.bind, pure, Except.pure]⟩

/-- The section of a proper report is there, and its issues are in the table at its end only. -/
theorem Report.Proper.exists_section {r : Report} (h : r.Proper) :
    ∃ front, ∀ issues, ({ r with issues } : Report).section = .ok (front ++ issueTable issues) := by
  have hrow : ∀ s ∈ r.categories, ∃ row, CategoryScore.row s = .ok row := by
    intro s hs
    obtain ⟨n, -, hbar⟩ := scoreBar_eq_ok (h.scores s hs).1 (h.scores s hs).2
    exact ⟨_, by rw [CategoryScore.row, hbar]; rfl⟩
  obtain ⟨rows, hrows⟩ := mapM_eq_ok hrow
  exact ⟨_, fun issues => by simp only [Report.section, hrows, bind, Except.bind]; rfl⟩

/-- The names of the columns of the summary table. -/
def summaryHeader : String := "| File | Score | Verdict | Critical | High | Medium | Low |"

/-- The lines of the document before the rows of its summary table. -/
def summaryHead (count : ℕ) : List String :=
  ["# Code Quality Report", "", s!"Files analyzed: {count}", "", summaryHeader,
    "|------|-------|---------|----------|------|--------|-----|"]

theorem markdown_eq_ok {reports : List Report} {sections : List (List String)}
    (h : reports.mapM Report.section = .ok sections) :
    markdown reports = .ok ("\n".intercalate (summaryHead reports.length ++
      reports.map Report.summaryRow ++ [""] ++ sections.flatten)) := by
  rw [markdown, markdownLines, h]
  rfl

/-- The document of a proper report is there, and so are its issues only at the end. -/
theorem Report.Proper.exists_document {r : Report} (h : r.Proper) :
    ∃ front, front ≠ [] ∧ ∀ issues, markdown [{ r with issues }] =
      .ok ("\n".intercalate (front ++ issueTable issues)) := by
  obtain ⟨front, hfront⟩ := h.exists_section
  refine ⟨summaryHead 1 ++ [r.summaryRow] ++ [""] ++ front, by simp, fun issues => ?_⟩
  have hsections : [{ r with issues }].mapM Report.section = .ok [front ++ issueTable issues] := by
    rw [List.mapM_cons, hfront issues]
    rfl
  rw [markdown_eq_ok hsections, List.flatten_singleton, ← List.append_assoc]
  rfl

/-- The lines of a document. -/
def textLines (document : String) : List (List Char) := Text.splitOn '\n' document.toList

theorem textLines_of_not_mem {text : String} (h : '\n' ∉ text.toList) :
    textLines text = [text.toList] :=
  Text.splitOn_of_not_mem h

/-- The lines of joined texts are the lines of one after those of another. -/
theorem textLines_intercalate {texts : List String} (h : texts ≠ []) :
    textLines ("\n".intercalate texts) = texts.flatMap textLines := by
  induction texts with
  | nil => exact absurd rfl h
  | cons text texts ih =>
    cases texts with
    | nil => rw [String.intercalate_singleton, List.flatMap_singleton]
    | cons second texts =>
      have hbreak : (text ++ "\n" ++ "\n".intercalate (second :: texts)).toList =
          text.toList ++ '\n' :: ("\n".intercalate (second :: texts)).toList := by simp
      rw [String.intercalate_cons_cons, textLines, hbreak, Text.splitOn_append, List.flatMap_cons,
        ← ih (List.cons_ne_nil _ _)]
      rfl

theorem flatMap_textLines {texts : List String} (h : ∀ text ∈ texts, '\n' ∉ text.toList) :
    texts.flatMap textLines = texts.map String.toList := by
  induction texts with
  | nil => rfl
  | cons text texts ih =>
    rw [List.forall_mem_cons] at h
    rw [List.flatMap_cons, textLines_of_not_mem h.1, ih h.2]
    rfl

end CodeGrade
