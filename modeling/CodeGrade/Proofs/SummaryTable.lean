import CodeGrade.Proofs.Cells
import CodeGrade.Proofs.Rendering

/-!
# The summary table

The document of reports starts with a table that has one row for each report. The name of a source
is put into its row as it is, so a row has a cell too many for each bare bar in the name; the counts
of the issues are in its last four cells all the same.

## Main definitions

* `summaryColumns`: the number of columns.
* `Report.SummarizedBy`: what a row of the summary table holds.
-/

namespace CodeGrade

open Table (row pad splitBars bareBars Plain)

/-- The number of columns: the cells between the outer bars of the header. -/
def summaryColumns : ℕ := (splitBars summaryHeader.toList).length - 2

/-- The texts of the counts, from the gravest severity on. -/
def Counts.texts (counts : Counts) : List String := Severity.all.map fun s => toString (counts.get s)

/-- The row holds, between its outer bars, one cell for each column and one more for each bare bar
in the name of the source: first the name, at last the counts. -/
structure Report.SummarizedBy (r : Report) (summary : List Char) : Prop where
  unbroken : Unbroken summary
  cells : ∃ named score verdict,
    splitBars summary = [] :: (named ++ ([score, verdict] ++ r.counts.texts.map fun count =>
      pad count.toList)) ++ [[]] ∧
    ['|'].intercalate named = pad ("`" ++ r.source ++ "`").toList
  columns : (splitBars summary).length - 2 = summaryColumns + bareBars r.source.toList

/-! ### The cells of a row -/

/-- The cells of a report after that with the name of its source. -/
def Report.valueCells (r : Report) : List String :=
  [Decimal.fixed 1 r.overall ++ "/10", r.verdict.label] ++ r.counts.texts

theorem Report.toList_summaryRow (r : Report) :
    r.summaryRow.toList =
      row (("`" ++ r.source ++ "`").toList :: r.valueCells.map String.toList) := by
  have hbar : toString " | " = " | " := rfl
  have hend : toString " |" = " |" := rfl
  simp [Report.summaryRow, Report.valueCells, Counts.texts, Severity.all, Counts.get, row, pad,
    hbar, hend]

theorem Level.label_plain (level : Level) : Plain level.label := by
  cases level <;> decide +kernel

theorem Report.Proper.valueCells_plain {r : Report} (h : r.Proper) :
    ∀ text ∈ r.valueCells, Plain text := by
  rw [Report.valueCells, List.forall_mem_append, List.forall_mem_cons, List.forall_mem_singleton,
    h.label]
  refine ⟨⟨?_, r.verdict.level.label_plain⟩, fun text htext => ?_⟩
  · exact (Table.plain_of_numeral (Decimal.numeral_fixed 1 r.overall)).append (by decide)
  · obtain ⟨s, -, rfl⟩ := List.mem_map.1 htext
    exact Table.plain_of_numeral (numeral_int _)

theorem Report.Proper.splitBars_summaryRow {r : Report} (h : r.Proper) :
    splitBars r.summaryRow.toList =
      [] :: (splitBars (pad ("`" ++ r.source ++ "`").toList) ++
        r.valueCells.map fun text => pad text.toList) ++ [[]] := by
  rw [r.toList_summaryRow, Table.splitBars_row, List.flatMap_cons,
    Table.flatMap_splitBars_of_plain h.valueCells_plain]

theorem Report.Proper.unbroken_summaryRow {r : Report} (h : r.Proper)
    (hname : Unbroken r.source.toList) : Unbroken r.summaryRow.toList := by
  rw [r.toList_summaryRow]
  apply Table.unbroken_row
  rw [List.forall_mem_cons, List.forall_mem_map]
  constructor
  · rw [String.toList_append, String.toList_append, unbroken_append, unbroken_append]
    exact ⟨⟨by decide, hname⟩, by decide⟩
  · exact fun text htext => (h.valueCells_plain text htext).unbroken

theorem Report.Proper.summarizedBy {r : Report} (h : r.Proper) (hname : Unbroken r.source.toList) :
    r.SummarizedBy r.summaryRow.toList := by
  have hsplit := h.splitBars_summaryRow
  refine ⟨h.unbroken_summaryRow hname, ⟨_, _, _, hsplit, ?_⟩, ?_⟩
  · exact Table.intercalate_splitBarsFrom none _
  · have hbare : bareBars (pad ("`" ++ r.source ++ "`").toList) = bareBars r.source.toList := by
      rw [Table.bareBars_pad]
      simpa using Table.bareBars_enclosed (by decide) (by decide) (by decide) r.source.toList
    have hnamed : (splitBars (pad ("`" ++ r.source ++ "`").toList)).length =
        bareBars r.source.toList + 1 := by
      rw [← hbare]
      exact Table.length_splitBarsFrom none _
    have hcolumns : summaryColumns = 7 := by decide
    have hvalues : r.valueCells.length = 6 := rfl
    simp only [hsplit, List.length_append, List.length_map, List.length_cons, List.length_nil,
      hnamed, hcolumns, hvalues]
    omega

/-! ### The document -/

theorem unbroken_summaryHead (count : ℕ) : ∀ text ∈ summaryHead count, Unbroken text.toList := by
  have hcount : Unbroken (toString "Files analyzed: " ++ toString count).toList := by
    rw [String.toList_append, unbroken_append]
    exact ⟨by decide, (numeral_nat count).unbroken⟩
  simp only [summaryHead, List.forall_mem_cons, hcount, true_and]
  decide

/-- The document of proper reports is there, and it starts with the summary table. A row of the
table has as many cells as there are columns if the name of its source has no bare bar, and more of
them otherwise. -/
theorem summary_rows_follow_columns {reports : List Report} (hproper : ∀ r ∈ reports, r.Proper)
    (hnames : ∀ r ∈ reports, Unbroken r.source.toList) :
    ∃ document rows rest, markdown reports = .ok document ∧
      textLines document =
        (summaryHead reports.length).map String.toList ++ rows ++ [] :: rest ∧
      List.Forall₂ Report.SummarizedBy reports rows := by
  have hsection : ∀ r ∈ reports, ∃ lines, r.section = .ok lines := by
    intro r hr
    obtain ⟨front, hfront⟩ := (hproper r hr).exists_section
    exact ⟨_, hfront r.issues⟩
  obtain ⟨sections, hsections⟩ := mapM_eq_ok hsection
  have hrows : ∀ text ∈ reports.map Report.summaryRow, '\n' ∉ text.toList := by
    rw [List.forall_mem_map]
    exact fun r hr => ((hproper r hr).unbroken_summaryRow (hnames r hr)).feed_not_mem
  have hhead : ∀ text ∈ summaryHead reports.length, '\n' ∉ text.toList :=
    fun text htext => (unbroken_summaryHead _ text htext).feed_not_mem
  refine ⟨"\n".intercalate (summaryHead reports.length ++ reports.map Report.summaryRow ++ [""] ++
    sections.flatten), reports.map fun r => r.summaryRow.toList, sections.flatten.flatMap textLines,
    markdown_eq_ok hsections, ?_, ?_⟩
  · rw [textLines_intercalate (by simp), List.flatMap_append, List.flatMap_append,
      List.flatMap_append, flatMap_textLines hhead, flatMap_textLines hrows]
    simp [textLines_of_not_mem]
  · rw [List.forall₂_map_right_iff, List.forall₂_same]
    exact fun r hr => (hproper r hr).summarizedBy (hnames r hr)

/-- A source whose name has a bar in it. -/
def barredName : SourceUnit := .ofText "a|b.py" "x = 1\n"

/-- Its row has eight cells in a table of seven columns. -/
theorem barred_name_widens_row : ∃ catalog, Catalog.build none = .ok catalog ∧
    ∃ document summary rest, markdown [analyze barredName catalog] = .ok document ∧
      textLines document = (summaryHead 1).map String.toList ++ [summary] ++ [] :: rest ∧
      (splitBars summary).length - 2 = 8 ∧ summaryColumns = 7 := by
  have hbuild : (Catalog.build none).toOption.isSome = true := by decide +kernel
  cases hcatalog : Catalog.build none with
  | error problems => simp [hcatalog, Except.toOption] at hbuild
  | ok catalog =>
    have hsource := source_analyze barredName catalog
    obtain ⟨document, rows, rest, hdocument, hlines, hrows⟩ := summary_rows_follow_columns
      (List.forall_mem_singleton.2 (Catalog.proper_analyze hcatalog barredName))
      (List.forall_mem_singleton.2 (by rw [hsource]; decide))
    obtain ⟨summary, more, hrow, hmore, rfl⟩ := List.forall₂_cons_left_iff.1 hrows
    obtain rfl := List.forall₂_nil_left_iff.1 hmore
    refine ⟨catalog, rfl, document, summary, rest, hdocument, hlines, ?_, by decide⟩
    rw [hrow.columns, hsource]
    decide

end CodeGrade
