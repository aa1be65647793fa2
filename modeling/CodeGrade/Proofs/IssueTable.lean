import CodeGrade.Proofs.Cells
import CodeGrade.Proofs.Rendering
import CodeGrade.Proofs.Wording

/-!
# The table of issues

The section of a report ends with a table that has one row for each issue, and the issues are
nowhere else in the document. A row can be read again: it has four cells, and they are the severity,
the line, the rule and the message of its issue, bars and backslashes of the message included.

## Main definitions

* `Issue.ShownBy`: what a row of the table holds.
* `issueBlock`: the lines of a table with given rows.
-/

namespace CodeGrade

open Table (pad splitBars unescapeBars Plain)

/-! ### What a row holds -/

/-- The text of a line number: a dash for the file as a whole, and digits for a line, as long as
the number is below those that cannot be told apart. -/
def LineNumber.ShownAs (line : LineNumber) (lineCount : ℕ) (text : String) : Prop :=
  ∃ n ≤ lineCount, line = .ofNat n ∧ (n = 0 → text = "-") ∧
    (0 < n → n < 2 ^ 53 → text = toString n)

/-- The row has four cells between its outer bars: the severity, the line, the rule and, its bars
escaped, the message of the issue. -/
structure Issue.ShownBy (lineCount : ℕ) (issue : Issue) (shown : List Char) : Prop where
  unbroken : Unbroken shown
  cells : ∃ line message,
    splitBars shown = [[], pad issue.severity.name.toList, pad line.toList,
      pad issue.ruleId.toList, pad message, []] ∧
    issue.line.ShownAs lineCount line ∧ unescapeBars message = issue.message.toList

/-- The report with its issues left out, though not their counts and what they cost. -/
def Report.withoutIssues (r : Report) : Report := { r with issues := [] }

/-- The lines of a table with the given rows; none if there are no rows. -/
def issueBlock (rows : List (List Char)) : List (List Char) :=
  if rows = [] then []
  else "| Severity | Line | Rule | Message |".toList ::
    "|----------|------|------|---------|".toList :: rows ++ [[]]

/-! ### Cells -/

theorem Severity.name_plain (s : Severity) : Plain s.name := by
  cases s <;> decide

theorem builtinRules_plain : ∀ rule ∈ builtinRules, Plain rule.id := by
  decide +kernel

theorem LineNumber.isPositive_ofNat (n : ℕ) :
    (LineNumber.ofNat n).isPositive = true ↔ 0 < n := by
  simp [LineNumber.isPositive, LineNumber.lt, LineNumber.le, LineNumber.ofNat, Nat.pos_iff_ne_zero]

theorem LineNumber.text_ofNat {n : ℕ} (h : n < 2 ^ 53) : (LineNumber.ofNat n).text = toString n := by
  have hexact : (n : ℚ).den = 1 ∧ (n : ℚ).num.natAbs < Nat.pow 2 53 := ⟨Rat.den_natCast n, h⟩
  rw [LineNumber.ofNat, LineNumber.text, if_pos hexact]
  rfl

/-- The text of an issue's line. -/
def Issue.lineCell (issue : Issue) : String :=
  if issue.line.isPositive then issue.line.text else "-"

theorem Issue.lineCell_plain (issue : Issue) : Plain issue.lineCell := by
  rw [Issue.lineCell]
  split
  · exact Table.plain_of_numeral issue.line.numeral_text
  · decide

theorem Issue.lineCell_shown {issue : Issue} {n lineCount : ℕ} (hn : n ≤ lineCount)
    (hline : issue.line = .ofNat n) : issue.line.ShownAs lineCount issue.lineCell := by
  refine ⟨n, hn, hline, ?_, ?_⟩
  · rintro rfl
    rw [Issue.lineCell, hline]
    decide
  · intro hpos hlt
    rw [Issue.lineCell, hline, if_pos ((LineNumber.isPositive_ofNat n).2 hpos),
      LineNumber.text_ofNat hlt]

theorem Issue.toList_row (issue : Issue) :
    issue.row.toList =
      Table.row ([issue.severity.name, issue.lineCell, issue.ruleId].map String.toList ++
        [(escapeCell issue.message).toList]) := by
  simp [Issue.row, Issue.lineCell, Table.row, pad]

theorem unbroken_escapeCell {text : String} (h : OneLine text) :
    Unbroken (escapeCell text).toList := by
  rw [Table.toList_escapeCell]
  intro c hc
  obtain ⟨d, hd, hmem⟩ := List.mem_flatMap.1 hc
  have hescape : isLineEnd '\\' = false := by decide
  grind [h d hd]

/-- An issue whose rule has a plain name and whose message is on one line is shown by its row. -/
theorem Issue.shownBy_row {issue : Issue} {n lineCount : ℕ} (hn : n ≤ lineCount)
    (hline : issue.line = .ofNat n) (hrule : Plain issue.ruleId) (hmessage : OneLine issue.message) :
    issue.ShownBy lineCount issue.row.toList := by
  have hplain : ∀ text ∈ [issue.severity.name, issue.lineCell, issue.ruleId], Plain text := by
    simp only [List.forall_mem_cons]
    exact ⟨issue.severity.name_plain, issue.lineCell_plain, hrule, List.forall_mem_nil _⟩
  constructor
  · rw [issue.toList_row]
    apply Table.unbroken_row
    rw [List.forall_mem_append, List.forall_mem_map, List.forall_mem_singleton]
    exact ⟨fun text htext => (hplain text htext).unbroken, unbroken_escapeCell hmessage⟩
  · refine ⟨issue.lineCell, (escapeCell issue.message).toList, ?_, Issue.lineCell_shown hn hline,
      Table.unescapeBars_escapeCell issue.message⟩
    rw [issue.toList_row, Table.splitBars_row, List.flatMap_append,
      Table.flatMap_splitBars_of_plain hplain, List.flatMap_singleton,
      Table.splitBars_pad (Table.bareBars_escapeCell issue.message)]
    rfl

/-! ### The document -/

section Report

variable {config : Option Json} {catalog : Catalog}

/-- Every issue of a report is shown by its row. -/
theorem shownBy_of_analyze (hcatalog : Catalog.build config = .ok catalog) (unit : SourceUnit)
    (hlines : ∀ line ∈ unit.lines, Unbroken line) :
    ∀ issue ∈ (analyze unit catalog).issues, issue.ShownBy unit.lines.length issue.row.toList := by
  intro issue hissue
  have hmessage := oneLine_message hcatalog hlines issue hissue
  cases houtline : Outline.ofUnit unit with
  | error fault =>
    have hdegraded := degraded_of_error catalog houtline
    obtain ⟨only, honly, hid, -, -, hline, -⟩ := hdegraded.issues
    rw [honly] at hissue
    obtain rfl := List.mem_singleton.1 hissue
    exact Issue.shownBy_row hdegraded.line.2 hline (by rw [hid]; decide) hmessage
  | ok outline =>
    have hrules := Catalog.rule_mem_of_build hcatalog
    obtain ⟨entry, hentry, matched, hcheck, m, hm, rfl⟩ :=
      exists_match_of_issue hrules houtline issue hissue
    have hrule := builtinRules_plain entry.rule (hrules entry hentry)
    obtain ⟨matched', hcheck', hline⟩ := lines_of_check houtline (hrules entry hentry)
    obtain rfl := Except.ok.inj (hcheck.symm.trans hcheck')
    rcases hline m hm with ⟨-, hzero⟩ | ⟨-, n, -, hn, hline⟩
    · exact Issue.shownBy_row (Nat.zero_le _) hzero hrule hmessage
    · exact Issue.shownBy_row hn hline hrule hmessage

theorem textLines_issueTable {issues : List Issue}
    (h : ∀ issue ∈ issues, Unbroken issue.row.toList) :
    (issueTable issues).flatMap textLines = issueBlock (issues.map fun issue => issue.row.toList) := by
  cases issues with
  | nil => rfl
  | cons first rest =>
    have hrows : ∀ text ∈ (first :: rest).map Issue.row, '\n' ∉ text.toList := by
      rw [List.forall_mem_map]
      exact fun issue hissue => (h issue hissue).feed_not_mem
    have hhead : ∀ text ∈ ["| Severity | Line | Rule | Message |",
        "|----------|------|------|---------|"], '\n' ∉ text.toList := by decide
    have htable : issueTable (first :: rest) = ["| Severity | Line | Rule | Message |",
        "|----------|------|------|---------|"] ++ (first :: rest).map Issue.row ++ [""] := rfl
    rw [htable, List.flatMap_append, List.flatMap_append, flatMap_textLines hhead,
      flatMap_textLines hrows, List.map_map]
    rfl

/-- With the built-in rules, under every accepted configuration, the document of a report is that of
the same report without issues and then the table of its issues, with one row for each of them in
order. -/
theorem issue_rows_show_issues (hcatalog : Catalog.build config = .ok catalog)
    (name text : String) : ∃ front document rows,
      markdown [(analyze (.ofText name text) catalog).withoutIssues] = .ok front ∧
      markdown [analyze (.ofText name text) catalog] = .ok document ∧
      textLines document = textLines front ++ issueBlock rows ∧
      List.Forall₂ (Issue.ShownBy (splitLines text.toList).length)
        (analyze (.ofText name text) catalog).issues rows := by
  have hshown := shownBy_of_analyze hcatalog (.ofText name text) (unbroken_splitLines text.toList)
  obtain ⟨front, hne, hdocument⟩ :=
    (Catalog.proper_analyze hcatalog (.ofText name text)).exists_document
  generalize analyze (.ofText name text) catalog = report at hshown hdocument ⊢
  refine ⟨_, _, report.issues.map fun issue => issue.row.toList, hdocument [],
    hdocument report.issues, ?_, ?_⟩
  · have htable := textLines_issueTable fun issue hissue => (hshown issue hissue).unbroken
    rw [textLines_intercalate (by simp [hne]), textLines_intercalate (by simp [hne]),
      List.flatMap_append, List.flatMap_append, htable]
    simp [issueTable]
  · rw [List.forall₂_map_right_iff, List.forall₂_same]
    exact hshown

end Report

/-- The issue of a comment with bars and a backslash in it. -/
def markerIssue : Issue where
  ruleId := "todo-comment"
  title := "Unresolved TODO"
  category := .maintainability
  severity := .low
  line := .ofNat 1
  message := "Unresolved marker: TODO a|b\\|c"
  evidence := some "# TODO a|b\\|c"

theorem marker_row_has_four_cells : ∃ catalog, Catalog.build none = .ok catalog ∧
    ∃ front document shown message,
      markdown [(analyze (.ofText "marker.py" "# TODO a|b\\|c\n") catalog).withoutIssues] =
        .ok front ∧
      markdown [analyze (.ofText "marker.py" "# TODO a|b\\|c\n") catalog] = .ok document ∧
      textLines document = textLines front ++ issueBlock [shown] ∧
      splitBars shown =
        [[], pad "low".toList, pad "1".toList, pad "todo-comment".toList, pad message, []] ∧
      unescapeBars message = "Unresolved marker: TODO a|b\\|c".toList := by
  have hissues : (Catalog.build none).toOption.map (fun catalog =>
      (analyze (.ofText "marker.py" "# TODO a|b\\|c\n") catalog).issues) = some [markerIssue] := by
    decide +kernel
  cases hcatalog : Catalog.build none with
  | error problems => simp [hcatalog, Except.toOption] at hissues
  | ok catalog =>
    simp only [hcatalog, Except.toOption, Option.map_some, Option.some.injEq] at hissues
    obtain ⟨front, document, rows, hfront, hdocument, hlines, hrows⟩ :=
      issue_rows_show_issues hcatalog "marker.py" "# TODO a|b\\|c\n"
    rw [hissues] at hrows
    obtain ⟨shown, more, hrow, hmore, rfl⟩ := List.forall₂_cons_left_iff.1 hrows
    obtain rfl := List.forall₂_nil_left_iff.1 hmore
    obtain ⟨line, message, hcells, ⟨n, -, hline, -, htext⟩, hmessage⟩ := hrow.cells
    have hn : n = 1 := by
      have hvalue := LineNumber.exact.inj hline
      exact_mod_cast hvalue.symm
    subst hn
    rw [htext (by decide) (by decide)] at hcells
    exact ⟨catalog, rfl, front, document, shown, message, hfront, hdocument, hlines, hcells, hmessage⟩

end CodeGrade
