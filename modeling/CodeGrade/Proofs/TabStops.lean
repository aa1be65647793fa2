import CodeGrade.Source.Unit
import Mathlib

/-!
# Tab stops

The indentation of a line is read by moving from column to column. It can also be written out: what
stands before its last form feed does not count, and in the rest each tab is replaced by the blanks
up to the next tab stop. The width of the indentation is the number of blanks that are written, and
one more blank or tab at its end makes it wider.

## Main definitions

* `isIndentation`: the characters of an indentation.
* `tabStop`: the tab stop after a column.
* `expandTabs`: a text with its tabs written out.
* `nextColumn`: the column after a character of an indentation.
-/

namespace CodeGrade

/-- Whether a character at the start of a line belongs to its indentation. -/
def isIndentation (c : Char) : Bool := c = ' ' || c = '\t' || c = '\x0c'

/-- The tab stop after a column. -/
def tabStop (column : ℕ) : ℕ := 8 * (column / 8 + 1)

/-- The text with its tabs written out from left to right, each with the blanks up to the tab stop
after what is written before it. -/
def expandTabs (text : List Char) : List Char :=
  text.foldl (fun written c =>
    if c = '\t' then written.rightpad (tabStop written.length) ' ' else written ++ [c]) []

/-- Tab stops are the columns that are multiples of eight. -/
theorem isLeast_tabStop (column : ℕ) :
    IsLeast {stop | column < stop ∧ 8 ∣ stop} (tabStop column) := by
  refine ⟨⟨?_, Nat.dvd_mul_right 8 _⟩, ?_⟩
  · rw [tabStop]
    omega
  · rintro stop ⟨hlt, k, rfl⟩
    rw [tabStop]
    omega

theorem lt_tabStop (column : ℕ) : column < tabStop column := (isLeast_tabStop column).1.1

theorem expandTabs_concat (text : List Char) (c : Char) :
    expandTabs (text ++ [c]) =
      if c = '\t' then (expandTabs text).rightpad (tabStop (expandTabs text).length) ' '
      else expandTabs text ++ [c] :=
  List.foldl_concat ..

/-! ### Columns -/

/-- The column after a character of an indentation. -/
def nextColumn (column : ℕ) (c : Char) : ℕ :=
  if c = ' ' then column + 1 else if c = '\t' then tabStop column else 0

theorem lt_nextColumn {c : Char} (hc : c = ' ' ∨ c = '\t') (column : ℕ) :
    column < nextColumn column c := by
  rcases hc with rfl | rfl
  · exact Nat.lt_succ_self column
  · exact lt_tabStop column

/-- Reading the indentation of a line passes the columns after its characters one by one. -/
theorem indentFrom_eq_foldl (width : ℕ) (line : List Char) :
    indentFrom width line = (line.takeWhile isIndentation).foldl nextColumn width := by
  induction line generalizing width with
  | nil => rfl
  | cons c rest ih =>
    have htab : width + (8 - width % 8) = tabStop width := by
      rw [tabStop]
      omega
    rw [indentFrom, List.takeWhile_cons, htab]
    by_cases hc : isIndentation c = true
    · rw [if_pos hc, List.foldl_cons, nextColumn, ih, ih, ih]
      simp only [isIndentation, Bool.or_eq_true, decide_eq_true_eq] at hc
      rcases hc with (rfl | rfl) | rfl <;> rfl
    · rw [if_neg hc]
      simp only [isIndentation, Bool.or_eq_true, decide_eq_true_eq, not_or] at hc
      simp [hc]

theorem indentWidth_eq_foldl (line : List Char) :
    indentWidth line = (line.takeWhile isIndentation).foldl nextColumn 0 :=
  indentFrom_eq_foldl 0 line

/-- From the last form feed on, an indentation written out reaches the column that reading it
reaches. -/
theorem expandTabs_rtakeWhile {w : List Char} (hw : ∀ c ∈ w, isIndentation c = true) :
    expandTabs (w.rtakeWhile (· ≠ '\x0c')) = List.replicate (w.foldl nextColumn 0) ' ' := by
  -- The last character decides how far the column moves, so the induction is from the right.
  induction w using List.reverseRecOn with
  | nil => rfl
  | append_singleton w c ih =>
    rw [List.forall_mem_append, List.forall_mem_singleton] at hw
    have ih := ih hw.1
    have hc := hw.2
    simp only [isIndentation, Bool.or_eq_true, decide_eq_true_eq] at hc
    rw [List.foldl_concat]
    rcases hc with (rfl | rfl) | rfl
    · rw [List.rtakeWhile_concat_pos _ _ _ (by decide), expandTabs_concat, ih]
      exact List.replicate_succ'.symm
    · rw [List.rtakeWhile_concat_pos _ _ _ (by decide), expandTabs_concat, ih, if_pos rfl,
        List.length_replicate, List.rightpad, List.length_replicate, List.replicate_append_replicate,
        Nat.add_sub_of_le (lt_tabStop _).le]
      rfl
    · rw [List.rtakeWhile_concat_neg _ _ _ (by decide)]
      rfl

/-- A character of an indentation that is inserted at its end belongs to it. -/
theorem takeWhile_insert {c : Char} (hc : isIndentation c = true) (line : List Char) :
    (line.takeWhile isIndentation ++ c :: line.dropWhile isIndentation).takeWhile isIndentation =
      line.takeWhile isIndentation ++ [c] := by
  have hrest : (line.dropWhile isIndentation).takeWhile isIndentation = [] := by
    rw [List.takeWhile_eq_nil_iff]
    exact fun h => List.dropWhile_get_zero_not isIndentation line h
  rw [List.takeWhile_append_of_pos fun a ha => List.mem_takeWhile_imp ha,
    List.takeWhile_cons_of_pos hc, hrest]

/-! ### The width of an indentation -/

/-- The width of an indentation is the number of blanks it has when it is written out from its last
form feed on, and a blank or a tab at its end makes it wider. -/
theorem indentation_expands (line : List Char) :
    expandTabs ((line.takeWhile isIndentation).rtakeWhile (· ≠ '\x0c')) =
        List.replicate (indentWidth line) ' ' ∧
      ∀ c, c = ' ' ∨ c = '\t' →
        indentWidth line <
          indentWidth (line.takeWhile isIndentation ++ c :: line.dropWhile isIndentation) := by
  constructor
  · rw [indentWidth_eq_foldl]
    exact expandTabs_rtakeWhile fun c hc => List.mem_takeWhile_imp hc
  · intro c hc
    have hindent : isIndentation c = true := by rcases hc with rfl | rfl <;> rfl
    rw [indentWidth_eq_foldl, indentWidth_eq_foldl, takeWhile_insert hindent, List.foldl_concat]
    exact lt_nextColumn hc _

/-- Blanks before a tab are swallowed by it, and what stands before a form feed is lost. -/
theorem indentation_after_formFeed :
    expandTabs [' ', ' ', '\t', ' '] =
        List.replicate (indentWidth ['\t', '\x0c', ' ', ' ', '\t', ' ', 'x', '\t']) ' ' ∧
      indentWidth ['\t', '\x0c', ' ', ' ', '\t', ' ', 'x', '\t'] = 9 ∧
      9 < indentWidth ['\t', '\x0c', ' ', ' ', '\t', ' ', '\t', 'x', '\t'] := by
  obtain ⟨hwidth, hwider⟩ := indentation_expands ['\t', '\x0c', ' ', ' ', '\t', ' ', 'x', '\t']
  exact ⟨hwidth, by decide, hwider '\t' (.inr rfl)⟩

end CodeGrade
