import CodeGrade.Proofs.Numerals
import CodeGrade.Report.Markdown

/-!
# The cells of a table row

A row of a table starts and ends with a bar, with one between two cells, and each cell has a blank
on both sides. A reader cuts the row at its *bare* bars, those that do not stand right after a
backslash. The row has one cell for each text that was put into it, and one more for each bare bar
that such a text holds. Escaping a text leaves no bare bar in it, and can be undone.

## Main definitions

* `Table.splitBars`: the parts of a text between its bare bars.
* `Table.bareBars`: the number of bare bars of a text.
* `Table.row`: the row with given cells.
* `Table.Plain`: a text that is one cell of one line.
* `Table.unescapeBars`: a text with its escaped bars restored.
-/

namespace CodeGrade.Table

/-! ### Cutting at bare bars -/

/-- The parts of a text between its bare bars; `before` is the character that stands before the
text. -/
def splitBarsFrom (before : Option Char) : List Char → List (List Char)
  | [] => [[]]
  | c :: rest =>
    if c = '|' ∧ before ≠ some '\\' then [] :: splitBarsFrom (some c) rest
    else (splitBarsFrom (some c) rest).modifyHead (c :: ·)

/-- The parts of a text between its bare bars. -/
def splitBars (text : List Char) : List (List Char) := splitBarsFrom none text

/-- The number of bars that stand neither right after a backslash nor, with `before` a backslash,
at the start of the text. -/
def bareBarsFrom (before : Option Char) (text : List Char) : ℕ :=
  ((before :: text.map some).zip text).countP fun place => place.1 ≠ some '\\' ∧ place.2 = '|'

/-- The number of bars that do not stand right after a backslash. -/
def bareBars (text : List Char) : ℕ := bareBarsFrom none text

variable {before : Option Char} {text : List Char}

theorem splitBarsFrom_ne_nil (before : Option Char) (text : List Char) :
    splitBarsFrom before text ≠ [] := by
  induction text generalizing before with
  | nil => simp [splitBarsFrom]
  | cons c text ih =>
    rw [splitBarsFrom]
    split
    · simp
    · simpa using ih (some c)

theorem bareBarsFrom_cons (before : Option Char) (c : Char) (text : List Char) :
    bareBarsFrom before (c :: text) =
      (if c = '|' ∧ before ≠ some '\\' then 1 else 0) + bareBarsFrom (some c) text := by
  simp only [bareBarsFrom, List.map_cons, List.zip_cons_cons, List.countP_cons, and_comm]
  grind

/-- There is one part more than there are bare bars. -/
theorem length_splitBarsFrom (before : Option Char) (text : List Char) :
    (splitBarsFrom before text).length = bareBarsFrom before text + 1 := by
  induction text generalizing before with
  | nil => rfl
  | cons c text ih =>
    rw [splitBarsFrom, bareBarsFrom_cons]
    split
    · rw [List.length_cons, ih]
      omega
    · rw [List.length_modifyHead, ih]
      omega

/-- The parts with the bars between them are the text. -/
theorem intercalate_splitBarsFrom (before : Option Char) (text : List Char) :
    ['|'].intercalate (splitBarsFrom before text) = text := by
  induction text generalizing before with
  | nil => rfl
  | cons c text ih =>
    obtain ⟨first, parts, hparts⟩ := List.exists_cons_of_ne_nil (splitBarsFrom_ne_nil (some c) text)
    have ih := ih (some c)
    rw [splitBarsFrom]
    rw [hparts] at ih ⊢
    split
    · rename_i hbar
      rw [List.intercalate_cons_cons, ih, hbar.1]
      rfl
    · cases parts with
      | nil => simp_all
      | cons second parts => simp_all [List.intercalate_cons_cons]

theorem splitBarsFrom_of_bareBarsFrom (h : bareBarsFrom before text = 0) :
    splitBarsFrom before text = [text] := by
  have hlength := length_splitBarsFrom before text
  rw [h, List.length_eq_one_iff] at hlength
  obtain ⟨part, hpart⟩ := hlength
  have hjoined := intercalate_splitBarsFrom before text
  rw [hpart, List.intercalate_singleton] at hjoined
  rw [hpart, hjoined]

/-- What stands before a text matters only if it is a backslash. -/
theorem splitBarsFrom_congr {before' : Option Char} (h : before ≠ some '\\')
    (h' : before' ≠ some '\\') (text : List Char) :
    splitBarsFrom before text = splitBarsFrom before' text := by
  cases text with
  | nil => rfl
  | cons c text => simp [splitBarsFrom, h, h']

theorem splitBarsFrom_bar (h : before ≠ some '\\') (rest : List Char) :
    splitBarsFrom before ('|' :: rest) = [] :: splitBarsFrom none rest := by
  have hbar : some '|' ≠ some '\\' := by decide
  simp only [splitBarsFrom, h, ne_eq, not_false_eq_true, and_self, if_true]
  rw [splitBarsFrom_congr hbar (Option.some_ne_none _).symm]

/-- A bar cuts a text unless the text before it ends with a backslash. -/
theorem splitBarsFrom_append (hlast : text.getLast?.or before ≠ some '\\') (rest : List Char) :
    splitBarsFrom before (text ++ '|' :: rest) =
      splitBarsFrom before text ++ splitBarsFrom none rest := by
  induction text generalizing before with
  | nil => exact splitBarsFrom_bar hlast rest
  | cons c text ih =>
    have hlast' : text.getLast?.or (some c) ≠ some '\\' := by
      simpa [List.getLast?_cons] using hlast
    rw [List.cons_append, splitBarsFrom, splitBarsFrom, ih hlast']
    split
    · rfl
    · obtain ⟨first, parts, hparts⟩ := List.exists_cons_of_ne_nil (splitBarsFrom_ne_nil (some c) text)
      rw [hparts]
      rfl

/-! ### Rows -/

/-- A cell with the blanks around it. -/
def pad (cell : List Char) : List Char := ' ' :: cell ++ [' ']

/-- The row with the given cells. -/
def row (cells : List (List Char)) : List Char := '|' :: cells.flatMap fun cell => pad cell ++ ['|']

/-- Cutting a row gives the parts of its cells, and nothing before the first bar and after the last
one. -/
theorem splitBars_row (cells : List (List Char)) :
    splitBars (row cells) = [] :: (cells.flatMap fun cell => splitBars (pad cell)) ++ [[]] := by
  have hcells : splitBarsFrom none (cells.flatMap fun cell => pad cell ++ ['|']) =
      (cells.flatMap fun cell => splitBars (pad cell)) ++ [[]] := by
    induction cells with
    | nil => rfl
    | cons cell cells ih =>
      have hlast : (pad cell).getLast?.or none ≠ some '\\' := by simp [pad, List.getLast?_cons]
      rw [List.flatMap_cons, List.append_assoc, List.singleton_append, splitBarsFrom_append hlast, ih,
        List.flatMap_cons, List.append_assoc]
      rfl
  rw [splitBars, row, splitBarsFrom_bar (Option.some_ne_none _).symm, hcells]
  rfl

theorem bareBarsFrom_append (before : Option Char) (text : List Char) {last : Char}
    (hlast : last ≠ '|') : bareBarsFrom before (text ++ [last]) = bareBarsFrom before text := by
  induction text generalizing before with
  | nil => simp [bareBarsFrom, hlast]
  | cons c text ih => rw [List.cons_append, bareBarsFrom_cons, bareBarsFrom_cons, ih]

/-- Enclosing a text in other characters makes no bar bare and none escaped. -/
theorem bareBars_enclosed {first last : Char} (hfirst : first ≠ '|') (hslash : first ≠ '\\')
    (hlast : last ≠ '|') (text : List Char) :
    bareBars (first :: text ++ [last]) = bareBars text := by
  rw [bareBars, List.cons_append, bareBarsFrom_cons, bareBarsFrom_append _ _ hlast, bareBars]
  cases text with
  | nil => simp [bareBarsFrom, hfirst]
  | cons c text => simp [bareBarsFrom_cons, hfirst, hslash]

theorem bareBars_pad (cell : List Char) : bareBars (pad cell) = bareBars cell :=
  bareBars_enclosed (by decide) (by decide) (by decide) cell

/-- A cell without bare bars is not cut. -/
theorem splitBars_pad {cell : List Char} (h : bareBars cell = 0) :
    splitBars (pad cell) = [pad cell] :=
  splitBarsFrom_of_bareBarsFrom ((bareBars_pad cell).trans h)

theorem bareBarsFrom_of_not_mem (h : '|' ∉ text) : bareBarsFrom before text = 0 := by
  induction text generalizing before with
  | nil => rfl
  | cons c text ih =>
    rw [List.mem_cons, not_or] at h
    simp [bareBarsFrom_cons, Ne.symm h.1, ih h.2]

theorem unbroken_row {cells : List (List Char)} (h : ∀ cell ∈ cells, Unbroken cell) :
    Unbroken (row cells) := by
  refine unbroken_cons.2 ⟨by decide, fun c hc => ?_⟩
  obtain ⟨cell, hcell, hmem⟩ := List.mem_flatMap.1 hc
  have hpadded : Unbroken (pad cell ++ ['|']) := by
    rw [pad, List.cons_append, unbroken_append, unbroken_cons, unbroken_append]
    exact ⟨⟨by decide, h cell hcell, by decide⟩, by decide⟩
  exact hpadded c hmem

/-! ### Plain cells -/

/-- The text has no bars and no line ends. -/
structure Plain (text : String) : Prop where
  noBar : '|' ∉ text.toList
  unbroken : Unbroken text.toList

instance (text : String) : Decidable (Plain text) :=
  decidable_of_iff ('|' ∉ text.toList ∧ Unbroken text.toList)
    ⟨fun h => ⟨h.1, h.2⟩, fun h => ⟨h.noBar, h.unbroken⟩⟩

theorem Plain.append {a b : String} (ha : Plain a) (hb : Plain b) : Plain (a ++ b) := by
  constructor
  · simp [ha.noBar, hb.noBar]
  · rw [String.toList_append]
    exact unbroken_append.2 ⟨ha.unbroken, hb.unbroken⟩

theorem plain_of_numeral {text : String} (h : Numeral text) : Plain text :=
  ⟨h.not_mem (by decide), h.unbroken⟩

/-- Plain cells are not cut. -/
theorem flatMap_splitBars_of_plain {texts : List String} (h : ∀ text ∈ texts, Plain text) :
    ((texts.map String.toList).flatMap fun cell => splitBars (pad cell)) =
      texts.map fun text => pad text.toList := by
  induction texts with
  | nil => rfl
  | cons text texts ih =>
    rw [List.forall_mem_cons] at h
    rw [List.map_cons, List.flatMap_cons, ih h.2, splitBars_pad (bareBarsFrom_of_not_mem h.1.noBar)]
    rfl

/-! ### Escaping -/

/-- The text with its escaped bars restored. -/
def unescapeBars : List Char → List Char
  | '\\' :: '|' :: rest => '|' :: unescapeBars rest
  | c :: rest => c :: unescapeBars rest
  | [] => []

theorem toList_escapeCell (text : String) : (escapeCell text).toList =
    text.toList.flatMap fun c => if c = '|' then ['\\', '|'] else [c] :=
  String.toList_ofList

theorem unescapeBars_cons {c : Char} {rest : List Char} (h : c = '\\' → rest.head? ≠ some '|') :
    unescapeBars (c :: rest) = c :: unescapeBars rest := by
  rw [unescapeBars.eq_def]
  grind

/-- Escaping can be undone: an escaped text never starts with a bar, so a backslash of the text is
not taken for one that escapes. -/
theorem unescapeBars_escapeCell (text : String) :
    unescapeBars (escapeCell text).toList = text.toList := by
  rw [toList_escapeCell]
  induction text.toList with
  | nil => rfl
  | cons c text ih =>
    rw [List.flatMap_cons]
    split
    · rename_i hbar
      rw [hbar]
      exact congrArg _ ih
    · rw [List.singleton_append, unescapeBars_cons, ih]
      intro _
      cases text with
      | nil => simp
      | cons d text =>
        rw [List.flatMap_cons]
        split <;> simp_all

theorem bareBars_escapeCell (text : String) : bareBars (escapeCell text).toList = 0 := by
  rw [toList_escapeCell, bareBars]
  generalize (none : Option Char) = before
  induction text.toList generalizing before with
  | nil => rfl
  | cons c text ih =>
    rw [List.flatMap_cons]
    split
    · simp [bareBarsFrom_cons, ih]
    · simp_all [bareBarsFrom_cons]

end CodeGrade.Table
