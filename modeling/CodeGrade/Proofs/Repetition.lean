import CodeGrade.Proofs.UnitOrder
import CodeGrade.Rule.Builtin
import Mathlib

/-!
# Repeated lines, counted

The check on duplicated lines reads a unit once, with a table of the texts that it has met so far.
After any number of lines the table holds the texts that count among them, each with its first line
and the number of its occurrences, in the order of the first lines. So the first entry of a text
that occurs too often is on the earliest line of all such texts, whichever of them was the first to
occur too often.

## Main definitions

* `Bears`: a text stands on a line.
* `Tabulates`: a table lists the texts of lines.
* `repeatedTexts`: the texts that occur too often.
-/

namespace CodeGrade

/-- Line `n`, without the blanks around it, is the text. Lines are counted from one. -/
def Bears (lines : List (List Char)) (n : ℕ) (text : List Char) : Prop :=
  1 ≤ n ∧ (lines.map Text.trim)[n - 1]? = some text

section Bears

variable {lines : List (List Char)} {n : ℕ} {text : List Char}

theorem Bears.le (h : Bears lines n text) : n ≤ lines.length := by
  obtain ⟨hlt, -⟩ := List.getElem?_eq_some_iff.1 h.2
  rw [List.length_map] at hlt
  omega

theorem Bears.mem (h : Bears lines n text) : text ∈ lines.map Text.trim :=
  List.mem_of_getElem? h.2

theorem bears_append_singleton {line : List Char} :
    Bears (lines ++ [line]) n text ↔
      Bears lines n text ∨ n = lines.length + 1 ∧ Text.trim line = text := by
  simp only [Bears, List.map_append, List.map_cons, List.map_nil, List.getElem?_append,
    List.length_map, List.getElem?_singleton]
  grind

end Bears

/-! ### The table -/

/-- The table lists the texts that count among the lines, in the order of their first lines. -/
structure Tabulates (lines : List (List Char)) (table : List Repetition) : Prop where
  ordered : (table.map (·.first)).Pairwise (· < ·)
  first : ∀ entry ∈ table, IsLeast {n | Bears lines n entry.text} entry.first
  count : ∀ entry ∈ table, entry.count = (lines.map Text.trim).count entry.text
  texts : ∀ text, text ∈ table.map (·.text) ↔
    text ∈ lines.map Text.trim ∧ countsAsDuplicate text = true

theorem noteOccurrence_of_not_mem {text : List Char} {table : List Repetition} (line : ℕ)
    (h : text ∉ table.map (·.text)) :
    noteOccurrence text line table = table ++ [⟨text, line, 1⟩] := by
  fun_induction noteOccurrence text line table <;> grind

theorem noteOccurrence_of_mem {text : List Char} {table : List Repetition} (line : ℕ)
    (h : text ∈ table.map (·.text)) :
    ∃ before entry after, table = before ++ entry :: after ∧ entry.text = text ∧
      noteOccurrence text line table =
        before ++ { entry with count := entry.count + 1 } :: after := by
  fun_induction noteOccurrence text line table with
  | case1 => simp at h
  | case2 entry rest htext => exact ⟨[], entry, rest, rfl, htext, rfl⟩
  | case3 entry rest hne ih =>
    have hrest : text ∈ rest.map (·.text) := by grind
    obtain ⟨before, found, after, rfl, htext, hnote⟩ := ih hrest
    exact ⟨entry :: before, found, after, rfl, htext, by rw [hnote]; rfl⟩

namespace Tabulates

variable {lines : List (List Char)} {table : List Repetition}

theorem nil : Tabulates [] [] := by
  constructor <;> simp

/-- No text has two entries, as both would have the same first line. -/
theorem nodup (h : Tabulates lines table) : (table.map (·.text)).Nodup := by
  refine List.pairwise_map.2 (List.Pairwise.imp_of_mem ?_ (List.pairwise_map.1 h.ordered))
  intro a b ha hb hlt heq
  have hsame := (h.first a ha).unique (heq ▸ h.first b hb)
  omega

theorem isLeast_append {text line : List Char} {first : ℕ}
    (h : IsLeast {n | Bears lines n text} first) :
    IsLeast {n | Bears (lines ++ [line]) n text} first := by
  refine ⟨bears_append_singleton.2 (.inl h.1), ?_⟩
  intro n hn
  rcases bears_append_singleton.1 hn with hn | ⟨rfl, -⟩
  · exact h.2 hn
  · have := h.1.le
    omega

/-- A line that does not count leaves the table as it is. -/
theorem skip (h : Tabulates lines table) {line : List Char}
    (hline : countsAsDuplicate (Text.trim line) = false) : Tabulates (lines ++ [line]) table := by
  have hne : ∀ entry ∈ table, entry.text ≠ Text.trim line := by
    intro entry hentry heq
    have hcounts := ((h.texts _).1 (List.mem_map_of_mem hentry)).2
    grind
  constructor
  case ordered => exact h.ordered
  case first => exact fun entry hentry => isLeast_append (h.first entry hentry)
  case count =>
    intro entry hentry
    have hcount := h.count entry hentry
    have hother := hne entry hentry
    grind
  case texts =>
    intro text
    have htexts := h.texts text
    grind

/-- A text that has not occurred yet gets an entry of its own, after all others. -/
theorem note_new (h : Tabulates lines table) {line : List Char}
    (hline : countsAsDuplicate (Text.trim line) = true)
    (hnew : Text.trim line ∉ table.map (·.text)) :
    Tabulates (lines ++ [line]) (table ++ [⟨Text.trim line, lines.length + 1, 1⟩]) := by
  have hunseen : Text.trim line ∉ lines.map Text.trim := fun hmem =>
    hnew ((h.texts _).2 ⟨hmem, hline⟩)
  constructor
  case ordered =>
    rw [List.map_append, List.pairwise_append]
    refine ⟨h.ordered, List.pairwise_singleton _ _, ?_⟩
    intro first hfirst last hlast
    obtain ⟨entry, hentry, rfl⟩ := List.mem_map.1 hfirst
    have hle := (h.first entry hentry).1.le
    obtain rfl := List.mem_singleton.1 hlast
    exact Nat.lt_succ_of_le hle
  case first =>
    intro entry hentry
    rcases List.mem_append.1 hentry with hentry | hentry
    · exact isLeast_append (h.first entry hentry)
    · obtain rfl := List.mem_singleton.1 hentry
      refine ⟨bears_append_singleton.2 (.inr ⟨rfl, rfl⟩), ?_⟩
      intro n hn
      rcases bears_append_singleton.1 hn with hn | ⟨rfl, -⟩
      · exact absurd hn.mem hunseen
      · exact le_rfl
  case count =>
    intro entry hentry
    rcases List.mem_append.1 hentry with hentry | hentry
    · have hcount := h.count entry hentry
      have hother : entry.text ≠ Text.trim line := by grind
      grind
    · obtain rfl := List.mem_singleton.1 hentry
      have hzero := List.count_eq_zero.2 hunseen
      grind
  case texts =>
    intro text
    simp only [List.map_append, List.mem_append, h.texts text, List.map_cons, List.map_nil,
      List.mem_singleton]
    grind

/-- A text that has occurred before is counted once more. -/
theorem note_again {before after : List Repetition} {entry : Repetition}
    (h : Tabulates lines (before ++ entry :: after)) {line : List Char}
    (hentry : entry.text = Text.trim line) :
    Tabulates (lines ++ [line])
      (before ++ { entry with count := entry.count + 1 } :: after) := by
  have hnodup := h.nodup
  have hother : ∀ other ∈ before ++ after, other.text ≠ Text.trim line := by
    simp only [List.map_append, List.map_cons] at hnodup
    grind
  have hmem : entry ∈ before ++ entry :: after := by simp
  have hkept : ∀ other ∈ before ++ after, other ∈ before ++ entry :: after := by grind
  constructor
  case ordered => simpa using h.ordered
  case first =>
    intro other hmem'
    have hcases : other ∈ before ++ after ∨ other = { entry with count := entry.count + 1 } := by
      grind
    rcases hcases with hold | rfl
    · exact isLeast_append (h.first other (hkept other hold))
    · exact isLeast_append (h.first entry hmem)
  case count =>
    intro other hmem'
    have hcases : other ∈ before ++ after ∨ other = { entry with count := entry.count + 1 } := by
      grind
    rcases hcases with hold | rfl
    · have hcount := h.count other (hkept other hold)
      have hne := hother other hold
      grind
    · have hcount := h.count entry hmem
      grind
  case texts =>
    intro text
    have htexts := h.texts text
    grind

/-- One more line is read. -/
theorem step (h : Tabulates lines table) (line : List Char) :
    Tabulates (lines ++ [line])
      (if countsAsDuplicate (Text.trim line) then
        noteOccurrence (Text.trim line) (lines.length + 1) table else table) := by
  split
  · rename_i hline
    by_cases hseen : Text.trim line ∈ table.map (·.text)
    · obtain ⟨before, entry, after, rfl, hentry, hnote⟩ :=
        noteOccurrence_of_mem (lines.length + 1) hseen
      rw [hnote]
      exact h.note_again hentry
    · rw [noteOccurrence_of_not_mem _ hseen]
      exact h.note_new hline hseen
  · rename_i hline
    exact h.skip (by simpa using hline)

theorem run (h : Tabulates lines table) (rest : List (List Char)) :
    Tabulates (lines ++ rest) (repetitionsFrom (lines.length + 1) table rest) := by
  induction rest generalizing lines table with
  | nil => simpa [repetitionsFrom] using h
  | cons line rest ih => simpa [repetitionsFrom] using ih (h.step line)

end Tabulates

theorem tabulates_repetitions (lines : List (List Char)) :
    Tabulates lines (repetitionsFrom 1 [] lines) := by
  simpa using Tabulates.nil.run lines

/-! ### Texts that occur too often -/

theorem Text.unitLength_eq (text : List Char) :
    Text.unitLength text = (text.flatMap Text.unitsOf).length := by
  have hwidth : ∀ c, Text.unitWidth c = (Text.unitsOf c).length := by
    intro c
    simp only [Text.unitWidth, Text.unitsOf]
    split <;> rfl
  have hfold : ∀ n, text.foldl (fun n c => n + Text.unitWidth c) n =
      n + (text.flatMap Text.unitsOf).length := by
    induction text with
    | nil => simp
    | cons c rest ih =>
      intro n
      rw [List.foldl_cons, ih, hwidth, List.flatMap_cons, List.length_append, Nat.add_assoc]
  exact (hfold 0).trans (Nat.zero_add _)

/-- The texts that occur too often: without the blanks around it, such a text has more than twenty
units, does not begin with a comment's sign, and stands on at least three lines. -/
def repeatedTexts (lines : List (List Char)) : Finset (List Char) :=
  (lines.map Text.trim).toFinset.filter fun text =>
    20 < (text.flatMap Text.unitsOf).length ∧ text.head? ≠ some '#' ∧
      3 ≤ (lines.map Text.trim).count text

theorem mem_repeatedTexts {lines : List (List Char)} {text : List Char} :
    text ∈ repeatedTexts lines ↔ text ∈ (repeatedLines lines).map (·.text) := by
  have htable := tabulates_repetitions lines
  have hcounts : countsAsDuplicate text = true ↔
      20 < (text.flatMap Text.unitsOf).length ∧ text.head? ≠ some '#' := by
    simp [countsAsDuplicate, duplicateMinLength, Text.unitLength_eq]
  have htexts := htable.texts text
  have hcount := htable.count
  simp only [repeatedTexts, repeatedLines, Finset.mem_filter, List.mem_toFinset, List.mem_map,
    List.mem_filter, duplicateMaxOccurrences] at htexts hcount ⊢
  grind

theorem card_repeatedTexts (lines : List (List Char)) :
    (repeatedTexts lines).card = (repeatedLines lines).length := by
  have hnodup : ((repeatedLines lines).map (·.text)).Nodup :=
    (tabulates_repetitions lines).nodup.sublist (List.filter_sublist.map _)
  have htexts : repeatedTexts lines = ((repeatedLines lines).map (·.text)).toFinset := by
    ext text
    rw [mem_repeatedTexts, List.mem_toFinset]
  rw [htexts, List.toFinset_card_of_nodup hnodup, List.length_map]

/-- The first entry is on the earliest line of all texts that occur too often. -/
theorem isLeast_first {lines : List (List Char)} {entry : Repetition} {rest : List Repetition}
    (h : repeatedLines lines = entry :: rest) :
    IsLeast {n | ∃ text ∈ repeatedTexts lines, Bears lines n text} entry.first := by
  have htable := tabulates_repetitions lines
  have hlisted : ∀ other ∈ entry :: rest, IsLeast {n | Bears lines n other.text} other.first :=
    fun other hother => htable.first other (List.mem_of_mem_filter (h ▸ hother))
  have hordered : ((entry :: rest).map (·.first)).Pairwise (· < ·) :=
    h ▸ htable.ordered.sublist (List.filter_sublist.map _)
  constructor
  · refine ⟨entry.text, ?_, (hlisted entry List.mem_cons_self).1⟩
    rw [mem_repeatedTexts, h]
    exact List.mem_cons_self
  · rintro n ⟨text, htext, hn⟩
    rw [mem_repeatedTexts, h] at htext
    obtain ⟨other, hother, rfl⟩ := List.mem_map.1 htext
    have hle := (hlisted other hother).2 hn
    rw [List.map_cons, List.pairwise_cons] at hordered
    rcases List.mem_cons.1 hother with rfl | hrest
    · exact hle
    · have hlt := hordered.1 _ (List.mem_map_of_mem hrest)
      omega

/-- The check reports nothing if no text occurs too often. Otherwise it reports one match: on the
earliest line of these texts, with the text of that line, how many such texts there are, and how
often this one occurs. -/
theorem duplicateLines_counts_repeatedTexts :
    ∃ rule, builtinRule? "duplicate-lines" = some rule ∧ ∀ c : Context,
      (repeatedTexts c.unit.lines = ∅ ∧ rule.check c = .ok []) ∨
      ∃ n text, IsLeast {n | ∃ text ∈ repeatedTexts c.unit.lines, Bears c.unit.lines n text} n ∧
        Bears c.unit.lines n text ∧
        rule.check c = .ok [{
          line := LineNumber.ofNat n
          message := toString (repeatedTexts c.unit.lines).card ++
            " line(s) repeated more than 2 times, e.g. '" ++ String.ofList text ++ "' (" ++
            toString ((c.unit.lines.map Text.trim).count text) ++ "x)"
          evidence := some (String.ofList text)
          suggestion := some "Extract the repeated logic into a function" }] := by
  refine ⟨_, rfl, fun c => ?_⟩
  have hcard := card_repeatedTexts c.unit.lines
  simp only [Rule.ofCheck, duplicateLines]
  cases hrepeated : repeatedLines c.unit.lines with
  | nil =>
    rw [hrepeated, List.length_nil, Finset.card_eq_zero] at hcard
    exact .inl ⟨hcard, rfl⟩
  | cons entry rest =>
    have htable := tabulates_repetitions c.unit.lines
    have hentry : entry ∈ repetitionsFrom 1 [] c.unit.lines :=
      List.mem_of_mem_filter (hrepeated ▸ List.mem_cons_self)
    refine .inr ⟨entry.first, entry.text, isLeast_first hrepeated, (htable.first entry hentry).1, ?_⟩
    have hwording : " line(s) repeated more than 2 times, e.g. '" =
        " line(s) repeated more than " ++ toString duplicateMaxOccurrences ++ " times, " ++
          "e.g. '" := rfl
    rw [hcard, hrepeated, ← htable.count entry hentry, hwording]
    simp only [String.append_assoc]
    rfl

/-- The second text is the first one to occur three times, but the first text occurs earlier. -/
example :
    let first := "total = total + price".toList
    let second := "total = total - price".toList
    (repeatedLines [first, second, second, second, first, first]).map (·.first) = [1, 2] := by
  decide +kernel

end CodeGrade
