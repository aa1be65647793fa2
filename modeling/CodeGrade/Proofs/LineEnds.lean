import CodeGrade.Proofs.Lines

/-!
# Line ends

A line ends with a line feed, with a carriage return, or with both together. A text is split into
the same lines whichever of them it uses, the lines joined again are the text with line feeds only,
and lines that are written with one of the three ends are read back.

## Main definitions

* `mergeReturns`, `withFeeds`: a text with line feeds for all its line ends.
* `withoutFinalFeed`: a text without the line feed at its end.
* `lineEnds`: the three ways to end a line.
-/

namespace CodeGrade

/-- The text with a line feed for each carriage return that a line feed follows. -/
def mergeReturns : List Char → List Char
  | [] => []
  | '\r' :: '\n' :: rest => '\n' :: mergeReturns rest
  | c :: rest => c :: mergeReturns rest

/-- The text with a line feed for each of its line ends: first for those of two characters, then for
the carriage returns that are left. -/
def withFeeds (text : List Char) : List Char :=
  (mergeReturns text).map fun c => if c = '\r' then '\n' else c

/-- The text without the line feed at its end, if there is one. -/
def withoutFinalFeed (text : List Char) : List Char :=
  if text.getLast? = some '\n' then text.dropLast else text

/-- The three ways to end a line. -/
def lineEnds : List (List Char) := [['\n'], ['\r', '\n'], ['\r']]

/-! ### Line feeds only -/

theorem mergeReturns_cons {c : Char} {rest : List Char}
    (h : c = '\r' → ∀ more, rest ≠ '\n' :: more) :
    mergeReturns (c :: rest) = c :: mergeReturns rest := by
  rw [mergeReturns]
  rintro more rfl rfl
  exact h rfl more rfl

theorem return_not_mem_withFeeds (text : List Char) : '\r' ∉ withFeeds text := by
  rw [withFeeds, List.mem_map]
  rintro ⟨c, -, hc⟩
  split at hc
  · exact absurd hc (by decide)
  · contradiction

theorem withFeeds_of_not_mem {text : List Char} (h : '\r' ∉ text) : withFeeds text = text := by
  induction text with
  | nil => rfl
  | cons c rest ih =>
    rw [List.mem_cons, not_or] at h
    have ih := ih h.2
    rw [withFeeds] at ih ⊢
    rw [mergeReturns_cons fun hc => absurd hc.symm h.1, List.map_cons, ih, if_neg (Ne.symm h.1)]

theorem withFeeds_eq_nil {text : List Char} : withFeeds text = [] ↔ text = [] := by
  rw [withFeeds, List.map_eq_nil_iff]
  constructor
  · fun_cases mergeReturns text <;> simp
  · rintro rfl
    rfl

/-- The pieces of a text between its line ends are those between the line feeds that stand for
them. -/
theorem linePieces_eq_splitOnPPrepend (current text : List Char) :
    linePieces current text = (withFeeds text).splitOnPPrepend (· == '\n') current := by
  fun_induction linePieces current text with
  | case1 current => rfl
  | case2 current rest ih => rw [ih]; rfl
  | case3 current rest hrest ih =>
    rw [ih, withFeeds, withFeeds, mergeReturns_cons fun _ => hrest]
    rfl
  | case4 current rest ih =>
    rw [ih, withFeeds, withFeeds, mergeReturns_cons fun hc => absurd hc (by decide)]
    rfl
  | case5 current c rest hreturn₁ hreturn hfeed ih =>
    rw [ih, withFeeds, withFeeds, mergeReturns_cons fun hc => absurd hc hreturn, List.map_cons,
      if_neg hreturn, List.splitOnPPrepend, if_neg (by simpa using hfeed)]

theorem linePieces_eq_splitOn (text : List Char) :
    linePieces [] text = (withFeeds text).splitOn '\n' :=
  linePieces_eq_splitOnPPrepend [] text

theorem splitLines_withFeeds (text : List Char) : splitLines (withFeeds text) = splitLines text := by
  rw [splitLines, splitLines, linePieces_eq_splitOn, linePieces_eq_splitOn,
    withFeeds_of_not_mem (return_not_mem_withFeeds text)]

/-! ### Lines joined again -/

theorem intercalate_linePieces (text : List Char) :
    ['\n'].intercalate (linePieces [] text) = withFeeds text := by
  rw [linePieces_eq_splitOn, List.intercalate_splitOn]

/-- The last piece decides whether the text ends with a line end. -/
theorem exists_linePieces_eq_concat (text : List Char) :
    ∃ lines last, linePieces [] text = lines ++ [last] ∧ Unbroken last ∧
      splitLines text = if last = [] then lines else lines ++ [last] := by
  obtain ⟨lines, last, hpieces⟩ :=
    (List.eq_nil_or_concat' (linePieces [] text)).resolve_left (linePieces_ne_nil [] text)
  have hlast : Unbroken last := unbroken_linePieces unbroken_nil text last (by simp [hpieces])
  refine ⟨lines, last, hpieces, hlast, ?_⟩
  simp [splitLines, hpieces]

theorem intercalate_concat {lines : List (List Char)} (hlines : lines ≠ []) (last : List Char) :
    ['\n'].intercalate (lines ++ [last]) = ['\n'].intercalate lines ++ '\n' :: last := by
  induction lines with
  | nil => exact absurd rfl hlines
  | cons line lines ih =>
    cases lines with
    | nil => simp [List.intercalate_cons_cons]
    | cons second lines =>
      rw [List.cons_append, List.cons_append, List.intercalate_cons_cons, ← List.cons_append,
        ih (List.cons_ne_nil _ _), List.intercalate_cons_cons, ← List.append_assoc]

theorem withoutFinalFeed_append {last : List Char} (hlast : Unbroken last) (hne : last ≠ [])
    (before : List Char) : withoutFinalFeed (before ++ last) = before ++ last := by
  rw [withoutFinalFeed, List.getLast?_append_of_ne_nil _ hne, if_neg]
  exact fun h => hlast.feed_not_mem (List.mem_of_getLast? h)

theorem intercalate_splitLines (text : List Char) :
    ['\n'].intercalate (splitLines text) = withoutFinalFeed (withFeeds text) := by
  obtain ⟨lines, last, hpieces, hunbroken, hsplit⟩ := exists_linePieces_eq_concat text
  have hjoined := intercalate_linePieces text
  rw [hpieces] at hjoined
  rw [hsplit, ← hjoined]
  rcases eq_or_ne lines [] with rfl | hlines
  · rcases eq_or_ne last [] with rfl | hlast
    · rfl
    · rw [if_neg hlast, List.nil_append, List.intercalate_singleton]
      exact (withoutFinalFeed_append hunbroken hlast []).symm
  · rw [intercalate_concat hlines]
    rcases eq_or_ne last [] with rfl | hlast
    · rw [if_pos rfl, withoutFinalFeed, if_pos List.getLast?_concat, List.dropLast_concat]
    · rw [if_neg hlast, intercalate_concat hlines, List.append_cons,
        withoutFinalFeed_append hunbroken hlast]

theorem splitLines_eq_nil {text : List Char} : splitLines text = [] ↔ text = [] := by
  obtain ⟨lines, last, hpieces, -, hsplit⟩ := exists_linePieces_eq_concat text
  constructor
  · intro hnil
    rw [hsplit] at hnil
    split at hnil
    · rename_i hlast
      have hjoined := intercalate_linePieces text
      rw [hpieces, hnil, hlast] at hjoined
      exact withFeeds_eq_nil.1 hjoined.symm
    · simp at hnil
  · rintro rfl
    rfl

/-! ### Lines written out -/

theorem linePieces_append_unbroken {line : List Char} (h : Unbroken line) (current rest : List Char) :
    linePieces current (line ++ rest) = linePieces (line.reverse ++ current) rest := by
  induction line generalizing current with
  | nil => rfl
  | cons c line ih =>
    rw [unbroken_cons] at h
    rw [List.cons_append, linePieces_cons h.1, ih h.2, List.reverse_cons, List.append_assoc]
    rfl

/-- Lines that end with carriage returns do not start with a line feed. -/
theorem flatMap_return_ne_feed {lines : List (List Char)} (h : ∀ line ∈ lines, Unbroken line)
    (more : List Char) : lines.flatMap (· ++ ['\r']) ≠ '\n' :: more := by
  rcases lines with _ | ⟨_ | ⟨c, line⟩, lines⟩
  · simp
  · simp
  · rw [List.flatMap_cons, List.cons_append, List.cons_append]
    intro heq
    have hc := (unbroken_cons.1 (h _ List.mem_cons_self)).1
    rw [(List.cons.inj heq).1] at hc
    exact absurd hc (by decide)

/-- Each end closes the line before it. -/
theorem linePieces_end {e : List Char} (he : e ∈ lineEnds) {lines : List (List Char)}
    (h : ∀ line ∈ lines, Unbroken line) (current : List Char) :
    linePieces current (e ++ lines.flatMap (· ++ e)) =
      current.reverse :: linePieces [] (lines.flatMap (· ++ e)) := by
  simp only [lineEnds, List.mem_cons, List.not_mem_nil, or_false] at he
  rcases he with rfl | rfl | rfl
  · rfl
  · rfl
  · exact linePieces_return current (flatMap_return_ne_feed h)

theorem linePieces_flatMap {e : List Char} (he : e ∈ lineEnds) {lines : List (List Char)}
    (h : ∀ line ∈ lines, Unbroken line) : linePieces [] (lines.flatMap (· ++ e)) = lines ++ [[]] := by
  induction lines with
  | nil => rfl
  | cons line lines ih =>
    rw [List.forall_mem_cons] at h
    rw [List.flatMap_cons, List.append_assoc, linePieces_append_unbroken h.1, linePieces_end he h.2,
      ih h.2, List.append_nil, List.reverse_reverse]
    rfl

theorem splitLines_flatMap {e : List Char} (he : e ∈ lineEnds) {lines : List (List Char)}
    (h : ∀ line ∈ lines, Unbroken line) : splitLines (lines.flatMap (· ++ e)) = lines := by
  simp [splitLines, linePieces_flatMap he h]

/-- The lines of a text do not depend on how they end, they hold no line end, and joined with line
feeds they are the text, less the end of its last line; only the empty text has no lines. Lines
written with any of the ends are the lines of the result. -/
theorem splitLines_reads_every_lineEnd (text : List Char) :
    splitLines text = splitLines (withFeeds text) ∧
      (∀ line ∈ splitLines text, '\r' ∉ line ∧ '\n' ∉ line) ∧
      ['\n'].intercalate (splitLines text) = withoutFinalFeed (withFeeds text) ∧
      (splitLines text = [] ↔ text = []) ∧
      ∀ lines : List (List Char), (∀ line ∈ lines, '\r' ∉ line ∧ '\n' ∉ line) →
        ∀ e ∈ lineEnds, splitLines (lines.flatMap (· ++ e)) = lines := by
  refine ⟨(splitLines_withFeeds text).symm, fun line hline => ?_, intercalate_splitLines text,
    splitLines_eq_nil, fun lines hlines e he => splitLines_flatMap he fun line hline => ?_⟩
  · exact unbroken_iff.1 (unbroken_splitLines text line hline)
  · exact unbroken_iff.2 (hlines line hline)

/-- A carriage return belongs to the line feed after it and not to a carriage return before it. -/
theorem mixed_lineEnds_read :
    withFeeds ['a', '\r', '\r', '\n', 'b', '\n', '\r'] = ['a', '\n', '\n', 'b', '\n', '\n'] ∧
      ['\n'].intercalate (splitLines ['a', '\r', '\r', '\n', 'b', '\n', '\r']) =
        ['a', '\n', '\n', 'b', '\n'] ∧
      splitLines ['\r', 'a', '\r', '\r'] = [[], ['a'], []] := by
  obtain ⟨-, -, hjoined, -, hwritten⟩ :=
    splitLines_reads_every_lineEnd ['a', '\r', '\r', '\n', 'b', '\n', '\r']
  exact ⟨rfl, hjoined, hwritten [[], ['a'], []] (by decide) ['\r'] (by decide)⟩

end CodeGrade
