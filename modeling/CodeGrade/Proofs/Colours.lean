import CodeGrade.Proofs.Numerals
import CodeGrade.Report.Console

/-!
# Colours and text

A painted text is the text with escape sequences put between its characters. Where the text itself
holds no escape character, no sequence can run into it, and deleting the sequences gives the text
back, whatever its line breaks are and however styles are nested. So a report in colours shows what
the report without them shows.

## Main definitions

* `withoutSequences`: a text without its escape sequences.
* `Shows`: what is left of a painted text, whatever follows it.
* `EscapeFree`, `Report.EscapeFree`: texts and reports without escape characters.
-/

namespace CodeGrade

/-! ### Escape sequences -/

/-- What follows an escape sequence at the start of a text: the escape character, a bracket, digits
and the letter `m`. -/
def afterSequence? : List Char → Option (List Char)
  | '\x1b' :: '[' :: rest =>
    match rest.takeWhile Char.isDigit, rest.dropWhile Char.isDigit with
    | _ :: _, 'm' :: left => some left
    | _, _ => none
  | _ => none

theorem length_lt_of_afterSequence? {text left : List Char} (h : afterSequence? text = some left) :
    left.length < text.length := by
  unfold afterSequence? at h
  split at h
  · rename_i rest
    split at h
    · rename_i hleft
      have hlength := (List.dropWhile_sublist (l := rest) Char.isDigit).length_le
      rw [Option.some.injEq] at h
      rw [hleft, h, List.length_cons] at hlength
      simp only [List.length_cons]
      omega
    · cases h
  · cases h

/-- The text without its escape sequences. -/
def withoutSequences : List Char → List Char
  | [] => []
  | c :: rest =>
    match _h : afterSequence? (c :: rest) with
    | some left => withoutSequences left
    | none => c :: withoutSequences rest
termination_by text => text.length
decreasing_by
  · exact length_lt_of_afterSequence? _h
  · exact Nat.lt_succ_self _

theorem withoutSequences_of_some {text left : List Char} (h : afterSequence? text = some left) :
    withoutSequences text = withoutSequences left := by
  cases text with
  | nil => cases h
  | cons c rest =>
    rw [withoutSequences]
    split <;> simp_all

theorem withoutSequences_cons {c : Char} (hc : c ≠ '\x1b') (rest : List Char) :
    withoutSequences (c :: rest) = c :: withoutSequences rest := by
  have hnone : afterSequence? (c :: rest) = none := by
    rw [afterSequence?]
    exact fun more heq => hc (List.cons.inj heq).1
  rw [withoutSequences]
  split <;> simp_all

/-- Deleting the escape sequences leaves `plain` of `painted`, whatever follows it: no sequence is
left unfinished at its end. -/
def Shows (painted plain : List Char) : Prop :=
  ∀ rest, withoutSequences (painted ++ rest) = plain ++ withoutSequences rest

namespace Shows

variable {a b plain plain' : List Char}

theorem withoutSequences (h : Shows a plain) : CodeGrade.withoutSequences a = plain := by
  have hend := h []
  rwa [List.append_nil, CodeGrade.withoutSequences, List.append_nil] at hend

theorem append (h : Shows a plain) (h' : Shows b plain') : Shows (a ++ b) (plain ++ plain') := by
  intro rest
  rw [List.append_assoc, h, h', List.append_assoc]

theorem cons {c : Char} (hc : c ≠ '\x1b') (h : Shows a plain) : Shows (c :: a) (c :: plain) := by
  intro rest
  rw [List.cons_append, withoutSequences_cons hc, h, List.cons_append]

end Shows

theorem shows_nil : Shows [] [] := fun _ => rfl

theorem shows_of_not_mem {text : List Char} (h : '\x1b' ∉ text) : Shows text text := by
  induction text with
  | nil => exact shows_nil
  | cons c rest ih =>
    rw [List.mem_cons, not_or] at h
    exact .cons (Ne.symm h.1) (ih h.2)

/-! ### Styles -/

theorem shows_sequence {code : String} {digits : List Char} (hcode : code = String.ofList digits)
    (hne : digits ≠ []) (hdigits : digits.all Char.isDigit = true) :
    Shows (Style.sequence code) [] := by
  intro rest
  rw [List.all_eq_true] at hdigits
  have htake : (digits ++ 'm' :: rest).takeWhile Char.isDigit = digits := by
    rw [List.takeWhile_append_of_pos hdigits, List.takeWhile_cons_of_neg (by decide), List.append_nil]
  have hdrop : (digits ++ 'm' :: rest).dropWhile Char.isDigit = 'm' :: rest := by
    rw [List.dropWhile_append_of_pos hdigits, List.dropWhile_cons_of_neg (by decide)]
  apply withoutSequences_of_some
  rw [Style.sequence, hcode, String.toList_ofList, List.append_assoc]
  change afterSequence? ('\x1b' :: '[' :: (digits ++ 'm' :: rest)) = some rest
  rw [afterSequence?, htake, hdrop]
  cases digits with
  | nil => exact absurd rfl hne
  | cons digit digits => rfl

theorem Style.shows_opening (s : Style) : Shows s.opening [] := by
  cases s <;> exact shows_sequence rfl (List.cons_ne_nil _ _) rfl

theorem Style.shows_closing (s : Style) : Shows s.closing [] := by
  cases s <;> exact shows_sequence rfl (List.cons_ne_nil _ _) rfl

theorem shows_flatMap {f : Style → List Char} (h : ∀ s, Shows (f s) []) (styles : List Style) :
    Shows (styles.flatMap f) [] := by
  induction styles with
  | nil => exact shows_nil
  | cons s styles ih => exact (h s).append ih

theorem Style.exists_closing_eq (s : Style) : ∃ rest, s.closing = '\x1b' :: rest := by
  cases s <;> exact ⟨_, rfl⟩

theorem insertAfter_of_not_mem {text : List Char} (h : '\x1b' ∉ text) (mark addition : List Char) :
    insertAfter ('\x1b' :: mark) addition text = text := by
  induction text with
  | nil => rfl
  | cons c rest ih =>
    rw [List.mem_cons, not_or] at h
    have hafter : Text.after? ('\x1b' :: mark) (c :: rest) = none := if_neg h.1
    rw [insertAfter, insertAfterFrom, hafter]
    exact congrArg (c :: ·) (ih h.2)

/-- No style is closed inside a text without escape characters, so none is opened again. -/
theorem foldl_insertAfter_of_not_mem {text : List Char} (h : '\x1b' ∉ text) (styles : List Style) :
    styles.foldl (fun text s => insertAfter s.closing s.opening text) text = text := by
  induction styles with
  | nil => rfl
  | cons s styles ih =>
    obtain ⟨mark, hmark⟩ := s.exists_closing_eq
    rw [List.foldl_cons, hmark, insertAfter_of_not_mem h, ih]

theorem shows_aroundLineEnds {close reopen : List Char} (hclose : Shows close [])
    (hreopen : Shows reopen []) {text : List Char} (h : '\x1b' ∉ text) :
    Shows (aroundLineEnds close reopen text) text := by
  fun_induction aroundLineEnds close reopen text with
  | case1 => exact shows_nil
  | case2 rest ih =>
    -- The sequences stand around the two characters of the line end, not between them.
    have hrest := ih (by simpa using h)
    exact hclose.append (.cons (by decide) (.cons (by decide) (hreopen.append hrest)))
  | case3 rest hrest ih =>
    have hrest := ih (by simpa using h)
    exact hclose.append (.cons (by decide) (hreopen.append hrest))
  | case4 c rest hbreak hfeed ih =>
    rw [List.mem_cons, not_or] at h
    exact .cons (Ne.symm h.1) (ih h.2)

theorem shows_paintChars {text : List Char} (h : '\x1b' ∉ text) (styles : List Style) :
    Shows (paintChars styles text) text := by
  have hopen := shows_flatMap Style.shows_opening styles
  have hclose := shows_flatMap Style.shows_closing styles.reverse
  rw [paintChars]
  split
  · rename_i hempty
    rw [List.isEmpty_iff.1 hempty]
    exact shows_nil
  · simp only [foldl_insertAfter_of_not_mem h]
    have hshows := (hopen.append (shows_aroundLineEnds hclose hopen h)).append hclose
    rwa [List.nil_append, List.append_nil] at hshows

/-! ### Texts without escape characters -/

/-- The text holds no escape character. -/
def EscapeFree (text : String) : Prop := '\x1b' ∉ text.toList

theorem EscapeFree.append {a b : String} (ha : EscapeFree a) (hb : EscapeFree b) :
    EscapeFree (a ++ b) := by
  rw [EscapeFree, String.toList_append, List.mem_append, not_or]
  exact ⟨ha, hb⟩

theorem escapeFree_ofList {chars : List Char} (h : '\x1b' ∉ chars) :
    EscapeFree (String.ofList chars) := by
  rwa [EscapeFree, String.toList_ofList]

theorem escapeFree_literal {text : String} {chars : List Char} (h : text = String.ofList chars)
    (hchars : chars.all (· ≠ '\x1b') = true) : EscapeFree text :=
  fun hmem => of_decide_eq_true (forall_mem_literal h hchars _ hmem) rfl

theorem Numeral.escapeFree {text : String} (h : Numeral text) : EscapeFree text :=
  h.not_mem (by decide)

theorem escapeFree_nat (n : ℕ) : EscapeFree (toString n) := (numeral_nat n).escapeFree

theorem escapeFree_fixed (places : ℕ) (x : Float) : EscapeFree (Decimal.fixed places x) :=
  (Decimal.numeral_fixed places x).escapeFree

theorem not_mem_replicate {c : Char} (hc : c ≠ '\x1b') (n : ℕ) : '\x1b' ∉ List.replicate n c :=
  fun h => hc (List.eq_of_mem_replicate h).symm

theorem escapeFree_stars (score : Float) : EscapeFree (stars score) := by
  refine escapeFree_ofList (List.not_mem_append ?_ ?_)
  · exact not_mem_replicate (by decide) _
  · exact not_mem_replicate (by decide) _

theorem escapeFree_divider : EscapeFree divider :=
  escapeFree_ofList (not_mem_replicate (by decide) 80)

/-- One text shows another. -/
def ShowsText (painted plain : String) : Prop := Shows painted.toList plain.toList

theorem EscapeFree.showsText {text : String} (h : EscapeFree text) : ShowsText text text :=
  shows_of_not_mem h

theorem EscapeFree.showsText_paint {text : String} (h : EscapeFree text) (styles : List Style) :
    ShowsText (paint true styles text) (paint false styles text) := by
  change Shows (String.ofList (paintChars styles text.toList)).toList text.toList
  rw [String.toList_ofList]
  exact shows_paintChars h styles

/-- Lines show what their joined texts show. -/
theorem showsText_intercalate {painted plain : List String}
    (h : List.Forall₂ ShowsText painted plain) :
    ShowsText ("\n".intercalate painted) ("\n".intercalate plain) := by
  induction h with
  | nil => exact shows_nil
  | @cons line line' lines lines' hline hlines ih =>
    cases hlines with
    | nil => simpa only [String.intercalate_singleton] using hline
    | cons hsecond hlines =>
      have hfeed : ShowsText "\n" "\n" := (escapeFree_literal rfl rfl).showsText
      rw [String.intercalate_cons_cons, String.intercalate_cons_cons, ShowsText]
      simp only [String.toList_append]
      exact (hline.append hfeed).append ih

/-! ### Reports -/

theorem forall₂_flatMap {α β : Type} {R : β → β → Prop} {f g : α → List β} {xs : List α}
    (h : ∀ x ∈ xs, List.Forall₂ R (f x) (g x)) : List.Forall₂ R (xs.flatMap f) (xs.flatMap g) := by
  induction xs with
  | nil => exact .nil
  | cons x xs ih =>
    rw [List.forall_mem_cons] at h
    exact List.rel_append h.1 (ih h.2)

/-- The texts that a report shows hold no escape characters. -/
structure Report.EscapeFree (r : Report) : Prop where
  source : CodeGrade.EscapeFree r.source
  names : ∀ s ∈ r.categories, CodeGrade.EscapeFree s.name
  issues : ∀ issue ∈ r.issues, CodeGrade.EscapeFree issue.title ∧ CodeGrade.EscapeFree issue.message
  label : CodeGrade.EscapeFree r.verdict.label

theorem Issue.showsText_consoleLines {issue : Issue} (htitle : EscapeFree issue.title)
    (hmessage : EscapeFree issue.message) :
    List.Forall₂ ShowsText (issue.consoleLines true) (issue.consoleLines false) := by
  have hplace : EscapeFree
      (if issue.line.isPositive then "Line " ++ issue.line.text ++ ": " else "") := by
    split
    · exact ((escapeFree_literal rfl rfl).append issue.line.numeral_text.escapeFree).append
        (escapeFree_literal rfl rfl)
    · exact escapeFree_literal rfl rfl
  have hdash : EscapeFree "    - " := escapeFree_literal rfl rfl
  have hmargin : EscapeFree "      " := escapeFree_literal rfl rfl
  exact .cons ((hdash.append hplace).append htitle).showsText
    (.cons ((hmargin.append hmessage).showsText_paint _) .nil)

theorem Severity.escapeFree_heading (severity : Severity) : EscapeFree severity.heading := by
  cases severity <;> exact escapeFree_literal rfl rfl

theorem showsText_severityLines {issues : List Issue}
    (h : ∀ issue ∈ issues, EscapeFree issue.title ∧ EscapeFree issue.message) (severity : Severity) :
    List.Forall₂ ShowsText (severityLines true issues severity)
      (severityLines false issues severity) := by
  unfold severityLines
  extract_lets own count heading hidden
  split
  · exact .nil
  · have hopening : EscapeFree s!"  {heading} ({count}):" :=
      ((((escapeFree_literal rfl rfl).append severity.escapeFree_heading).append
        (escapeFree_literal rfl rfl)).append (escapeFree_nat count)).append
          (escapeFree_literal rfl rfl)
    have hclosing : EscapeFree s!"    ... and {hidden} more" :=
      ((escapeFree_literal rfl rfl).append (escapeFree_nat hidden)).append
        (escapeFree_literal rfl rfl)
    refine List.rel_append (List.rel_append ?_ (forall₂_flatMap fun issue hissue => ?_)) ?_
    · exact .cons (escapeFree_literal rfl rfl).showsText (.cons (hopening.showsText_paint _) .nil)
    · obtain ⟨htitle, hmessage⟩ := h issue (List.mem_filter.1 (List.mem_of_mem_take hissue)).1
      exact issue.showsText_consoleLines htitle hmessage
    · split
      · exact .cons (hclosing.showsText_paint _) .nil
      · exact .nil

theorem CategoryScore.escapeFree_line {s : CategoryScore Float} (h : EscapeFree s.name) :
    EscapeFree ("  - " ++ s.name ++ ": " ++ Decimal.fixed 1 s.score ++ "/10") :=
  ((((escapeFree_literal rfl rfl).append h).append (escapeFree_literal rfl rfl)).append
    (escapeFree_fixed 1 _)).append (escapeFree_literal rfl rfl)

theorem showsText_consoleLines {r : Report} (h : r.EscapeFree) :
    List.Forall₂ ShowsText (r.consoleLines true) (r.consoleLines false) := by
  have hempty : ShowsText "" "" := (escapeFree_literal rfl rfl).showsText
  have hdivider := escapeFree_divider.showsText
  have htitle : EscapeFree ("CODE QUALITY REPORT - " ++ r.source) :=
    (escapeFree_literal rfl rfl).append h.source
  have hoverall : EscapeFree
      ("Overall Quality Score: " ++ Decimal.fixed 1 r.overall ++ "/10 " ++ stars r.overall) :=
    (((escapeFree_literal rfl rfl).append (escapeFree_fixed 1 _)).append
      (escapeFree_literal rfl rfl)).append (escapeFree_stars _)
  have haverage : EscapeFree
      ("  - Avg Function Length: " ++ Decimal.fixed 1 r.metrics.averageFunctionLength ++ " lines") :=
    ((escapeFree_literal rfl rfl).append (escapeFree_fixed 1 _)).append (escapeFree_literal rfl rfl)
  have hcount {label : String} (hlabel : EscapeFree label) (n : ℕ) :
      EscapeFree (label ++ toString n) := hlabel.append (escapeFree_nat n)
  have hheading : EscapeFree "Category Scores:" := escapeFree_literal rfl rfl
  have hmetrics : EscapeFree "Code Metrics:" := escapeFree_literal rfl rfl
  -- The parts of the report in their order; only the two with issues and the average can be absent.
  refine List.rel_append (List.rel_append (List.rel_append (List.rel_append (List.rel_append
    (List.rel_append ?_ ?_) ?_) ?_) ?_) ?_) ?_
  · exact .cons hempty <| .cons hdivider <| .cons (htitle.showsText_paint _) <| .cons hdivider <|
      .cons hempty <| .cons hoverall.showsText <| .cons hempty <|
      .cons (hheading.showsText_paint _) .nil
  · rw [List.forall₂_map_left_iff, List.forall₂_map_right_iff, List.forall₂_same]
    exact fun s hs => (CategoryScore.escapeFree_line (h.names s hs)).showsText
  · exact .cons hempty <| .cons (hmetrics.showsText_paint _) <|
      .cons (hcount (escapeFree_literal rfl rfl) _).showsText <|
      .cons (hcount (escapeFree_literal rfl rfl) _).showsText <|
      .cons (hcount (escapeFree_literal rfl rfl) _).showsText .nil
  · split
    · exact .cons haverage.showsText .nil
    · exact .nil
  · exact .cons hempty <| .cons ((hcount (escapeFree_literal rfl rfl) _).showsText_paint _) .nil
  · exact forall₂_flatMap fun severity _ => showsText_severityLines h.issues severity
  · exact .cons hempty <| .cons hdivider <| .cons (h.label.showsText_paint _) <| .cons hdivider <|
      .cons hempty .nil

/-- Without its escape sequences, a report in colours is the report without colours. -/
theorem console_without_sequences (r : Report) (h : r.EscapeFree) :
    withoutSequences (r.console true).toList = (r.console false).toList :=
  (showsText_intercalate (showsText_consoleLines h)).withoutSequences

/-- A report with texts that are empty or have line breaks. -/
def brokenReport : Report where
  source := "a\r\nb.py"
  overall := 4.5
  categories := [⟨.security, "", 1.0, 4.5, 1⟩]
  issues := [⟨"todo", "", .security, .critical, LineNumber.ofNat 2, "[31m\n\nm", none, none⟩]
  counts := ⟨1, 0, 0, 0⟩
  metrics := ⟨2, 0, 0, 0, 0, 0.0, 0⟩
  verdict := ⟨.notReady, "\n", false, 1, 0⟩

theorem brokenReport_without_sequences :
    brokenReport.EscapeFree ∧ brokenReport.console true ≠ brokenReport.console false ∧
      withoutSequences (brokenReport.console true).toList = (brokenReport.console false).toList := by
  have h : brokenReport.EscapeFree := by
    refine ⟨escapeFree_literal rfl rfl, ?_, ?_, escapeFree_literal rfl rfl⟩
    · exact List.forall_mem_singleton.2 (escapeFree_literal rfl rfl)
    · exact List.forall_mem_singleton.2 ⟨escapeFree_literal rfl rfl, escapeFree_literal rfl rfl⟩
  exact ⟨h, by decide +kernel, console_without_sequences brokenReport h⟩

end CodeGrade
