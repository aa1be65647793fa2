import CodeGrade.Proofs.Balance
import CodeGrade.Proofs.Concatenation

/-!
# Blank lines and comment lines

A line that holds nothing but blanks, or a comment after them, is put between two lines of an
accepted text that are not joined. The text is still accepted, and its outline changes only in the
numbers of the lines below the new one: the line starts no statement, ends no block and leaves
decorators and docstrings to what follows it, whatever the comment holds.

## Main definitions

* `IdleLine`: a line without code.
* `SourceUnit.insert`: a unit with one more line.
* `raise`: the number of a line after one was put in above it.
* `Outline.Raised`: an outline after the line was put in.
-/

namespace CodeGrade

/-- A line without code: blanks, and perhaps a hash with the text of a comment after it. -/
structure IdleLine where
  blanks : List Char
  comment : Option (List Char)
  allBlank : Text.allBlank blanks = true
  decodable : ∀ text ∈ comment, text.any isUndecodable = false

namespace IdleLine

/-- The comment of the line, with its hash. -/
def comment? (line : IdleLine) : Option (List Char) := line.comment.map ('#' :: ·)

/-- The characters of the line. -/
def text (line : IdleLine) : List Char := line.blanks ++ line.comment?.getD []

end IdleLine

/-- The unit with a line put in below its first `k` lines. -/
def SourceUnit.insert (unit : SourceUnit) (k : Nat) (line : IdleLine) : SourceUnit :=
  { unit with lines := unit.lines.take k ++ line.text :: unit.lines.drop k }

/-- The number that line `n` has after a line was put in below line `k`. -/
def raise (k n : Nat) : Nat := if k < n then n + 1 else n

def Element.raise (k : Nat) (e : Element) : Element :=
  { e with startLine := CodeGrade.raise k e.startLine, endLine := CodeGrade.raise k e.endLine }

def LogicalLine.raise (k : Nat) (line : LogicalLine) : LogicalLine :=
  { line with
    startLine := CodeGrade.raise k line.startLine
    endLine := CodeGrade.raise k line.endLine }

/-- The outline `raised` is `outline` after a line was put in below line `k`: elements and
statements are the same on raised lines, the new comment stands between those above and those below,
and one more line is counted, either as blank or as a comment. -/
structure Outline.Raised (outline raised : Outline) (k : Nat) (line : IdleLine) : Prop where
  elements : raised.elements = outline.elements.map (·.raise k)
  lines : raised.lines = outline.lines.map (·.raise k)
  comments : raised.comments =
    outline.comments.filter (·.line ≤ k) ++ (line.comment?.map (⟨k + 1, ·⟩)).toList ++
      (outline.comments.filter (k < ·.line)).map (·.shift 1)
  totalLines : raised.metrics.totalLines = outline.metrics.totalLines + 1
  blankLines : raised.metrics.blankLines =
    outline.metrics.blankLines + if line.comment = none then 1 else 0
  commentLines : raised.metrics.commentLines =
    outline.metrics.commentLines + if line.comment = none then 0 else 1

/-! ### Masking the line -/

/-- Trimming the end of a text leaves its first visible character. -/
theorem Text.head?_trim (text : List Char) : (trim text).head? = (trimStart text).head? := by
  obtain ⟨-, -, -, hvisible⟩ := trimStart_eq_iff.1 (rfl : trimStart text = _)
  rw [trim]
  cases htext : trimStart text with
  | nil => rfl
  | cons c rest =>
    have hc : isBlank c = false := by simpa [htext] using hvisible
    rw [trimEnd, List.reverse_cons, List.dropWhile_append]
    split <;> simp [hc]

theorem not_isUndecodable_of_isBlank {c : Char} (h : Text.isBlank c = true) :
    isUndecodable c = false := by
  simp only [Text.isBlank, isUndecodable, Bool.or_eq_true, Bool.and_eq_true, decide_eq_true_eq,
    beq_iff_eq, Bool.or_eq_false_iff, decide_eq_false_iff_not] at h ⊢
  omega

theorem scanLine_blank {c : Char} (h : Text.isBlank c = true) (number : Nat)
    (brackets : List OpenBracket) (rest : List Char) :
    scanLine number none brackets (c :: rest) =
      emit [c] (scanLine number none brackets rest) := by
  have hhash : c ≠ '#' := by
    rintro rfl
    cases h
  have hjoin : ¬ (c = '\\' ∧ rest = []) := by
    rintro ⟨rfl, -⟩
    cases h
  have hquote : isQuote c = false := by
    by_contra hquote
    rw [not_isBlank_of_isQuote (by simpa using hquote)] at h
    cases h
  have hbracket := not_isBracket_of_isBlank h
  simp only [isBracket, isOpener, isCloser, Bool.or_eq_false_iff, Option.isSome_eq_false_iff,
    Option.isNone_iff_eq_none] at hbracket
  rw [scanLine_eq_interpret, scanLine_eq_interpret, Option.map_none,
    lexemes_plain hhash hquote hjoin]
  simp [interpret, hbracket]

namespace IdleLine

variable (line : IdleLine)

/-- The line as it is masked. -/
def masked (number : Nat) : MaskedLine := ⟨number, line.text, line.blanks, line.comment?, false⟩

theorem scanLine_text (number : Nat) :
    scanLine number none [] line.text = .ok ⟨line.blanks, line.comment?, .empty, false, false⟩ := by
  have hblanks (blanks : List Char) (h : Text.allBlank blanks = true) :
      scanLine number none [] (blanks ++ line.comment?.getD []) =
        .ok ⟨blanks, line.comment?, .empty, false, false⟩ := by
    induction blanks with
    | nil =>
      cases hcomment : line.comment with
      | none => simp [comment?, hcomment, scanLine, Carry.empty]
      | some text =>
        simp only [comment?, hcomment, List.nil_append, Option.map_some, Option.getD_some]
        rw [scanLine_eq_interpret, Option.map_none, lexemes_comment]
        rfl
    | cons c rest ih =>
      rw [Text.allBlank, List.all_cons, Bool.and_eq_true] at h
      rw [List.cons_append, scanLine_blank h.1, ih h.2]
      rfl
  exact hblanks line.blanks line.allBlank

theorem any_isUndecodable_text : line.text.any isUndecodable = false := by
  have hblanks : line.blanks.any isUndecodable = false := by
    rw [List.any_eq_false]
    intro c hc
    simp [not_isUndecodable_of_isBlank (List.all_eq_true.1 line.allBlank c hc)]
  rw [text, List.any_append, hblanks, Bool.false_or, comment?]
  cases hcomment : line.comment with
  | none => rfl
  | some text => exact line.decodable text hcomment

/-- The line leaves nothing open. -/
theorem maskLine_text (number : Nat) :
    maskLine number .empty line.text = .ok (line.masked number, .empty) := by
  refine maskLine_eq_ok.2 ⟨line.any_isUndecodable_text, _, line.scanLine_text number, ?_, rfl, rfl⟩
  simp [ScannedLine.MayEnd, Carry.empty]

/-- The line starts no statement. -/
theorem extend_masked (number : Nat) : Statement.extend none (line.masked number) = none :=
  extend_eq_none.2 ⟨rfl, line.allBlank⟩

theorem isBlankLine_text : isBlankLine line.text = decide (line.comment = none) := by
  rw [Bool.eq_iff_iff, isBlankLine, List.isEmpty_iff, Text.trim_eq_nil, decide_eq_true_eq, text,
    comment?, Text.allBlank, List.all_append, ← Text.allBlank, line.allBlank, Bool.true_and]
  cases line.comment with
  | none => simp
  | some text =>
    have hhash : Text.isBlank '#' = false := rfl
    simp [hhash]

theorem isCommentLine_text : isCommentLine line.text = !decide (line.comment = none) := by
  rw [isCommentLine, Text.head?_trim, text, comment?]
  cases line.comment with
  | none =>
    have hblank : Text.trimStart line.blanks = [] :=
      Text.trimStart_eq_iff.2 ⟨line.blanks, line.allBlank, by simp, rfl⟩
    simp [hblank]
  | some text =>
    have hhash : Text.trimStart (line.blanks ++ '#' :: text) = '#' :: text :=
      Text.trimStart_eq_iff.2 ⟨line.blanks, line.allBlank, rfl, rfl⟩
    simp [hhash]

end IdleLine

/-! ### The lines above and below -/

/-- Nothing is open after a line that does not continue. -/
theorem carry_of_maskLine {number : Nat} {carry carry' : Carry} {raw : List Char}
    {line : MaskedLine} (h : maskLine number carry raw = .ok (line, carry'))
    (hcontinues : line.continues = false) : carry' = .empty := by
  obtain ⟨-, scanned, -, -, rfl, rfl⟩ := maskLine_eq_ok.1 h
  rcases scanned with ⟨code, comment, ⟨string, brackets⟩, escaped, joined⟩
  simp_all [ScannedLine.masked, Carry.empty]

/-- Lines are masked apart where nothing is open between them. -/
theorem maskFrom_split {number : Nat} {carry : Carry} {above below : List (List Char)}
    {masked : List MaskedLine} (h : maskFrom number carry (above ++ below) = .ok masked)
    (hcarry : above = [] → carry = .empty)
    (hlast : ∀ line ∈ masked, line.number + 1 = number + above.length → line.continues = false) :
    ∃ first second, maskFrom number carry above = .ok first ∧
      maskFrom (number + above.length) .empty below = .ok second ∧ masked = first ++ second := by
  induction above generalizing number carry masked with
  | nil =>
    obtain rfl := hcarry rfl
    exact ⟨[], masked, rfl, h, rfl⟩
  | cons raw rest ih =>
    obtain ⟨line, carry', lines, hline, hrest, rfl⟩ := maskFrom_cons_eq_ok.1 h
    obtain ⟨hfirst, hlines⟩ := List.forall_mem_cons.1 hlast
    have hnumber : line.number = number := by
      obtain ⟨-, scanned, -, -, rfl, -⟩ := maskLine_eq_ok.1 hline
      rfl
    simp only [List.length_cons] at hfirst hlines ⊢
    -- What is open matters only after the last line above, and that line does not continue.
    have hsettled : rest = [] → carry' = .empty := by
      rintro rfl
      exact carry_of_maskLine hline (hfirst (by simp [hnumber]))
    obtain ⟨first, second, hfirst', hsecond, rfl⟩ :=
      ih hrest hsettled fun line hmem hnumber => hlines line hmem (by omega)
    refine ⟨line :: first, second, maskFrom_cons_eq_ok.2 ⟨line, carry', first, hline, hfirst', rfl⟩,
      ?_, rfl⟩
    rw [← hsecond]
    congr 1
    omega

theorem number_of_getLast? {number : Nat} {carry : Carry} {lines : List (List Char)}
    {masked : List MaskedLine} (h : maskFrom number carry lines = .ok masked) {line : MaskedLine}
    (hline : line ∈ masked.getLast?) : line.number + 1 = number + lines.length := by
  have hlast := congrArg List.getLast? (number_maskFrom h)
  rw [List.getLast?_map, hline, List.getLast?_range', Option.map_some] at hlast
  split at hlast
  · cases hlast
  · have := Option.some.inj hlast
    omega

theorem line_of_commentsOf {number : Nat} {carry : Carry} {lines : List (List Char)}
    {masked : List MaskedLine} (h : maskFrom number carry lines = .ok masked) {comment : Comment}
    (hcomment : comment ∈ commentsOf masked) :
    number ≤ comment.line ∧ comment.line < number + lines.length := by
  obtain ⟨line, hline, hsome⟩ := List.mem_filterMap.1 hcomment
  obtain ⟨text, -, rfl⟩ := Option.map_eq_some_iff.1 hsome
  have hmem := List.mem_map_of_mem (f := (·.number)) hline
  rw [number_maskFrom h, List.mem_range'_1] at hmem
  exact hmem

/-- What masking gives for a unit in two parts between which nothing is open, before and after a
line was put in between them. -/
structure Cut (unit : SourceUnit) (k : Nat) (line : IdleLine) (above below : List MaskedLine) :
    Prop where
  maskAbove : maskFrom 1 .empty (unit.lines.take k) = .ok above
  maskBelow : maskFrom (1 + k) .empty (unit.lines.drop k) = .ok below
  settled : ∀ last ∈ above.getLast?, last.continues = false
  mask : mask (unit.insert k line) = .ok (above ++ line.masked (k + 1) :: below.map (·.shift 1))

theorem exists_cut {unit : SourceUnit} {masked : List MaskedLine} (hmask : mask unit = .ok masked)
    {k : Nat} (hk : k ≤ unit.lines.length)
    (hopen : ∀ above ∈ masked, above.number = k → above.continues = false) (line : IdleLine) :
    ∃ above below, masked = above ++ below ∧ Cut unit k line above below := by
  have hlength : (unit.lines.take k).length = k := by simpa using hk
  rw [mask, ← List.take_append_drop k unit.lines] at hmask
  obtain ⟨above, below, habove, hbelow, rfl⟩ := maskFrom_split hmask (fun _ => rfl)
    (fun last hlast hnumber => hopen last hlast (by omega))
  rw [hlength] at hbelow
  have hshift := maskFrom_shift 1 (1 + k) .empty (unit.lines.drop k)
  rw [Carry.shift_empty, hbelow, shifted_ok] at hshift
  have hinserted : maskFrom (1 + k) .empty (line.text :: unit.lines.drop k) =
      .ok (line.masked (1 + k) :: below.map (·.shift 1)) :=
    maskFrom_cons_eq_ok.2 ⟨_, _, _, line.maskLine_text (1 + k), hshift, rfl⟩
  refine ⟨above, below, rfl, habove, hbelow, ?_, ?_⟩
  · intro last hlast
    have hnumber := number_of_getLast? habove hlast
    exact hopen last (List.mem_append_left _ (List.mem_of_getLast? hlast)) (by omega)
  · rw [mask, SourceUnit.insert, maskFrom_append habove, hlength, hinserted, Nat.add_comm 1 k]
    rfl

/-! ### The outline -/

/-- Raising the lines below line `k`. -/
def Relabelling.insertion (k : Nat) : Relabelling := .ofLine (raise k) 0 0

theorem Element.relabel_insertion (k : Nat) (e : Element) :
    e.relabel (.insertion k) = e.raise k := by
  simp [Element.relabel, Relabelling.insertion, Relabelling.ofLine, Element.raise]

theorem LogicalLine.relabel_insertion (k : Nat) (line : LogicalLine) :
    line.relabel (.insertion k) = line.raise k := by
  simp [LogicalLine.relabel, Relabelling.insertion, Relabelling.ofLine, LogicalLine.raise]

theorem Statement.relabel_insertion_above {k : Nat} {statement : Statement}
    (hspan : statement.startLine ≤ statement.endLine) (hend : statement.endLine ≤ k) :
    statement.relabel (.insertion k) = statement := by
  have hstart : ¬ k < statement.startLine := by omega
  have hend : ¬ k < statement.endLine := by omega
  simp [Statement.relabel, Relabelling.insertion, Relabelling.ofLine, raise, hstart, hend]

theorem Statement.relabel_insertion_below {k : Nat} {statement : Statement}
    (hstart : k < statement.startLine) (hspan : statement.startLine ≤ statement.endLine) :
    statement.relabel (.insertion k) = statement.shift 1 := by
  have hend : k < statement.endLine := by omega
  simp [Statement.relabel, Relabelling.insertion, Relabelling.ofLine, raise, Statement.shift,
    hstart, hend]

namespace Cut

variable {unit : SourceUnit} {k : Nat} {line : IdleLine} {above below : List MaskedLine}
  (h : Cut unit k line above below)

include h

/-- The statements stay the same and are raised below the line. -/
theorem joinLines_eq :
    joinLines (above ++ line.masked (k + 1) :: below.map (·.shift 1)) =
      (joinLines (above ++ below)).map (·.relabel (.insertion k)) := by
  have hopen := openAfter_eq_none h.settled
  -- Statements above the line end there, and those below start there.
  have habove : (joinLines above).map (·.relabel (.insertion k)) = joinLines above := by
    refine (List.map_congr_left fun statement hmem => ?_).trans (List.map_id _)
    have hbounds := (ordered_joinLines h.maskAbove).bounds statement hmem
    rw [List.length_take] at hbounds
    exact Statement.relabel_insertion_above hbounds.2.1 (by omega)
  have hbelow : (joinLines below).map (·.relabel (.insertion k)) =
      (joinLines below).map (·.shift 1) := by
    refine List.map_congr_left fun statement hmem => ?_
    have hbounds := (ordered_joinLines h.maskBelow).bounds statement hmem
    exact Statement.relabel_insertion_below (by omega) hbounds.2.1
  have hidle : joinFrom none (line.masked (k + 1) :: below.map (·.shift 1)) =
      (joinLines below).map (·.shift 1) := by
    rw [joinFrom, line.extend_masked]
    exact joinFrom_shift 1 none below
  rw [joinLines, joinLines, joinFrom_append, joinFrom_append, hopen, hidle, List.map_append,
    ← joinLines, ← joinLines, habove, hbelow]

theorem commentsOf_eq :
    commentsOf (above ++ line.masked (k + 1) :: below.map (·.shift 1)) =
      (commentsOf (above ++ below)).filter (·.line ≤ k) ++
        (line.comment?.map (⟨k + 1, ·⟩)).toList ++
        ((commentsOf (above ++ below)).filter (k < ·.line)).map (·.shift 1) := by
  have happend (lines more : List MaskedLine) :
      commentsOf (lines ++ more) = commentsOf lines ++ commentsOf more :=
    List.filterMap_append
  have hline : commentsOf (line.masked (k + 1) :: below.map (·.shift 1)) =
      (line.comment?.map (⟨k + 1, ·⟩)).toList ++ (commentsOf below).map (·.shift 1) := by
    rw [← commentsOf_shift]
    cases hcomment : line.comment? <;> simp [commentsOf, IdleLine.masked, hcomment]
  have habove : ∀ comment ∈ commentsOf above, comment.line ≤ k := by
    intro comment hcomment
    have hbounds := line_of_commentsOf h.maskAbove hcomment
    rw [List.length_take] at hbounds
    omega
  have hbelow : ∀ comment ∈ commentsOf below, k < comment.line := by
    intro comment hcomment
    have hbounds := line_of_commentsOf h.maskBelow hcomment
    omega
  have hfirst : (commentsOf (above ++ below)).filter (·.line ≤ k) = commentsOf above := by
    rw [happend, List.filter_append, List.filter_eq_self.2 (by simpa using habove),
      List.filter_eq_nil_iff.2 (by simpa using hbelow), List.append_nil]
  have hsecond : (commentsOf (above ++ below)).filter (k < ·.line) = commentsOf below := by
    rw [happend, List.filter_append, List.filter_eq_nil_iff.2 (by simpa using habove),
      List.filter_eq_self.2 (by simpa using hbelow), List.nil_append]
  rw [hfirst, hsecond, happend, hline, List.append_assoc]

end Cut

theorem countP_insert (p : List Char → Bool) (unit : SourceUnit) (k : Nat) (line : IdleLine) :
    (unit.insert k line).lines.countP p =
      unit.lines.countP p + if p line.text = true then 1 else 0 := by
  have hsplit : unit.lines.countP p =
      (unit.lines.take k).countP p + (unit.lines.drop k).countP p := by
    rw [← List.countP_append, List.take_append_drop]
  rw [SourceUnit.insert, List.countP_append, List.countP_cons, hsplit]
  omega

/-- A blank line or a comment line between two lines that are not joined only raises the lines
below it. -/
theorem ofUnit_insert {unit : SourceUnit} {masked : List MaskedLine} {outline : Outline}
    (houtline : Outline.ofUnit unit = .ok outline) (hmask : mask unit = .ok masked) {k : Nat}
    (hk : k ≤ unit.lines.length)
    (hopen : ∀ above ∈ masked, above.number = k → above.continues = false) (line : IdleLine) :
    ∃ raised, Outline.ofUnit (unit.insert k line) = .ok raised ∧
      outline.Raised raised k line := by
  obtain ⟨above, below, rfl, hcut⟩ := exists_cut hmask hk hopen line
  obtain ⟨_, b, hmask', hbuilt, rfl⟩ := Outline.ofUnit_eq_ok.1 houtline
  obtain rfl := Except.ok.inj (hmask'.symm.trans hmask)
  have hsteps := @Builder.steps_relabel (.insertion k) _ _ hbuilt ⟨rfl, rfl⟩
    fun _ _ => Set.mem_univ _
  rw [← hcut.joinLines_eq] at hsteps
  refine ⟨_, Outline.ofUnit_eq_ok.2 ⟨_, _, hcut.mask, hsteps, rfl⟩, ?_⟩
  constructor
  case elements => simp [Builder.behind, Builder.empty, Element.relabel_insertion]
  case lines => simp [Builder.behind, Builder.empty, LogicalLine.relabel_insertion]
  case comments => exact hcut.commentsOf_eq
  case totalLines =>
    simp only [Metrics.withElements, Metrics.ofLines, SourceUnit.insert, List.length_append,
      List.length_take, List.length_cons, List.length_drop]
    omega
  case blankLines =>
    simp only [Metrics.withElements, Metrics.ofLines, countP_insert, line.isBlankLine_text,
      decide_eq_true_eq]
  case commentLines =>
    simp only [Metrics.withElements, Metrics.ofLines, countP_insert, line.isCommentLine_text]
    cases line.comment <;> simp

/-- A decorated method with a docstring and a comment. -/
def decoratedMethod : SourceUnit where
  name := "decorated"
  lines := ["class A:".toList, "    @cached".toList, "    def f(self):".toList,
    "        'doc'".toList, "        return 1  # one".toList]

/-- A comment line with a quotation mark, an open bracket and a backslash at its end. -/
def openComment : IdleLine where
  blanks := ['\t']
  comment := some " it's (open \\".toList
  allBlank := rfl
  decodable := by
    rintro _ ⟨⟩
    decide

theorem decoratedMethod_insert :
    ∃ masked outline raised, mask decoratedMethod = .ok masked ∧
      (∀ above ∈ masked, above.number = 2 → above.continues = false) ∧
      Outline.ofUnit decoratedMethod = .ok outline ∧
      outline.elements.toList.map (fun e => (e.startLine, e.endLine)) = [(1, 5), (3, 5)] ∧
      Outline.ofUnit (decoratedMethod.insert 2 openComment) = .ok raised ∧
      outline.Raised raised 2 openComment := by
  have hcontinues : ((mask decoratedMethod).map fun masked =>
      decide (∀ above ∈ masked, above.number = 2 → above.continues = false)) = .ok true := by
    decide +kernel
  have hspans : (Outline.ofUnit decoratedMethod).map
      (·.elements.toList.map fun e => (e.startLine, e.endLine)) = .ok [(1, 5), (3, 5)] := by
    decide +kernel
  obtain ⟨masked, hmask, hcontinues⟩ := ok_map_iff.1 hcontinues
  obtain ⟨outline, houtline, hspans⟩ := ok_map_iff.1 hspans
  have hopen := of_decide_eq_true hcontinues
  obtain ⟨raised, hraised, hlines⟩ :=
    ofUnit_insert houtline hmask (by decide : 2 ≤ decoratedMethod.lines.length) hopen openComment
  exact ⟨masked, outline, raised, hmask, hopen, houtline, hspans, hraised, hlines⟩

end CodeGrade
