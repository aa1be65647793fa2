import CodeGrade.Proofs.Insertion
import CodeGrade.Proofs.Opacity
import CodeGrade.Proofs.Splicing

/-!
# Lines that hold nothing but a comment

The metrics take a line for a comment if its first character, blanks apart, is the sign of one.
Masking knows what is open before the line: inside a string literal the sign is a character like any
other. So the metrics count every line that masking leaves with a comment and without code, and
besides them the lines that only continue a literal and whose first character is the sign.

## Main definitions

* `MaskedLine.isCommentOnly`: a line with a comment and without code.
* `SourceUnit.quotesSign`: a line that begins with the sign of a comment inside a literal.
-/

namespace CodeGrade

open Text (isBlank allBlank)

/-- Whether a line has a comment and no code before it. -/
def MaskedLine.isCommentOnly (line : MaskedLine) : Bool :=
  line.comment.isSome && allBlank line.code

/-- The place of the first character of a line that is not blank. -/
def firstPlace (line : List Char) : ℕ := (line.takeWhile isBlank).length

/-- Whether the first character of entry `i` of the lines, blanks apart, is the sign of a comment
but stands inside a string literal. -/
def SourceUnit.quotesSign (unit : SourceUnit) (i : ℕ) : Bool :=
  unit.lines[i]?.any fun line =>
    isCommentLine line && unit.role? i (firstPlace line) = some .content

theorem isCommentLine_iff {line : List Char} :
    isCommentLine line = true ↔
      ∃ blanks rest, line = blanks ++ '#' :: rest ∧ allBlank blanks = true := by
  rw [isCommentLine, beq_iff_eq, Text.head?_trim]
  constructor
  · intro h
    obtain ⟨rest, hrest⟩ := List.head?_eq_some_iff.1 h
    obtain ⟨blanks, hblanks, hline, -⟩ := Text.trimStart_eq_iff.1 hrest
    exact ⟨blanks, rest, hline, hblanks⟩
  · rintro ⟨blanks, rest, rfl, hblanks⟩
    rw [Text.trimStart_eq_iff.2 ⟨blanks, hblanks, rfl, by simp [isBlank]⟩]
    rfl

theorem firstPlace_append {blanks rest : List Char} (h : allBlank blanks = true) :
    firstPlace (blanks ++ '#' :: rest) = blanks.length := by
  have hsign : isBlank '#' = false := rfl
  rw [firstPlace, List.takeWhile_append_of_pos (List.all_eq_true.1 h),
    List.takeWhile_cons_of_neg (by simp [hsign]), List.append_nil]

/-! ### Blanks at the start of a line -/

section Blanks

variable {blanks : List Char}

theorem lexemes_blanks (h : allBlank blanks = true) (rest : List Char) :
    lexemes none (blanks ++ rest) = blanks.map .plain ++ lexemes none rest := by
  induction blanks with
  | nil => rfl
  | cons c blanks ih =>
    obtain ⟨hc, hblanks⟩ := Bool.and_eq_true_iff.1 h
    have hplain : isPlain c = true := isPlain_of_class (by decide) hc
    simp only [isPlain, Bool.and_eq_true, bne_iff_ne, Bool.not_eq_true'] at hplain
    rw [List.cons_append, lexemes_plain hplain.1.2 hplain.1.1 fun hjoin => hplain.2 hjoin.1,
      ih hblanks]
    rfl

/-- A character of a literal that is neither a quotation mark nor a backslash. -/
theorem lexemes_content_of_plain {d : Delimiter} (hd : isQuote d.mark = true) {c : Char}
    (hquote : isQuote c = false) (hslash : c ≠ '\\') (rest : List Char) :
    lexemes (some d) (c :: rest) = .content c :: lexemes (some d) rest := by
  apply lexemes_content hslash
  have hne : d.mark ≠ c := by
    rintro rfl
    simp [hd] at hquote
  cases htriple : d.triple <;> simp [Delimiter.text, htriple, hne]

theorem lexemes_blanks_of_literal {d : Delimiter} (hd : isQuote d.mark = true)
    (h : allBlank blanks = true) (rest : List Char) :
    lexemes (some d) (blanks ++ rest) = blanks.map .content ++ lexemes (some d) rest := by
  induction blanks with
  | nil => rfl
  | cons c blanks ih =>
    obtain ⟨hc, hblanks⟩ := Bool.and_eq_true_iff.1 h
    have hplain : isPlain c = true := isPlain_of_class (by decide) hc
    simp only [isPlain, Bool.and_eq_true, bne_iff_ne, Bool.not_eq_true'] at hplain
    rw [List.cons_append, lexemes_content_of_plain hd hplain.1.1 hplain.2, ih hblanks]
    rfl

/-- The role of the character after the blanks. -/
theorem role_after_blanks {form : Char → Lexeme} (hform : ∀ c, (form c).roles.length = 1)
    (blanks : List Char) (ls : List Lexeme) :
    ((blanks.map form ++ ls).flatMap Lexeme.roles)[blanks.length]? =
      (ls.flatMap Lexeme.roles)[0]? := by
  have hlength : ((blanks.map form).flatMap Lexeme.roles).length = blanks.length := by
    induction blanks with
    | nil => rfl
    | cons c blanks ih => simp_all [Nat.add_comm]
  rw [List.flatMap_append, List.getElem?_append_right hlength.le, hlength, Nat.sub_self]

end Blanks

/-! ### One line -/

section Line

variable {number : ℕ} {carry carry' : Carry} {raw : List Char} {line : MaskedLine}

/-- Outside literals a character that is not the sign of a comment becomes code, unless it joins the
next line. -/
theorem code_of_scanLine {brackets : List OpenBracket} {c : Char} {rest : List Char}
    {scanned : ScannedLine} (h : scanLine number none brackets (c :: rest) = .ok scanned)
    (hc : c ≠ '#') : scanned.comment = none ∨ c ∈ scanned.code := by
  unfold scanLine at h
  grind [emit_eq_ok]

/-- A line that continues a literal has what closes the literal before its comment. -/
theorem quote_of_scanLine {string : Option OpenString} {brackets : List OpenBracket}
    {scanned : ScannedLine} (h : scanLine number string brackets raw = .ok scanned)
    {literal : OpenString} (hstring : string = some literal)
    (hcomment : scanned.comment.isSome = true) : literal.delimiter.mark ∈ scanned.code := by
  fun_induction scanLine number string brackets raw generalizing scanned <;> grind [emit_eq_ok]

theorem isCommentOnly_masked (number : ℕ) (raw : List Char) (scanned : ScannedLine) :
    (scanned.masked number raw).isCommentOnly =
      (scanned.comment.isSome && allBlank scanned.code) :=
  rfl

/-- Outside literals the first character tells whether the line holds nothing but a comment. -/
theorem isCommentOnly_of_code (hline : maskLine number carry raw = .ok (line, carry'))
    (hstring : carry.string = none) : line.isCommentOnly = isCommentLine raw := by
  obtain ⟨-, scanned, hscan, -, rfl, -⟩ := maskLine_eq_ok.1 hline
  obtain ⟨blanks, hblanks, hraw, hhead⟩ := Text.trimStart_eq_iff.1 (rfl : Text.trimStart raw = _)
  rw [isCommentOnly_masked, isCommentLine, Text.head?_trim]
  rw [hstring, hraw, scanLine_blanks hblanks] at hscan
  obtain ⟨after, hafter, rfl⟩ := emit_eq_ok hscan
  cases hrest : Text.trimStart raw with
  | nil =>
    rw [hrest, scanLine] at hafter
    obtain rfl := Except.ok.inj hafter
    rfl
  | cons c rest =>
    rw [hrest] at hafter hhead
    by_cases hc : c = '#'
    · subst hc
      rw [scanLine_eq_interpret, Option.map_none, lexemes_comment] at hafter
      obtain rfl := Except.ok.inj hafter
      simpa using hblanks
    · rcases code_of_scanLine hafter hc with hcomment | hcode
      · simp [hcomment, hc]
      · have hvisible : allBlank (blanks ++ after.code) = false := by
          rw [allBlank, List.all_eq_false]
          exact ⟨c, List.mem_append_right _ hcode, by simpa using hhead⟩
        simp [hvisible, hc]

theorem isCommentOnly_of_literal (hq : carry.Quoted)
    (hline : maskLine number carry raw = .ok (line, carry')) {literal : OpenString}
    (hstring : carry.string = some literal) : line.isCommentOnly = false := by
  obtain ⟨-, scanned, hscan, -, rfl, -⟩ := maskLine_eq_ok.1 hline
  rw [isCommentOnly_masked, Bool.and_eq_false_imp]
  intro hcomment
  rw [allBlank, List.all_eq_false]
  refine ⟨literal.delimiter.mark, quote_of_scanLine hscan hstring hcomment, ?_⟩
  rw [not_isBlank_of_isQuote (hq literal hstring)]
  exact Bool.false_ne_true

/-- The sign at the start of a line belongs to a literal if one is open before the line. -/
theorem role_of_sign (hq : carry.Quoted) (hraw : isCommentLine raw = true) :
    ((lexemes (carry.string.map (·.delimiter)) raw).flatMap Lexeme.roles)[firstPlace raw]? =
      some (if carry.string.isSome then .content else .syntactic) := by
  obtain ⟨blanks, rest, rfl, hblanks⟩ := isCommentLine_iff.1 hraw
  rw [firstPlace_append hblanks]
  cases hstring : carry.string with
  | none =>
    rw [Option.map_none, lexemes_blanks hblanks, role_after_blanks fun _ => rfl, lexemes_comment]
    rfl
  | some literal =>
    have hmark := hq literal hstring
    rw [Option.map_some, lexemes_blanks_of_literal hmark hblanks, role_after_blanks fun _ => rfl,
      lexemes_content_of_plain hmark rfl (by decide)]
    rfl

/-- A line that begins with the sign of a comment is a comment or continues a literal. -/
theorem ite_isCommentLine (hq : carry.Quoted)
    (hline : maskLine number carry raw = .ok (line, carry')) :
    (if isCommentLine raw then 1 else 0) = (if line.isCommentOnly then 1 else 0) +
      if isCommentLine raw && ((lexemes (carry.string.map (·.delimiter)) raw).flatMap
        Lexeme.roles)[firstPlace raw]? = some .content then 1 else 0 := by
  cases hraw : isCommentLine raw with
  | false =>
    cases hstring : carry.string with
    | none => simp [isCommentOnly_of_code hline hstring, hraw]
    | some literal => simp [isCommentOnly_of_literal hq hline hstring]
  | true =>
    rw [role_of_sign hq hraw]
    cases hstring : carry.string with
    | none => simp [isCommentOnly_of_code hline hstring, hraw]
    | some literal => simp [isCommentOnly_of_literal hq hline hstring]

end Line

/-! ### All lines -/

theorem countP_isCommentLine {number : ℕ} {carry : Carry} {lines : List (List Char)}
    {masked : List MaskedLine} (hq : carry.Quoted)
    (hmask : maskFrom number carry lines = .ok masked) :
    lines.countP isCommentLine = masked.countP MaskedLine.isCommentOnly +
      (List.range lines.length).countP fun i => lines[i]?.any fun line => isCommentLine line &&
        (rolesFrom number carry lines)[i]?.bind (·[firstPlace line]?) = some .content := by
  induction lines generalizing number carry masked with
  | nil => simp [(maskFrom_nil_eq_ok.1 hmask).2]
  | cons raw rest ih =>
    obtain ⟨line, carry', tail, hline, htail, rfl⟩ := maskFrom_cons_eq_ok.1 hmask
    have hrest := ih (hq.maskLine hline) htail
    have hfirst := ite_isCommentLine hq hline
    rw [List.countP_cons, List.countP_cons, List.length_cons, List.range_succ_eq_map,
      List.countP_cons, List.countP_map, hrest, hfirst]
    simp only [rolesFrom, hline, Function.comp_def, List.getElem?_cons_zero,
      List.getElem?_cons_succ, Nat.succ_eq_add_one, Option.any_some, Option.bind_some]
    omega

/-- The metrics count the lines that masking leaves with a comment and without code, and besides
them the lines that continue a literal and begin with the sign of a comment. -/
theorem commentLines_eq_add_quotedSigns {unit : SourceUnit} {masked : List MaskedLine}
    {outline : Outline} (hmask : mask unit = .ok masked)
    (houtline : Outline.ofUnit unit = .ok outline) :
    outline.metrics.commentLines = masked.countP MaskedLine.isCommentOnly +
      (List.range unit.lines.length).countP unit.quotesSign := by
  obtain ⟨_, b, -, -, rfl⟩ := Outline.ofUnit_eq_ok.1 houtline
  exact countP_isCommentLine Carry.quoted_empty hmask

/-- A literal over three lines, the second of which looks like a comment, and a comment below. -/
def literalWithSign : SourceUnit where
  name := "literal"
  lines := ["x = \"\"\"".toList, " # text".toList, "\"\"\"".toList, "# comment".toList]

theorem literal_counted_as_comment :
    ∃ masked outline, mask literalWithSign = .ok masked ∧
      Outline.ofUnit literalWithSign = .ok outline ∧
      masked.countP MaskedLine.isCommentOnly = 1 ∧ outline.metrics.commentLines = 2 := by
  have hmasked : (mask literalWithSign).map (·.countP MaskedLine.isCommentOnly) = .ok 1 := by
    decide +kernel
  have haccepted : (Outline.ofUnit literalWithSign).map (·.elements) = .ok #[] := by
    decide +kernel
  obtain ⟨masked, hmask, hcount⟩ := ok_map_iff.1 hmasked
  obtain ⟨outline, houtline, -⟩ := ok_map_iff.1 haccepted
  have hsigns : (List.range literalWithSign.lines.length).countP literalWithSign.quotesSign = 1 := by
    decide +kernel
  refine ⟨masked, outline, hmask, houtline, hcount, ?_⟩
  rw [commentLines_eq_add_quotedSigns hmask houtline, hcount, hsigns]

end CodeGrade
