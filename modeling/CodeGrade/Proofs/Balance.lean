import CodeGrade.Proofs.Brackets
import CodeGrade.Proofs.Faults
import CodeGrade.Proofs.HeaderForm

/-!
# Balanced statements

The brackets that masking has open after a line are those that are open in the statement the line
belongs to. A statement is finished when none is open, so its brackets are properly nested. Then the
parameter list of a function ends, and it ends before the colon of the header: up to there each
colon stands inside brackets.

## Main definitions

* `StaysAbove`: reading a text never closes certain brackets.
* `ColonsInside`: each colon of a text stands inside brackets.
-/

namespace CodeGrade

open Text (IsGap IsName allBlank)

/-! ### Characters that are no brackets -/

/-- Characters of a class without brackets are no brackets. -/
theorem not_isBracket_of_class {p : Char → Bool} {c : Char}
    (hp : ∀ b : Bracket, p b.opener = false ∧ p b.closer = false) (h : p c = true) :
    isBracket c = false := by
  cases hopener : Bracket.ofOpener? c with
  | some b =>
    rw [Bracket.ofOpener?_eq_some.1 hopener, (hp b).1] at h
    cases h
  | none =>
    cases hcloser : Bracket.ofCloser? c with
    | some b =>
      rw [Bracket.ofCloser?_eq_some.1 hcloser, (hp b).2] at h
      cases h
    | none => simp [isBracket, isOpener, isCloser, hopener, hcloser]

theorem not_isBracket_of_isWordChar {c : Char} (h : Text.isWordChar c = true) :
    isBracket c = false :=
  not_isBracket_of_class (by rintro (_ | _ | _) <;> decide) h

theorem not_isBracket_of_isBlank {c : Char} (h : Text.isBlank c = true) : isBracket c = false :=
  not_isBracket_of_class (by rintro (_ | _ | _) <;> decide) h

theorem not_isBracket_of_isQuote {c : Char} (h : isQuote c = true) : isBracket c = false :=
  not_isBracket_of_class (by rintro (_ | _ | _) <;> decide) h

/-- Text without brackets leaves the stack as it is. -/
theorem openBrackets_plain {text : List Char} (h : ∀ c ∈ text, isBracket c = false)
    (stack : List Bracket) : openBrackets stack text = some stack := by
  rw [← openBrackets_filter, List.filter_eq_nil_iff.2 (by simpa using h)]
  rfl

/-- Trimming takes no brackets. -/
theorem openBrackets_trim (stack : List Bracket) (text : List Char) :
    openBrackets stack (Text.trim text) = openBrackets stack text := by
  have hkeep (text : List Char) :
      (Text.dropBlanks text).filter isBracket = text.filter isBracket := by
    rw [Text.dropBlanks, List.filter_filter]
    refine List.filter_congr fun c _ => ?_
    cases hblank : Text.isBlank c with
    | false => simp
    | true => simp [not_isBracket_of_isBlank hblank]
  rw [← openBrackets_filter, ← hkeep, Text.dropBlanks_trim, hkeep, openBrackets_filter]

/-! ### The stack of masking -/

/-- The sorts of the brackets that are open. -/
def Carry.stack (carry : Carry) : List Bracket := carry.brackets.map (·.bracket)

/-- The delimiters of a line are written in quotation marks. -/
theorem isQuote_of_delimiter_mem {literal : Option Delimiter} {raw : List Char} {d : Delimiter}
    (hq : ∀ d ∈ literal, isQuote d.mark = true)
    (h : .opening d ∈ lexemes literal raw ∨ .closing d ∈ lexemes literal raw) :
    isQuote d.mark = true := by
  fun_induction lexemes literal raw <;> grind

theorem openBrackets_delimiter {d : Delimiter} (hd : isQuote d.mark = true)
    (stack : List Bracket) (rest : List Char) :
    openBrackets stack (d.text ++ rest) = openBrackets stack rest := by
  have hplain : openBrackets stack d.text = some stack := by
    refine openBrackets_plain (fun c hc => ?_) stack
    obtain rfl : c = d.mark := by
      cases htriple : d.triple <;> simpa [Delimiter.text, htriple] using hc
    exact not_isBracket_of_isQuote hd
  rw [openBrackets_append, hplain]
  rfl

/-- The code of a line brings the stack from before the line to after it. -/
theorem openBrackets_interpret {number : Nat} {string : Option OpenString}
    {brackets : List OpenBracket} {ls : List Lexeme} {scanned : ScannedLine}
    (hq : ∀ d, .opening d ∈ ls ∨ .closing d ∈ ls → isQuote d.mark = true)
    (h : interpret number string brackets ls = .ok scanned) :
    openBrackets (brackets.map (·.bracket)) scanned.code = some scanned.carry.stack := by
  have hrest {l : Lexeme} {rest : List Lexeme}
      (hq : ∀ d, .opening d ∈ l :: rest ∨ .closing d ∈ l :: rest → isQuote d.mark = true) :
      ∀ d, .opening d ∈ rest ∨ .closing d ∈ rest → isQuote d.mark = true := by
    intro d hd
    exact hq d (hd.imp (List.mem_cons_of_mem _) (List.mem_cons_of_mem _))
  fun_induction interpret number string brackets ls generalizing scanned with
  | case2 string brackets c rest b hopener ih =>
    obtain ⟨more, hmore, rfl⟩ := emit_eq_ok h
    simpa [Bracket.ofOpener?_eq_some.1 hopener] using ih (hrest hq) hmore
  | case3 string c rest hopener top outer hcloser ih =>
    obtain ⟨more, hmore, rfl⟩ := emit_eq_ok h
    simpa [Bracket.ofCloser?_eq_some.1 hcloser] using ih (hrest hq) hmore
  | case4 | case5 => cases h
  | case6 string brackets c rest hopener hcloser ih =>
    obtain ⟨more, hmore, rfl⟩ := emit_eq_ok h
    have hc : isBracket c = false := by simp [isBracket, isOpener, isCloser, hopener, hcloser]
    simpa [openBrackets_cons_of_not_isBracket hc] using ih (hrest hq) hmore
  | case7 string brackets d rest ih =>
    obtain ⟨more, hmore, rfl⟩ := emit_eq_ok h
    rw [openBrackets_delimiter (hq d (by simp))]
    exact ih (hrest hq) hmore
  | case8 string brackets d rest ih =>
    obtain ⟨more, hmore, rfl⟩ := emit_eq_ok h
    rw [openBrackets_delimiter (hq d (by simp))]
    exact ih (hrest hq) hmore
  | case9 string brackets c rest ih => exact ih (hrest hq) h
  | case10 string brackets c rest ih => exact ih (hrest hq) h
  | case1 | case11 | case12 | case13 =>
    obtain rfl := Except.ok.inj h
    rfl

/-- Masking a line keeps the stack. -/
theorem openBrackets_maskLine {number : Nat} {carry carry' : Carry} {raw : List Char}
    {line : MaskedLine} (hq : carry.Quoted)
    (hline : maskLine number carry raw = .ok (line, carry')) :
    openBrackets carry.stack line.code = some carry'.stack := by
  obtain ⟨-, scanned, hscan, -, rfl, rfl⟩ := maskLine_eq_ok.1 hline
  rw [scanLine_eq_interpret] at hscan
  exact openBrackets_interpret (fun d hd => isQuote_of_delimiter_mem hq.delimiter hd) hscan

/-- The brackets that are open in the statement being joined are those that masking has open. -/
def Matching (current : Option Statement) (stack : List Bracket) : Prop :=
  match current with
  | some statement => openBrackets [] statement.code = some stack
  | none => stack = []

theorem Matching.extend {current : Option Statement} {line : MaskedLine}
    {stack stack' : List Bracket} (h : Matching current stack)
    (hcode : openBrackets stack line.code = some stack') :
    Matching (Statement.extend current line) stack' := by
  rw [← openBrackets_trim] at hcode
  cases current with
  | none =>
    obtain rfl : stack = [] := h
    by_cases hblank : (Text.trim line.code).isEmpty = true
    · simp only [Statement.extend, hblank, ↓reduceIte]
      rw [List.isEmpty_iff.1 hblank] at hcode
      exact (Option.some.inj hcode).symm
    · simp only [Statement.extend, hblank, Bool.false_eq_true, ↓reduceIte]
      exact hcode
  | some statement =>
    have hopen : openBrackets [] statement.code = some stack := h
    by_cases hblank : (Text.trim line.code).isEmpty = true
    · simp only [Statement.extend, hblank, ↓reduceIte, Matching]
      rw [List.isEmpty_iff.1 hblank] at hcode
      rw [hopen, ← hcode]
      rfl
    · simp only [Statement.extend, hblank, Bool.false_eq_true, ↓reduceIte, Matching]
      rw [openBrackets_append, hopen, Option.bind_some,
        openBrackets_cons_of_not_isBracket (by decide)]
      exact hcode

/-- Nothing is open after a line that does not continue. -/
theorem stack_eq_nil_of_not_continues {number : Nat} {carry carry' : Carry} {raw : List Char}
    {line : MaskedLine} (hline : maskLine number carry raw = .ok (line, carry'))
    (hcontinues : line.continues = false) : carry'.stack = [] := by
  obtain ⟨-, scanned, -, -, rfl, rfl⟩ := maskLine_eq_ok.1 hline
  simp only [ScannedLine.masked, Bool.or_eq_false_iff, Bool.not_eq_false',
    List.isEmpty_iff] at hcontinues
  rw [Carry.stack, hcontinues.1.2]
  rfl

/-- The brackets of a joined statement are all closed. -/
theorem openBrackets_joinFrom {number : Nat} {carry : Carry} {lines : List (List Char)}
    {masked : List MaskedLine} {current : Option Statement} (hq : carry.Quoted)
    (hmask : maskFrom number carry lines = .ok masked) (hcurrent : Matching current carry.stack) :
    ∀ statement ∈ joinFrom current masked, openBrackets [] statement.code = some [] := by
  induction lines generalizing number carry masked current with
  | nil =>
    obtain ⟨-, rfl⟩ := maskFrom_nil_eq_ok.1 hmask
    simp [joinFrom]
  | cons raw rest ih =>
    obtain ⟨line, carry', tail, hline, htail, rfl⟩ := maskFrom_cons_eq_ok.1 hmask
    have hextend := hcurrent.extend (openBrackets_maskLine hq hline)
    intro statement hstatement
    rw [joinFrom] at hstatement
    cases hcurrent' : Statement.extend current line with
    | none =>
      rw [hcurrent'] at hextend hstatement
      exact ih (hq.maskLine hline) htail hextend statement hstatement
    | some joined =>
      rw [hcurrent'] at hextend hstatement
      cases hcontinues : line.continues with
      | true =>
        simp only [hcontinues, ↓reduceIte] at hstatement
        exact ih (hq.maskLine hline) htail hextend statement hstatement
      | false =>
        have hclosed := stack_eq_nil_of_not_continues hline hcontinues
        simp only [hcontinues, Bool.false_eq_true, ↓reduceIte, List.mem_cons] at hstatement
        rcases hstatement with rfl | hstatement
        · rw [hclosed] at hextend
          exact hextend
        · have hnone : Matching none carry'.stack := hclosed
          exact ih (hq.maskLine hline) htail hnone statement hstatement

theorem openBrackets_joinLines {unit : SourceUnit} {masked : List MaskedLine}
    (hmask : mask unit = .ok masked) :
    ∀ statement ∈ joinLines masked, openBrackets [] statement.code = some [] :=
  openBrackets_joinFrom Carry.quoted_empty hmask rfl

/-! ### Text inside brackets -/

/-- Reading the text from the stack leaves the brackets of `base` open, at each place of it. -/
def StaysAbove (base stack : List Bracket) (text : List Char) : Prop :=
  ∀ before, before <+: text → ∃ inner, openBrackets stack before = some (inner ++ base)

theorem staysAbove_nil (inner base : List Bracket) : StaysAbove base (inner ++ base) [] := by
  intro before hbefore
  rw [List.prefix_nil.1 hbefore]
  exact ⟨inner, rfl⟩

/-- A character that brings the stack to one from which the brackets stay open. -/
theorem StaysAbove.cons {inner base stack : List Bracket} {c : Char} {text : List Char}
    (h : StaysAbove base stack text)
    (hc : ∀ more, openBrackets (inner ++ base) (c :: more) = openBrackets stack more) :
    StaysAbove base (inner ++ base) (c :: text) := by
  intro before hbefore
  cases before with
  | nil => exact ⟨inner, rfl⟩
  | cons first before =>
    obtain ⟨rfl, hrest⟩ := List.cons_prefix_cons.1 hbefore
    rw [hc]
    exact h before hrest

/-- A bracket stays open as long as no closing one of its sort is read. -/
theorem exists_above_of_not_mem {b : Bracket} {inner outer final : List Bracket}
    {text : List Char} (hb : b.closer ∉ text)
    (h : openBrackets (inner ++ b :: outer) text = some final) :
    ∃ inner', final = inner' ++ b :: outer := by
  generalize hstack : inner ++ b :: outer = stack at h
  induction stack, text using openBrackets_induction generalizing inner with
  | nil stack => exact ⟨inner, by simpa [openBrackets, hstack] using h.symm⟩
  | opener stack b' rest ih =>
    have hpushed : (b' :: inner) ++ b :: outer = b' :: stack := congrArg (b' :: ·) hstack
    exact ih (List.not_mem_of_not_mem_cons hb) hpushed (by simpa using h)
  | closer b' outer' rest ih =>
    cases inner with
    | nil =>
      obtain ⟨rfl, -⟩ := List.cons.inj hstack
      simp at hb
    | cons top inner =>
      obtain ⟨rfl, hinner⟩ := List.cons.inj hstack
      exact ih (List.not_mem_of_not_mem_cons hb) hinner (by simpa using h)
  | other stack c rest hc ih =>
    rw [openBrackets_cons_of_not_isBracket hc] at h
    exact ih (List.not_mem_of_not_mem_cons hb) hstack h
  | stuck stack b' rest _ hnone => simp [hnone] at h

theorem splitArguments_plain {c : Char} (hc : isBracket c = false) (depth : Nat)
    (current rest : List Char) :
    splitArguments depth current (c :: rest) =
      if c = ',' ∧ depth = 0 then
        (splitArguments 0 [] rest).map fun parts => (current.reverse :: parts.1, parts.2)
      else splitArguments depth (c :: current) rest := by
  simp only [isBracket, Bool.or_eq_false_iff] at hc
  rw [splitArguments.eq_def]
  simp only [hc, Bool.false_eq_true, ↓reduceIte]

/-- If the brackets open before a text are all closed at its end, the list in the bracket `b` can be
split: its closing bracket is there, and `b` is open up to it. -/
theorem splitArguments_of_closed {b : Bracket} {inner outer : List Bracket} {text : List Char}
    (h : openBrackets (inner ++ b :: outer) text = some []) (current : List Char) :
    ∃ pieces body rest, splitArguments inner.length current text = some (pieces, rest) ∧
      text = body ++ b.closer :: rest ∧ StaysAbove (b :: outer) (inner ++ b :: outer) body := by
  have hopener (b : Bracket) : isOpener b.opener = true := by cases b <;> rfl
  have hcloser (b : Bracket) : isOpener b.closer = false ∧ isCloser b.closer = true := by
    cases b <;> exact ⟨rfl, rfl⟩
  generalize hstack : inner ++ b :: outer = stack at h ⊢
  induction stack, text using openBrackets_induction generalizing inner current with
  | nil stack => simp [openBrackets, ← hstack] at h
  | opener stack b' rest ih =>
    have hpushed : (b' :: inner) ++ b :: outer = b' :: stack := congrArg (b' :: ·) hstack
    obtain ⟨pieces, body, after, hsplit, rfl, habove⟩ :=
      ih (b'.opener :: current) hpushed (by simpa using h)
    refine ⟨pieces, b'.opener :: body, after, ?_, rfl, ?_⟩
    · simpa [splitArguments, hopener] using hsplit
    · rw [← hstack] at habove ⊢
      exact habove.cons (by simp)
  | closer b' outer' rest ih =>
    cases inner with
    | nil =>
      obtain ⟨rfl, rfl⟩ := List.cons.inj hstack
      refine ⟨[current.reverse], [], rest, ?_, rfl, staysAbove_nil [] _⟩
      simp [splitArguments, hcloser]
    | cons top inner =>
      obtain ⟨rfl, hinner⟩ := List.cons.inj hstack
      obtain ⟨pieces, body, after, hsplit, rfl, habove⟩ :=
        ih (top.closer :: current) hinner (by simpa using h)
      refine ⟨pieces, top.closer :: body, after, ?_, rfl, ?_⟩
      · simpa [splitArguments, hcloser] using hsplit
      · rw [← hinner] at habove ⊢
        exact @StaysAbove.cons (top :: inner) _ _ _ _ habove (by simp)
  | other stack c rest hc ih =>
    have hplain := @openBrackets_cons_of_not_isBracket stack c hc
    rw [hplain] at h
    -- A comma outside inner brackets ends a piece, any other character belongs to it.
    obtain ⟨current', hcurrent⟩ : ∃ current', ∀ pieces after,
        splitArguments inner.length current' rest = some (pieces, after) →
          ∃ pieces', splitArguments inner.length current (c :: rest) = some (pieces', after) := by
      by_cases hcomma : c = ',' ∧ inner.length = 0
      · refine ⟨[], fun pieces after hsplit => ⟨current.reverse :: pieces, ?_⟩⟩
        rw [hcomma.2] at hsplit
        rw [splitArguments_plain hc, if_pos hcomma, hsplit]
        rfl
      · refine ⟨c :: current, fun pieces after hsplit => ⟨pieces, ?_⟩⟩
        rw [splitArguments_plain hc, if_neg hcomma, hsplit]
    obtain ⟨pieces, body, after, hsplit, rfl, habove⟩ := ih current' hstack h
    obtain ⟨pieces', hsplit'⟩ := hcurrent pieces after hsplit
    refine ⟨pieces', c :: body, after, hsplit', rfl, ?_⟩
    rw [← hstack] at habove hplain ⊢
    exact habove.cons hplain
  | stuck stack b' rest _ hnone => simp [hnone] at h

/-! ### Colons inside brackets -/

/-- Each colon of the text stands inside brackets, if the text is read from the stack. -/
def ColonsInside (stack : List Bracket) (text : List Char) : Prop :=
  ∀ before after, text = before ++ ':' :: after →
    ∃ open', openBrackets stack before = some open' ∧ open' ≠ []

theorem colonsInside_of_not_mem {text : List Char} (h : ':' ∉ text) (stack : List Bracket) :
    ColonsInside stack text := by
  rintro before after rfl
  simp at h

theorem StaysAbove.colonsInside {b : Bracket} {outer stack : List Bracket} {text : List Char}
    (h : StaysAbove (b :: outer) stack text) : ColonsInside stack text := by
  rintro before after rfl
  obtain ⟨inner, hinner⟩ := h before (List.prefix_append _ _)
  exact ⟨_, hinner, by simp⟩

theorem ColonsInside.append {stack stack' : List Bracket} {a b : List Char}
    (ha : ColonsInside stack a) (hread : openBrackets stack a = some stack')
    (hb : ColonsInside stack' b) : ColonsInside stack (a ++ b) := by
  intro before after hsplit
  have hbelow {more : List Char} (hmore : b = more ++ ':' :: after) :
      ∃ open', openBrackets stack (a ++ more) = some open' ∧ open' ≠ [] := by
    rw [openBrackets_append, hread, Option.bind_some]
    exact hb more after hmore
  rcases List.append_eq_append_iff.1 hsplit with ⟨more, rfl, hmore⟩ | ⟨more, rfl, hmore⟩
  · exact hbelow hmore
  · cases more with
    | nil =>
      have hlast := @hbelow [] (by simpa using hmore.symm)
      simpa using hlast
    | cons c more =>
      obtain ⟨rfl, -⟩ := List.cons.inj hmore
      exact ha before more rfl

/-- A colon outside all brackets stands behind a text whose colons are all inside. -/
theorem ColonsInside.length_le {a b : List Char} (h : ColonsInside [] a) {i : Nat}
    (hi : IsTopColon (a ++ b) i) : a.length ≤ i := by
  by_contra hlt
  rw [not_le] at hlt
  obtain ⟨hcolon, -, hdepth⟩ := hi
  rw [List.getElem?_append_left hlt] at hcolon
  rw [List.take_append_of_le_length hlt.le] at hdepth
  have hsplit : a = a.take i ++ ':' :: a.drop (i + 1) := by
    rw [← (List.getElem?_eq_some_iff.1 hcolon).2, List.getElem_cons_drop, List.take_append_drop]
  obtain ⟨stack, hstack, hne⟩ := h _ _ hsplit
  have hlength := length_openBrackets hstack
  have hpos := List.length_pos_iff.2 hne
  simp only [bracketDepth, List.length_nil] at hdepth hlength
  omega

/-! ### Headers of functions -/

/-- Words and the blanks between them hold neither brackets nor colons. -/
theorem plain_of_words {text : List Char}
    (h : ∀ c ∈ text, Text.isWordChar c = true ∨ Text.isBlank c = true) (stack : List Bracket) :
    openBrackets stack text = some stack ∧ ColonsInside stack text := by
  constructor
  · refine openBrackets_plain (fun c hc => ?_) stack
    rcases h c hc with hword | hblank
    · exact not_isBracket_of_isWordChar hword
    · exact not_isBracket_of_isBlank hblank
  · refine colonsInside_of_not_mem (fun hcolon => ?_) stack
    have hneither : ¬ (Text.isWordChar ':' = true ∨ Text.isBlank ':' = true) := by decide
    exact hneither (h _ hcolon)

theorem isWordChar_or_isBlank_of_mem {start gap name blanks : List Char} (hstart : IsAsync start)
    (hgap : IsGap gap) (hname : IsName name) (hblanks : allBlank blanks = true) :
    ∀ c ∈ start ++ "def".toList ++ gap ++ name ++ blanks,
      Text.isWordChar c = true ∨ Text.isBlank c = true := by
  have hblank {text : List Char} (h : allBlank text = true) :
      ∀ c ∈ text, Text.isWordChar c = true ∨ Text.isBlank c = true :=
    fun c hc => .inr (List.all_eq_true.1 h c hc)
  have hword {text : List Char} (h : text.all Text.isWordChar = true) :
      ∀ c ∈ text, Text.isWordChar c = true ∨ Text.isBlank c = true :=
    fun c hc => .inl (List.all_eq_true.1 h c hc)
  obtain ⟨first, more, rfl, hfirst, hmore⟩ := hname
  have hname : (first :: more).all Text.isWordChar = true := by
    rw [List.all_cons, Text.isWordChar_of_isNameStart hfirst, hmore]
    rfl
  have hstart : ∀ c ∈ start, Text.isWordChar c = true ∨ Text.isBlank c = true := by
    rcases hstart with rfl | ⟨gap', hgap', rfl⟩
    · simp
    · intro c hc
      rcases List.mem_append.1 hc with hc | hc
      · exact hword (by decide) c hc
      · exact hblank hgap'.2 c hc
  intro c hc
  simp only [List.mem_append] at hc
  rcases hc with (((hc | hc) | hc) | hc) | hc
  · exact hstart c hc
  · exact @hword "def".toList (by decide) c hc
  · exact hblank hgap.2 c hc
  · exact hword hname c hc
  · exact hblank hblanks c hc

/-- The colons of type parameters are inside their brackets, even if the brackets are not closed by
the last of them. -/
theorem IsTypeParameters.colonsInside {params : List Char} (h : IsTypeParameters params)
    {stack : List Bracket} (hread : openBrackets [] params = some stack) :
    ColonsInside [] params := by
  rcases h with rfl | ⟨body, hbody, rfl⟩
  · exact colonsInside_of_not_mem (by simp) []
  · have hopen : openBrackets [] ['['] = some [.square] := rfl
    rw [show '[' = Bracket.square.opener from rfl, openBrackets_opener, openBrackets_append,
      Option.bind_eq_some_iff] at hread
    obtain ⟨inner, hinner, -⟩ := hread
    have habove : StaysAbove [.square] [.square] body := by
      rintro before ⟨after, rfl⟩
      rw [openBrackets_append, Option.bind_eq_some_iff] at hinner
      obtain ⟨stack, hbefore, -⟩ := hinner
      have hclosed : Bracket.square.closer ∉ before :=
        fun hmem => hbody (List.mem_append_left _ hmem)
      obtain ⟨inner', rfl⟩ := @exists_above_of_not_mem .square [] [] _ _ hclosed hbefore
      exact ⟨inner', hbefore⟩
    have hlast : ColonsInside inner [']'] := colonsInside_of_not_mem (by decide) inner
    exact (colonsInside_of_not_mem (by decide) []).append hopen
      (habove.colonsInside.append hinner hlast)

/-- In a statement whose brackets are all closed, the parameter list of a function ends, and no
colon up to its end is outside all brackets. -/
theorem FunctionForm.exists_closing {code name list : List Char} (h : FunctionForm code name list)
    (hcode : openBrackets [] code = some []) :
    ∃ pieces front rest, splitArguments 0 [] list = some (pieces, rest) ∧
      code = front ++ ')' :: rest ∧ ∀ i, IsTopColon code i → front.length < i := by
  obtain ⟨start, gap, blanks, params, blanks', hstart, hgap, hname, hblanks, hparams, hblanks', rfl⟩
    := h
  obtain ⟨hwords, hinside⟩ :=
    plain_of_words (isWordChar_or_isBlank_of_mem hstart hgap hname hblanks) []
  generalize start ++ "def".toList ++ gap ++ name ++ blanks = words at hcode hwords hinside ⊢
  -- The stack after the type parameters is that before the list.
  rw [List.append_assoc, List.append_assoc, openBrackets_append, hwords, Option.bind_some,
    openBrackets_append, Option.bind_eq_some_iff] at hcode
  obtain ⟨outer, houter, hlist⟩ := hcode
  obtain ⟨hblank, hinside'⟩ := @plain_of_words blanks'
    (fun c hc => .inr (List.all_eq_true.1 hblanks' c hc)) outer
  rw [openBrackets_append, hblank, Option.bind_some, show '(' = Bracket.round.opener from rfl,
    openBrackets_opener] at hlist
  obtain ⟨pieces, body, rest, hsplit, rfl, habove⟩ :=
    @splitArguments_of_closed .round [] outer list hlist []
  refine ⟨pieces, words ++ params ++ blanks' ++ '(' :: body, rest, hsplit,
    by simp [Bracket.closer], ?_⟩
  intro i hi
  have hbody := habove.colonsInside
  have hopen : openBrackets outer ['('] = some (.round :: outer) := by
    rw [show '(' = Bracket.round.opener from rfl, openBrackets_opener]
    rfl
  obtain ⟨inner, hinner⟩ := habove body List.prefix_rfl
  have hfront : ColonsInside [] (words ++ (params ++ (blanks' ++ (['('] ++ (body ++ [')']))))) :=
    hinside.append hwords ((hparams.colonsInside houter).append houter
      (hinside'.append hblank ((colonsInside_of_not_mem (by decide) _).append hopen
        (hbody.append hinner (colonsInside_of_not_mem (by decide) _)))))
  have hle := @ColonsInside.length_le _ rest hfront i (by simpa [Bracket.closer] using hi)
  simp only [List.length_append, List.length_cons, List.length_nil] at hle ⊢
  omega

/-- In balanced code a header lacks its name or the start of its list, never the end of the list. -/
theorem Header.signature_eq_error {header : Header} {code : List Char}
    (hcode : openBrackets [] code = some []) {cause : Fault.Cause} :
    header.signature code = .error cause ↔
      cause = .malformedHeader ∧
        (header.keyword = .classKw → ∀ name, ¬ ClassForm code name) ∧
        ∀ name list, ¬ FunctionForm code name list := by
  have hclass : (if header.keyword = .classKw then className? code else none) = none ↔
      (header.keyword = .classKw → ∀ name, ¬ ClassForm code name) := by
    split
    · rename_i hkeyword
      simp [Option.eq_none_iff_forall_ne_some, className?_eq_some, hkeyword]
    · rename_i hkeyword
      simp [hkeyword]
  rw [← hclass, Header.signature]
  generalize (if header.keyword = .classKw then className? code else none) = class?
  cases class? with
  | some name => simp
  | none =>
    cases hfunction : functionHeader? code with
    | none =>
      have hform : ∀ name list, ¬ FunctionForm code name list := by
        intro name list hform
        rw [functionHeader?_eq_some.2 hform] at hfunction
        cases hfunction
      simp [hform, eq_comm]
    | some definition =>
      have hform := functionHeader?_eq_some.1 hfunction
      obtain ⟨pieces, front, rest, hsplit, -⟩ := hform.exists_closing hcode
      have hnot : ¬ ∀ name list, ¬ FunctionForm code name list := fun h => h _ _ hform
      simp [hsplit, hnot]

end CodeGrade
