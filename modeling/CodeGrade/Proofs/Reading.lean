import CodeGrade.Proofs.Lexeme

/-!
# Reading a text in one pass

A reader that goes through a whole text character by character, line feeds included, and says what
each character is. It knows four modes: code, a comment, and string literals in one mark or in three.
Masking goes through a text line by line instead; here it is shown how the reader gets through one
line, in the terms of the lexemes of that line.

## Main definitions

* `Mode`, `Part`: where the reader is, and what a character is.
* `readText`: the reader.
* `readLine`: what the lexemes of one line come to.
-/

namespace CodeGrade

/-- Where a reader of a text is: in code, in a comment, or in a string literal. -/
inductive Mode where
  | code
  | comment
  | string (d : Delimiter)
  deriving DecidableEq, Repr

/-- Whether the reader is in a string literal. -/
def Mode.isString : Mode → Bool
  | string _ => true
  | _ => false

/-- What a character of a text is. -/
inductive Part where
  | code
  | delimiter
  /-- A character inside a string literal, line feeds and backslashes included. -/
  | content
  | comment
  /-- The backslash that joins the next line. -/
  | join
  /-- A line feed outside string literals. -/
  | lineEnd
  deriving DecidableEq, Repr

/-- The characters of a delimiter. -/
def Delimiter.parts (d : Delimiter) : List (Char × Part) := d.text.map (·, .delimiter)

/-- Puts characters in front of what the rest of a text gives. -/
def prepend (parts : List (Char × Part)) :
    Option (List (Char × Part) × Mode) → Option (List (Char × Part) × Mode) :=
  Option.map fun (rest, mode) => (parts ++ rest, mode)

/-- Reads a text in one pass, and says what each character is and where the reader is at the end.
There is no result if a line ends inside a literal in single marks. -/
def readText : Mode → List Char → Option (List (Char × Part) × Mode)
  | mode, [] => some ([], mode)
  | .code, c :: rest =>
    if c = '\n' then prepend [(c, .lineEnd)] (readText .code rest)
    else if c = '#' then prepend [(c, .comment)] (readText .comment rest)
    else if isQuote c then
      match rest with
      | c₂ :: c₃ :: rest₃ =>
        if c₂ = c ∧ c₃ = c then
          prepend (Delimiter.parts ⟨c, true⟩) (readText (.string ⟨c, true⟩) rest₃)
        else
          prepend (Delimiter.parts ⟨c, false⟩)
            (readText (.string ⟨c, false⟩) (c₂ :: c₃ :: rest₃))
      | [c₂] => prepend (Delimiter.parts ⟨c, false⟩) (readText (.string ⟨c, false⟩) [c₂])
      | [] => some (Delimiter.parts ⟨c, false⟩, .string ⟨c, false⟩)
    else if c = '\\' ∧ rest.head?.all (· = '\n') then prepend [(c, .join)] (readText .code rest)
    else prepend [(c, .code)] (readText .code rest)
  | .comment, c :: rest =>
    if c = '\n' then prepend [(c, .lineEnd)] (readText .code rest)
    else prepend [(c, .comment)] (readText .comment rest)
  | .string d, c :: rest =>
    if c = '\\' then
      match rest with
      | [] => some ([(c, .content)], .string d)
      | taken :: rest => prepend [(c, .content), (taken, .content)] (readText (.string d) rest)
    else if c = '\n' then
      if d.triple then prepend [(c, .content)] (readText (.string d) rest) else none
    else if c = d.mark then
      if d.triple then
        match rest with
        | c₂ :: c₃ :: rest₃ =>
          if c₂ = c ∧ c₃ = c then prepend d.parts (readText .code rest₃)
          else prepend [(c, .content)] (readText (.string d) (c₂ :: c₃ :: rest₃))
        | [c₂] => prepend [(c, .content)] (readText (.string d) [c₂])
        | [] => some ([(c, .content)], .string d)
      else prepend d.parts (readText .code rest)
    else prepend [(c, .content)] (readText (.string d) rest)

/-! ### The first step of the reader -/

alias readText_eq := readText.eq_def

section Steps

variable {c : Char} {d : Delimiter} {rest : List Char}

@[simp] theorem readText_nil (mode : Mode) : readText mode [] = some ([], mode) := by
  rw [readText_eq]

theorem prepend_append (a b : List (Char × Part)) (result : Option (List (Char × Part) × Mode)) :
    prepend (a ++ b) result = prepend a (prepend b result) := by
  cases result <;> simp [prepend]

theorem prepend_some (parts rest : List (Char × Part)) (mode : Mode) :
    prepend parts (some (rest, mode)) = some (parts ++ rest, mode) := rfl

theorem readText_code_feed (rest : List Char) :
    readText .code ('\n' :: rest) = prepend [('\n', .lineEnd)] (readText .code rest) := by
  rw [readText_eq]
  simp

theorem readText_hash (rest : List Char) :
    readText .code ('#' :: rest) = prepend [('#', .comment)] (readText .comment rest) := by
  rw [readText_eq]
  simp

theorem readText_comment_feed (rest : List Char) :
    readText .comment ('\n' :: rest) = prepend [('\n', .lineEnd)] (readText .code rest) := by
  rw [readText_eq]
  simp

/-- A comment runs on to the line's end. -/
theorem readText_comment_append {text : List Char} (htext : '\n' ∉ text) (rest : List Char) :
    readText .comment (text ++ rest) =
      prepend (text.map (·, .comment)) (readText .comment rest) := by
  induction text with
  | nil => cases h : readText .comment rest <;> simp [prepend, h]
  | cons c text ih =>
    simp only [List.mem_cons, not_or] at htext
    rw [List.cons_append, readText.eq_def]
    simp only [Ne.symm htext.1, ↓reduceIte, ih htext.2, List.map_cons]
    rw [← prepend_append]
    rfl

theorem ne_feed_of_isQuote (hc : isQuote c = true) : c ≠ '\n' := by
  rintro rfl
  simp [isQuote, apostrophe] at hc

theorem readText_opening_triple (hc : isQuote c = true) (rest : List Char) :
    readText .code (c :: c :: c :: rest) =
      prepend (Delimiter.parts ⟨c, true⟩) (readText (.string ⟨c, true⟩) rest) := by
  have hfeed := ne_feed_of_isQuote hc
  have hhash : c ≠ '#' := by rintro rfl; simp at hc
  rw [readText_eq]
  simp [hc, hfeed, hhash]

theorem readText_opening_single (hc : isQuote c = true) (h : ¬ [c, c] <+: rest) :
    readText .code (c :: rest) =
      prepend (Delimiter.parts ⟨c, false⟩) (readText (.string ⟨c, false⟩) rest) := by
  have hfeed := ne_feed_of_isQuote hc
  have hhash : c ≠ '#' := by rintro rfl; simp at hc
  rw [readText_eq]
  match rest with
  | [] => simp [hc, hfeed, hhash, prepend]
  | [_] => simp [hc, hfeed, hhash]
  | c₂ :: c₃ :: rest₃ =>
    have hne : ¬ (c₂ = c ∧ c₃ = c) := by
      rintro ⟨rfl, rfl⟩
      simp at h
    simp [hc, hfeed, hhash, hne]

theorem readText_join (hrest : rest.head?.all (· = '\n') = true) :
    readText .code ('\\' :: rest) = prepend [('\\', .join)] (readText .code rest) := by
  rw [readText_eq]
  simp [hrest]

theorem readText_plain (hfeed : c ≠ '\n') (hhash : c ≠ '#') (hc : isQuote c = false)
    (hjoin : ¬ (c = '\\' ∧ rest.head?.all (· = '\n') = true)) :
    readText .code (c :: rest) = prepend [(c, .code)] (readText .code rest) := by
  rw [readText_eq]
  simp [hfeed, hhash, hc, hjoin]

theorem readText_escape_end (d : Delimiter) :
    readText (.string d) ['\\'] = some ([('\\', .content)], .string d) := by
  rw [readText_eq]
  simp

theorem readText_escape (d : Delimiter) (taken : Char) (rest : List Char) :
    readText (.string d) ('\\' :: taken :: rest) =
      prepend [('\\', .content), (taken, .content)] (readText (.string d) rest) := by
  rw [readText_eq]
  simp

theorem readText_string_feed (d : Delimiter) (rest : List Char) :
    readText (.string d) ('\n' :: rest) =
      if d.triple then prepend [('\n', .content)] (readText (.string d) rest) else none := by
  rw [readText_eq]
  simp

theorem readText_closing (hslash : d.mark ≠ '\\') (hfeed : d.mark ≠ '\n') (rest : List Char) :
    readText (.string d) (d.text ++ rest) = prepend d.parts (readText .code rest) := by
  cases htriple : d.triple <;>
    simp [Delimiter.text, htriple, readText_eq (.string d), hslash, hfeed]

theorem readText_content (hslash : c ≠ '\\') (hfeed : c ≠ '\n') (hd : ¬ d.text <+: c :: rest) :
    readText (.string d) (c :: rest) = prepend [(c, .content)] (readText (.string d) rest) := by
  rw [readText_eq]
  by_cases hmark : c = d.mark
  · subst hmark
    cases htriple : d.triple with
    | false => simp [Delimiter.text, htriple] at hd
    | true =>
      cases rest with
      | nil => simp [hslash, hfeed, htriple, prepend]
      | cons c₂ rest₂ =>
        cases rest₂ with
        | nil => simp [hslash, hfeed, htriple]
        | cons c₃ rest₃ =>
          have hne : ¬ (c₂ = d.mark ∧ c₃ = d.mark) := by
            rintro ⟨rfl, rfl⟩
            simp [Delimiter.text, htriple] at hd
          simp [hslash, hfeed, htriple, hne]
  · simp [hslash, hfeed, hmark]

end Steps

/-! ### Reading one line -/

/-- What the characters of a lexeme are. -/
def Lexeme.parts : Lexeme → List (Char × Part)
  | plain c => [(c, .code)]
  | opening d | closing d => d.parts
  | content c => [(c, .content)]
  | escape taken => ('\\', .content) :: taken.toList.map (·, .content)
  | comment text => ('#', .comment) :: text.map (·, .comment)
  | join => [('\\', .join)]

/-- Where a reader is after a lexeme. -/
def Lexeme.after (mode : Mode) : Lexeme → Mode
  | opening d => .string d
  | closing _ => .code
  | comment _ => .comment
  | _ => mode

/-- Where a reader is at the start of a line, given the literal that is open there. -/
def Mode.within : Option Delimiter → Mode
  | none => .code
  | some d => .string d

/-- The literal in which a reader is. -/
def Mode.literal? : Mode → Option Delimiter
  | string d => some d
  | _ => none

@[simp] theorem Mode.literal?_within (literal : Option Delimiter) :
    (Mode.within literal).literal? = literal := by
  cases literal <;> rfl

/-- What a line comes to: what its characters are, where the reader is at its end, and whether a
backslash takes the line's end with it. -/
structure LineReading where
  parts : List (Char × Part)
  mode : Mode
  escaped : Bool

/-- What the lexemes of a line come to, given the literal that is open before it. -/
def readLine (literal : Option Delimiter) (raw : List Char) : LineReading where
  parts := (lexemes literal raw).flatMap Lexeme.parts
  mode := (lexemes literal raw).foldl Lexeme.after (.within literal)
  escaped := (lexemes literal raw).contains (.escape none)

namespace LineReading

/-- Puts characters in front of a line. -/
def put (parts : List (Char × Part)) (r : LineReading) : LineReading :=
  { r with parts := parts ++ r.parts }

/-- How reading goes on after a line. -/
def follow (r : LineReading) : List Char → Option (List (Char × Part) × Mode)
  | [] => some ([], r.mode)
  | c :: more =>
    if r.escaped then prepend [(c, .content)] (readText r.mode more)
    else readText r.mode (c :: more)

/-- Whether the line may end where it does: not inside a literal in single marks, unless a backslash
takes the line's end. -/
def mayEnd (r : LineReading) : Bool :=
  match r.mode with
  | .string d => d.triple || r.escaped
  | _ => true

/-- What the line feed after the line is. -/
def feed (r : LineReading) : Part := if r.mode.isString then .content else .lineEnd

@[simp] theorem follow_put (parts : List (Char × Part)) (r : LineReading) :
    (r.put parts).follow = r.follow := by
  funext tail
  cases tail <;> rfl

end LineReading

section readLine

variable {literal literal' : Option Delimiter} {raw rest tail : List Char}

theorem readLine_cons {l : Lexeme} (h : lexemes literal raw = l :: lexemes literal' rest)
    (hmode : l.after (.within literal) = .within literal') (hl : l ≠ .escape none) :
    readLine literal raw = (readLine literal' rest).put l.parts := by
  simp [readLine, LineReading.put, h, hmode, hl.symm]

/-- The characters of a line are all there. -/
theorem map_fst_readLine (literal : Option Delimiter) (raw : List Char) :
    (readLine literal raw).parts.map (·.1) = raw := by
  have htext (l : Lexeme) : l.parts.map (·.1) = l.text := by
    cases l <;> simp [Lexeme.parts, Lexeme.text, Delimiter.parts, Function.comp_def]
  conv_rhs => rw [← text_lexemes literal raw]
  simp only [readLine, List.map_flatMap, htext]

/-- A text without line feeds stands at the start of a line, or nowhere. -/
theorem prefix_append_iff {text : List Char} (htext : '\n' ∉ text)
    (htail : tail.head?.all (· = '\n') = true) : text <+: raw ++ tail ↔ text <+: raw := by
  refine ⟨fun h => ?_, fun h => h.trans (List.prefix_append raw tail)⟩
  induction raw generalizing text with
  | nil =>
    obtain ⟨more, rfl⟩ := h
    cases text with
    | nil => exact List.nil_prefix
    | cons c text => simp_all
  | cons c raw ih =>
    cases text with
    | nil => exact List.nil_prefix
    | cons first text =>
      simp only [List.mem_cons, not_or] at htext
      rw [List.cons_append, List.cons_prefix_cons] at h
      exact List.cons_prefix_cons.2 ⟨h.1, ih htext.2 h.2⟩

theorem Delimiter.feed_not_mem_text {d : Delimiter} (hd : isQuote d.mark = true) :
    '\n' ∉ d.text := by
  have := (ne_feed_of_isQuote hd).symm
  cases h : d.triple <;> simp [Delimiter.text, h, this]

/-- The reader goes through a line as its lexemes say, and on from where they end. The tail is
empty or starts with the line's end, so no delimiter reaches from the line into it. -/
theorem readText_append (hq : ∀ d ∈ literal, isQuote d.mark = true) (hraw : '\n' ∉ raw)
    (htail : tail.head?.all (· = '\n') = true) :
    readText (.within literal) (raw ++ tail) =
      prepend (readLine literal raw).parts ((readLine literal raw).follow tail) := by
  -- A lexeme that both read alike is passed over.
  have step {literal literal' : Option Delimiter} {raw rest : List Char} {l : Lexeme}
      (h : lexemes literal raw = l :: lexemes literal' rest)
      (hmode : l.after (.within literal) = .within literal') (hl : l ≠ .escape none)
      (hread : readText (.within literal) (raw ++ tail) =
        prepend l.parts (readText (.within literal') (rest ++ tail)))
      (ih : readText (.within literal') (rest ++ tail) =
        prepend (readLine literal' rest).parts ((readLine literal' rest).follow tail)) :
      readText (.within literal) (raw ++ tail) =
        prepend (readLine literal raw).parts ((readLine literal raw).follow tail) := by
    rw [hread, ih, readLine_cons h hmode hl, LineReading.follow_put, ← prepend_append]
    rfl
  induction literal, raw using lexemes_induction with
  | nil literal =>
    have hline : readLine literal [] = ⟨[], .within literal, false⟩ := by
      simp [readLine, lexemes.eq_1]
    rw [hline, List.nil_append]
    cases tail with
    | nil => simp [LineReading.follow, prepend]
    | cons c more => simp [LineReading.follow, prepend]
  | escapeEnd d =>
    have hline : readLine (some d) ['\\'] = ⟨[('\\', .content)], .string d, true⟩ := rfl
    rw [hline]
    cases tail with
    | nil => simpa [LineReading.follow, prepend, Mode.within] using readText_escape_end d
    | cons c more =>
      rw [List.cons_append, List.nil_append, Mode.within, readText_escape]
      simp only [LineReading.follow, ↓reduceIte, ← prepend_append]
      rfl
  | escape d taken rest ih =>
    simp only [List.mem_cons, not_or] at hraw
    exact step (lexemes_escape d taken rest) rfl (by simp) (readText_escape d taken _)
      (ih hq hraw.2.2)
  | closing d rest hd ih =>
    rw [List.mem_append, not_or] at hraw
    have hfeed := ne_feed_of_isQuote (hq d rfl)
    refine step (lexemes_closing hd rest) rfl (by simp) ?_ (ih (by simp) hraw.2)
    rw [List.append_assoc]
    exact readText_closing hd hfeed _
  | content d c rest hc hne ih =>
    rw [List.mem_cons, not_or] at hraw
    have hne' : ¬ d.text <+: c :: (rest ++ tail) := by
      rwa [← List.cons_append, prefix_append_iff (Delimiter.feed_not_mem_text (hq d rfl)) htail]
    exact step (lexemes_content hc hne) rfl (by simp) (readText_content hc (Ne.symm hraw.1) hne')
      (ih hq hraw.2)
  | comment text =>
    rw [List.mem_cons, not_or] at hraw
    have hline : readLine none ('#' :: text) =
        ⟨('#', .comment) :: text.map (·, .comment), .comment, false⟩ := by
      simp [readLine, lexemes_comment, Lexeme.parts, Lexeme.after]
    rw [hline, List.cons_append, Mode.within, readText_hash, readText_comment_append hraw.2,
      ← prepend_append]
    cases tail <;> simp [LineReading.follow]
  | openTriple c rest hc ih =>
    simp only [List.mem_cons, not_or] at hraw
    exact step (lexemes_opening_triple hc rest) rfl (by simp) (readText_opening_triple hc _)
      (ih (by simpa using hc) hraw.2.2.2)
  | openSingle c rest hc hne ih =>
    rw [List.mem_cons, not_or] at hraw
    have hmarks : '\n' ∉ [c, c] := by simpa using hraw.1
    have hne' : ¬ [c, c] <+: rest ++ tail := by rwa [prefix_append_iff hmarks htail]
    exact step (lexemes_opening_single hc hne) rfl (by simp) (readText_opening_single hc hne')
      (ih (by simpa using hc) hraw.2)
  | join =>
    have hline : readLine none ['\\'] = ⟨[('\\', .join)], .code, false⟩ := rfl
    rw [hline, List.cons_append, List.nil_append, Mode.within, readText_join htail]
    cases tail <;> simp [LineReading.follow]
  | plain c rest hhash hc hjoin ih =>
    rw [List.mem_cons, not_or] at hraw
    have hjoin' : ¬ (c = '\\' ∧ (rest ++ tail).head?.all (· = '\n') = true) := by
      rintro ⟨hslash, hfeed⟩
      cases rest with
      | nil => exact hjoin ⟨hslash, rfl⟩
      | cons first rest => simp_all
    exact step (lexemes_plain hhash hc hjoin) rfl (by simp)
      (readText_plain (Ne.symm hraw.1) hhash hc hjoin') (ih (by simp) hraw.2)

/-- A line's end is taken by a backslash inside a literal only. -/
theorem isString_of_escaped (h : (readLine literal raw).escaped = true) :
    (readLine literal raw).mode.isString = true := by
  simp only [readLine] at h ⊢
  fun_induction lexemes literal raw <;> simp_all [Lexeme.after, Mode.within, Mode.isString]

/-- The reader goes through the last line of a text. -/
theorem readText_lastLine (hq : ∀ d ∈ literal, isQuote d.mark = true) (hraw : '\n' ∉ raw) :
    readText (.within literal) raw =
      some ((readLine literal raw).parts, (readLine literal raw).mode) := by
  have h := @readText_append literal raw [] hq hraw rfl
  rwa [List.append_nil, LineReading.follow, prepend_some, List.append_nil] at h

/-- The reader goes through a line and its end, if the line may end there. -/
theorem readText_line (hq : ∀ d ∈ literal, isQuote d.mark = true) (hraw : '\n' ∉ raw)
    (more : List Char) :
    readText (.within literal) (raw ++ '\n' :: more) =
      if (readLine literal raw).mayEnd then
        prepend ((readLine literal raw).parts ++ [('\n', (readLine literal raw).feed)])
          (readText (.within (readLine literal raw).mode.literal?) more)
      else none := by
  rw [readText_append hq hraw (by simp), prepend_append]
  have hescaped := @isString_of_escaped literal raw
  cases he : (readLine literal raw).escaped <;> cases hmode : (readLine literal raw).mode with
  | code =>
    simp_all [LineReading.follow, LineReading.mayEnd, LineReading.feed, Mode.isString,
      Mode.literal?, Mode.within, readText_code_feed]
  | comment =>
    simp_all [LineReading.follow, LineReading.mayEnd, LineReading.feed, Mode.isString,
      Mode.literal?, Mode.within, readText_comment_feed]
  | string d =>
    cases htriple : d.triple <;>
      simp [LineReading.follow, LineReading.mayEnd, LineReading.feed, Mode.isString,
        Mode.literal?, Mode.within, readText_string_feed, he, hmode, htriple, prepend]

end readLine

end CodeGrade
