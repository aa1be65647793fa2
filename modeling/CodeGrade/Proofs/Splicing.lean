import CodeGrade.Proofs.Insertion
import CodeGrade.Proofs.Opacity

/-!
# Splicing code into a line

A line is read on after a part of it. Where that part ends in code, what follows is read as if the
line started there, with the brackets that are open; and code that closes the brackets it opens
leaves no trace in what is read after it. What is open before a line is known by the lines that were
opened, but whether lines can be masked, and what they give, does not depend on these. A statement
that starts on a line starts there with other code on that line, too, and ends as before.

## Main definitions

* `ScannedLine.InCode`: a part of a line ends in code.
* `Masks`: what masking makes of lines, and what is open after them.
* `Carry.Alike`, `MaskedLine.Alike`: the same up to the numbers of lines.
-/

namespace CodeGrade

/-! ### Reading on after a part of a line -/

/-- A part of a line ends in code: outside literals and comments, and in no backslash. -/
structure ScannedLine.InCode (scanned : ScannedLine) : Prop where
  comment : scanned.comment = none
  string : scanned.carry.string = none
  escaped : scanned.escaped = false
  joined : scanned.joined = false

theorem emit_emit (a b : List Char) (result : Except Fault ScannedLine) :
    emit a (emit b result) = emit (a ++ b) result := by
  cases result <;> simp

/-- A text does not start with marks because of what follows it, unless a mark follows. -/
theorem not_prefix_append {marks text rest : List Char} (hmarks : ∀ c ∈ marks, isQuote c = true)
    (hrest : ∀ c ∈ rest.head?, isQuote c = false) (h : ¬ marks <+: text) :
    ¬ marks <+: text ++ rest := by
  rintro ⟨more, hmore⟩
  rcases List.append_eq_append_iff.1 hmore with ⟨after, rfl, -⟩ | ⟨after, rfl, rfl⟩
  · exact h (List.prefix_append marks after)
  · cases after with
    | nil => simp at h
    | cons c after =>
      have hquote := hmarks c (by simp)
      rw [hrest c (by simp)] at hquote
      cases hquote

theorem Delimiter.eq_mark_of_mem {d : Delimiter} {c : Char} (h : c ∈ d.text) : c = d.mark := by
  cases htriple : d.triple <;> simpa [Delimiter.text, htriple] using h

/-- A character of code changes the brackets that are open, or it is refused, whatever follows. -/
theorem interpret_plain (number : Nat) (string : Option OpenString) (brackets : List OpenBracket)
    (c : Char) :
    (∃ brackets' : List OpenBracket,
      openBrackets (brackets.map (·.bracket)) [c] = some (brackets'.map (·.bracket)) ∧
        ∀ ls, interpret number string brackets (.plain c :: ls) =
          emit [c] (interpret number string brackets' ls)) ∨
      openBrackets (brackets.map (·.bracket)) [c] = none ∧
        ∀ ls, interpret number string brackets (.plain c :: ls) =
          .error ⟨number, .unmatched c⟩ := by
  simp only [interpret, openBrackets]
  cases Bracket.ofOpener? c with
  | some bracket => exact .inl ⟨⟨bracket, number⟩ :: brackets, rfl, fun _ => rfl⟩
  | none =>
    cases Bracket.ofCloser? c with
    | none => exact .inl ⟨brackets, rfl, fun _ => rfl⟩
    | some bracket =>
      cases brackets with
      | nil => exact .inr ⟨rfl, fun _ => rfl⟩
      | cons top outer =>
        by_cases htop : top.bracket = bracket
        · exact .inl ⟨outer, by simp [htop], fun _ => by simp [htop]⟩
        · exact .inr ⟨by simp [htop], fun _ => by simp [htop]⟩

/-- What follows a part of a line that ends in code is read from where the part left off. -/
theorem interpret_append {number : Nat} {rest : List Char}
    (hrest : ∀ c ∈ rest.head?, isQuote c = false) {literal : Option Delimiter} {left : List Char}
    (hq : ∀ d ∈ literal, isQuote d.mark = true) {string : Option OpenString}
    (hstring : string.map (·.delimiter) = literal) {brackets : List OpenBracket}
    {scanned : ScannedLine}
    (h : interpret number string brackets (lexemes literal left) = .ok scanned)
    (hcode : scanned.InCode) :
    interpret number string brackets (lexemes literal (left ++ rest)) =
      emit scanned.code (interpret number none scanned.carry.brackets (lexemes none rest)) := by
  induction literal, left using lexemes_induction generalizing string brackets scanned with
  | nil literal =>
    rw [lexemes.eq_1, interpret, Except.ok.injEq] at h
    subst h
    obtain rfl : string = none := hcode.string
    subst hstring
    rw [emit_nil]
    rfl
  | escapeEnd d =>
    rw [lexemes.eq_def] at h
    simp only [↓reduceIte, interpret, Except.ok.injEq] at h
    subst h
    cases hcode.escaped
  | escape d taken left ih =>
    rw [lexemes_escape, interpret] at h
    rw [List.cons_append, List.cons_append, lexemes_escape, interpret]
    exact ih hq hstring h hcode
  | closing d left hd ih =>
    rw [lexemes_closing hd, interpret] at h
    obtain ⟨inner, hinner, rfl⟩ := emit_eq_ok h
    rw [List.append_assoc, lexemes_closing hd, interpret, ih (by simp) rfl hinner
      ⟨hcode.comment, hcode.string, hcode.escaped, hcode.joined⟩, emit_emit]
  | content d c left hc hd ih =>
    have hmarks : ∀ c ∈ d.text, isQuote c = true := fun c hc => d.eq_mark_of_mem hc ▸ hq d rfl
    have hd' := not_prefix_append hmarks hrest hd
    rw [List.cons_append] at hd'
    rw [lexemes_content hc hd, interpret] at h
    rw [List.cons_append, lexemes_content hc hd', interpret]
    exact ih hq hstring h hcode
  | comment text =>
    rw [lexemes_comment, interpret, Except.ok.injEq] at h
    subst h
    cases hcode.comment
  | openTriple c left hc ih =>
    rw [lexemes_opening_triple hc, interpret] at h
    obtain ⟨inner, hinner, rfl⟩ := emit_eq_ok h
    rw [List.cons_append, List.cons_append, List.cons_append, lexemes_opening_triple hc, interpret,
      ih (by simpa using hc) rfl hinner
        ⟨hcode.comment, hcode.string, hcode.escaped, hcode.joined⟩, emit_emit]
  | openSingle c left hc hne ih =>
    have hne' := not_prefix_append (by simpa using hc) hrest hne
    rw [lexemes_opening_single hc hne, interpret] at h
    obtain ⟨inner, hinner, rfl⟩ := emit_eq_ok h
    rw [List.cons_append, lexemes_opening_single hc hne', interpret,
      ih (by simpa using hc) rfl hinner
        ⟨hcode.comment, hcode.string, hcode.escaped, hcode.joined⟩, emit_emit]
  | join =>
    have hjoin : lexemes none ['\\'] = [.join] := by
      rw [lexemes.eq_def]
      simp
    rw [hjoin, interpret, Except.ok.injEq] at h
    subst h
    cases hcode.joined
  | plain c left hhash hc hjoin ih =>
    have hjoin' : ¬ (c = '\\' ∧ left ++ rest = []) := by
      rintro ⟨rfl, hnil⟩
      exact hjoin ⟨rfl, (List.append_eq_nil_iff.1 hnil).1⟩
    rw [lexemes_plain hhash hc hjoin] at h
    rw [List.cons_append, lexemes_plain hhash hc hjoin']
    rcases interpret_plain number string brackets c with ⟨brackets', -, hplain⟩ | ⟨-, herror⟩
    · rw [hplain] at h
      obtain ⟨inner, hinner, rfl⟩ := emit_eq_ok h
      rw [hplain, ih hq hstring hinner
        ⟨hcode.comment, hcode.string, hcode.escaped, hcode.joined⟩, emit_emit]
    · rw [herror] at h
      cases h

theorem scanLine_append {number : Nat} {carry : Carry} (hq : carry.Quoted) {left rest : List Char}
    {scanned : ScannedLine} (h : scanLine number carry.string carry.brackets left = .ok scanned)
    (hcode : scanned.InCode) (hrest : ∀ c ∈ rest.head?, isQuote c = false) :
    scanLine number carry.string carry.brackets (left ++ rest) =
      emit scanned.code (scanLine number none scanned.carry.brackets rest) := by
  rw [scanLine_eq_interpret] at h ⊢
  rw [scanLine_eq_interpret, interpret_append hrest hq.delimiter rfl h hcode]
  rfl

/-- Text that masking leaves as it is, if the line is read as code: it starts no literal and no
comment and joins no line. -/
def isPlain (c : Char) : Bool := !isQuote c && c != '#' && c != '\\'

/-- Characters of a class without the marks of literals, comments and joins are plain. -/
theorem isPlain_of_class {p : Char → Bool} {c : Char}
    (hp : ['"', apostrophe, '#', '\\'].all (!p ·) = true) (h : p c = true) : isPlain c = true := by
  simp only [List.all_cons, List.all_nil, Bool.and_true, Bool.and_eq_true, Bool.not_eq_true'] at hp
  have hne (mark : Char) (hmark : p mark = false) : c ≠ mark := by
    rintro rfl
    simp [h] at hmark
  simp [isPlain, isQuote, hne _ hp.1, hne _ hp.2.1, hne _ hp.2.2.1, hne _ hp.2.2.2]

theorem scanLine_plain {c : Char} (hc : isPlain c = true) (number : Nat)
    (brackets : List OpenBracket) (rest : List Char) :
    scanLine number none brackets (c :: rest) =
      interpret number none brackets (.plain c :: lexemes none rest) := by
  simp only [isPlain, Bool.and_eq_true, Bool.not_eq_true', bne_iff_ne, ne_eq] at hc
  rw [scanLine_eq_interpret, Option.map_none,
    lexemes_plain hc.1.2 hc.1.1 fun h => hc.2 h.1]

/-- Plain code is read up to its end, with the brackets that are open then. -/
theorem scanLine_nested {text : List Char} (hplain : text.all isPlain = true)
    {stack stack' : List Bracket} (h : openBrackets stack text = some stack') (number : Nat)
    (brackets : List OpenBracket) (rest : List Char) :
    scanLine number none (stack.map (⟨·, number⟩) ++ brackets) (text ++ rest) =
      emit text (scanLine number none (stack'.map (⟨·, number⟩) ++ brackets) rest) := by
  induction stack, text using openBrackets_induction with
  | nil stack =>
    obtain rfl := Option.some.inj h
    rw [emit_nil]
    rfl
  | opener stack b text ih =>
    rw [List.all_cons, Bool.and_eq_true] at hplain
    have hrest := ih hplain.2 (by simpa using h)
    rw [List.map_cons, List.cons_append, scanLine_eq_interpret, Option.map_none] at hrest
    rw [List.cons_append, scanLine_plain hplain.1, interpret]
    simp only [Bracket.ofOpener?_opener, hrest, emit_emit]
    rfl
  | closer b outer text ih =>
    rw [List.all_cons, Bool.and_eq_true] at hplain
    have hrest := ih hplain.2 (by simpa using h)
    rw [scanLine_eq_interpret, Option.map_none] at hrest
    rw [List.cons_append, scanLine_plain hplain.1, interpret]
    simp only [Bracket.ofOpener?_closer, Bracket.ofCloser?_closer, List.map_cons, List.cons_append,
      ↓reduceIte, hrest, emit_emit]
    rfl
  | other stack c text hc ih =>
    rw [List.all_cons, Bool.and_eq_true] at hplain
    have hrest := ih hplain.2 (by rwa [openBrackets_cons_of_not_isBracket hc] at h)
    rw [scanLine_eq_interpret, Option.map_none] at hrest
    simp only [isBracket, isOpener, isCloser, Bool.or_eq_false_iff, Option.isSome_eq_false_iff,
      Option.isNone_iff_eq_none] at hc
    rw [List.cons_append, scanLine_plain hplain.1, interpret]
    simp only [hc.1, hc.2, hrest, emit_emit]
    rfl
  | stuck stack b text _ hnone => simp [hnone] at h

theorem scanLine_blanks {blanks : List Char} (h : Text.allBlank blanks = true) (number : Nat)
    (brackets : List OpenBracket) (rest : List Char) :
    scanLine number none brackets (blanks ++ rest) =
      emit blanks (scanLine number none brackets rest) := by
  have hblank := List.all_eq_true.1 h
  exact scanLine_nested
    (List.all_eq_true.2 fun c hc => isPlain_of_class (by decide) (hblank c hc))
    (plain_of_words (fun c hc => .inr (hblank c hc)) []).1 number brackets rest

/-! ### Masking lines in part -/

/-- What masking makes of lines, the first of which has the given number, and what is open before
and after them. -/
inductive Masks : Nat → Carry → List (List Char) → List MaskedLine → Carry → Prop where
  | nil (number : Nat) (carry : Carry) : Masks number carry [] [] carry
  | cons {number : Nat} {carry carry' after : Carry} {raw : List Char} {line : MaskedLine}
      {rest : List (List Char)} {lines : List MaskedLine}
      (head : maskLine number carry raw = .ok (line, carry'))
      (tail : Masks (number + 1) carry' rest lines after) :
      Masks number carry (raw :: rest) (line :: lines) after

/-- Lines can be masked if those above can and those below can, from what is open then. -/
theorem maskFrom_append_eq_ok {number : Nat} {carry : Carry} {above below : List (List Char)}
    {masked : List MaskedLine} :
    maskFrom number carry (above ++ below) = .ok masked ↔
      ∃ first after second, Masks number carry above first after ∧
        maskFrom (number + above.length) after below = .ok second ∧ masked = first ++ second := by
  induction above generalizing number carry masked with
  | nil =>
    constructor
    · exact fun h => ⟨[], carry, masked, .nil number carry, h, rfl⟩
    · rintro ⟨_, _, second, ⟨⟩, h, rfl⟩
      exact h
  | cons raw above ih =>
    have hnumber : number + (raw :: above).length = number + 1 + above.length := by
      rw [List.length_cons]
      omega
    rw [List.cons_append, maskFrom_cons_eq_ok, hnumber]
    constructor
    · rintro ⟨line, carry', lines, hline, hlines, rfl⟩
      obtain ⟨first, after, second, hfirst, hsecond, rfl⟩ := ih.1 hlines
      exact ⟨line :: first, after, second, .cons hline hfirst, hsecond, rfl⟩
    · rintro ⟨_, after, second, hmasks, hsecond, rfl⟩
      cases hmasks with
      | cons hline hfirst =>
        exact ⟨_, _, _, hline, ih.2 ⟨_, after, second, hfirst, hsecond, rfl⟩, rfl⟩

theorem Masks.unique {number : Nat} {carry after after' : Carry} {lines : List (List Char)}
    {masked masked' : List MaskedLine} (h : Masks number carry lines masked after)
    (h' : Masks number carry lines masked' after') : masked = masked' ∧ after = after' := by
  induction h generalizing masked' after' with
  | nil =>
    cases h'
    exact ⟨rfl, rfl⟩
  | cons hline _ ih =>
    cases h' with
    | cons hline' htail' =>
      obtain ⟨rfl, rfl⟩ := Prod.mk.inj (Except.ok.inj (hline.symm.trans hline'))
      obtain ⟨rfl, rfl⟩ := ih htail'
      exact ⟨rfl, rfl⟩

/-- What masking has open is open in the statement being joined. -/
structure Holds (current : Option Statement) (carry : Carry) : Prop where
  quoted : carry.Quoted
  matching : Matching current carry.stack
  string : carry.string.isSome = true → current.isSome = true

theorem holds_empty : Holds none .empty := ⟨Carry.quoted_empty, rfl, by simp [Carry.empty]⟩

theorem Holds.eq_empty {carry : Carry} (h : Holds none carry) : carry = .empty := by
  obtain ⟨string, brackets⟩ := carry
  have hstring : string = none := by simpa using h.string
  have hbrackets : brackets = [] := by simpa [Matching, Carry.stack] using h.matching
  rw [hstring, hbrackets, Carry.empty]

theorem Holds.maskLine {current : Option Statement} {number : Nat} {carry carry' : Carry}
    {raw : List Char} {line : MaskedLine} (h : Holds current carry)
    (hline : CodeGrade.maskLine number carry raw = .ok (line, carry')) :
    Holds (Statement.extend current line) carry' where
  quoted := h.quoted.maskLine hline
  matching := h.matching.extend (openBrackets_maskLine h.quoted hline)
  string := isSome_extend_of_string hline h.string

theorem Masks.holds {number : Nat} {carry after : Carry} {lines : List (List Char)}
    {masked : List MaskedLine} (hmasks : Masks number carry lines masked after)
    {current : Option Statement} (h : Holds current carry) :
    Holds (openAfter current masked) after := by
  induction hmasks generalizing current with
  | nil => exact h
  | @cons _ _ _ _ _ line _ _ hline _ ih =>
    have hextend := h.maskLine hline
    rw [openAfter]
    cases hcurrent : Statement.extend current line with
    | none => exact ih (hcurrent ▸ hextend)
    | some statement =>
      cases hcontinues : line.continues with
      | true => exact ih (hcurrent ▸ hextend)
      | false => exact ih (carry_of_maskLine hline hcontinues ▸ holds_empty)

/-! ### Lines of other numbers -/

/-- The same is open, perhaps from other lines on. -/
structure Carry.Alike (carry other : Carry) : Prop where
  string : other.string.map (·.delimiter) = carry.string.map (·.delimiter)
  stack : other.stack = carry.stack

/-- The same was read, perhaps on another line. -/
structure ScannedLine.Alike (scanned other : ScannedLine) : Prop where
  code : other.code = scanned.code
  comment : other.comment = scanned.comment
  carry : scanned.carry.Alike other.carry
  escaped : other.escaped = scanned.escaped
  joined : other.joined = scanned.joined

theorem interpret_alike {number number' : Nat} {string string' : Option OpenString}
    {brackets brackets' : List OpenBracket} {ls : List Lexeme} {scanned : ScannedLine}
    (hcarry : (Carry.mk string brackets).Alike ⟨string', brackets'⟩)
    (h : interpret number string brackets ls = .ok scanned) :
    ∃ other, interpret number' string' brackets' ls = .ok other ∧ scanned.Alike other := by
  have hemit {code : List Char} {result other : Except Fault ScannedLine} {scanned : ScannedLine}
      (h : emit code result = .ok scanned)
      (hother : ∀ inner, result = .ok inner → ∃ inner', other = .ok inner' ∧ inner.Alike inner') :
      ∃ scanned', emit code other = .ok scanned' ∧ scanned.Alike scanned' := by
    obtain ⟨inner, hinner, rfl⟩ := emit_eq_ok h
    obtain ⟨inner', rfl, hcode, hcomment, hcarry, hescaped, hjoined⟩ := hother inner hinner
    exact ⟨_, rfl, congrArg (code ++ ·) hcode, hcomment, hcarry, hescaped, hjoined⟩
  induction ls generalizing string string' brackets brackets' scanned with
  | nil =>
    rw [interpret, Except.ok.injEq] at h
    subst h
    exact ⟨_, rfl, rfl, rfl, hcarry, rfl, rfl⟩
  | cons l ls ih =>
    cases l with
    | plain c =>
      have hstack : brackets'.map (·.bracket) = brackets.map (·.bracket) := hcarry.stack
      rcases interpret_plain number string brackets c with ⟨after, hopen, hplain⟩ | ⟨-, herror⟩
      · rcases interpret_plain number' string' brackets' c with
          ⟨after', hopen', hplain'⟩ | ⟨hopen', -⟩
        · rw [hstack, hopen, Option.some.injEq] at hopen'
          have hread : (Carry.mk string after).Alike ⟨string', after'⟩ :=
            ⟨hcarry.string, hopen'.symm⟩
          rw [hplain] at h
          rw [hplain']
          exact hemit h fun inner hinner => ih hread hinner
        · rw [hstack, hopen] at hopen'
          cases hopen'
      · rw [herror] at h
        cases h
    | opening d =>
      have hopened : (Carry.mk (some ⟨d, number⟩) brackets).Alike ⟨some ⟨d, number'⟩, brackets'⟩ :=
        ⟨rfl, hcarry.stack⟩
      exact hemit h fun inner hinner => ih hopened hinner
    | closing d =>
      have hclosed : (Carry.mk none brackets).Alike ⟨none, brackets'⟩ := ⟨rfl, hcarry.stack⟩
      exact hemit h fun inner hinner => ih hclosed hinner
    | content c => exact ih hcarry h
    | escape taken =>
      cases taken with
      | none =>
        rw [interpret, Except.ok.injEq] at h
        subst h
        exact ⟨_, rfl, rfl, rfl, hcarry, rfl, rfl⟩
      | some c => exact ih hcarry h
    | comment text =>
      rw [interpret, Except.ok.injEq] at h
      subst h
      exact ⟨_, rfl, rfl, rfl, hcarry, rfl, rfl⟩
    | join =>
      rw [interpret, Except.ok.injEq] at h
      subst h
      exact ⟨_, rfl, rfl, rfl, hcarry, rfl, rfl⟩

theorem scanLine_alike {number : Nat} {carry carry' : Carry} (hcarry : carry.Alike carry')
    {raw : List Char} {scanned : ScannedLine}
    (h : scanLine number carry.string carry.brackets raw = .ok scanned) (number' : Nat) :
    ∃ other, scanLine number' carry'.string carry'.brackets raw = .ok other ∧
      scanned.Alike other := by
  rw [scanLine_eq_interpret] at h
  rw [scanLine_eq_interpret, hcarry.string]
  exact interpret_alike hcarry h

/-- The same line, perhaps with another number. -/
def MaskedLine.Alike (line other : MaskedLine) : Prop :=
  other.raw = line.raw ∧ other.code = line.code ∧ other.continues = line.continues

theorem ScannedLine.Alike.masked {scanned other : ScannedLine} (h : scanned.Alike other)
    (number number' : Nat) (raw : List Char) :
    (scanned.masked number raw).Alike (other.masked number' raw) := by
  have hstring := congrArg Option.isSome h.carry.string
  have hbrackets := congrArg List.isEmpty h.carry.stack
  simp only [Option.isSome_map, Carry.stack, List.isEmpty_map] at hstring hbrackets
  exact ⟨rfl, h.code, by simp [ScannedLine.masked, hstring, hbrackets, h.joined]⟩

theorem ScannedLine.Alike.mayEnd {scanned other : ScannedLine} (h : scanned.Alike other)
    (hend : scanned.MayEnd) : other.MayEnd := by
  intro literal hliteral
  have hmap := h.carry.string
  rw [hliteral, Option.map_some] at hmap
  obtain ⟨literal', hliteral', hdelimiter⟩ := Option.map_eq_some_iff.1 hmap.symm
  rw [← hdelimiter, h.escaped]
  exact hend literal' hliteral'

/-- Whether lines can be masked, and what they give, does not depend on their numbers. -/
theorem maskFrom_alike {number : Nat} {carry carry' : Carry} (hcarry : carry.Alike carry')
    {lines : List (List Char)} {masked : List MaskedLine}
    (h : maskFrom number carry lines = .ok masked) (number' : Nat) :
    ∃ others, maskFrom number' carry' lines = .ok others ∧
      List.Forall₂ MaskedLine.Alike masked others := by
  induction lines generalizing number number' carry carry' masked with
  | nil =>
    obtain ⟨hfault, rfl⟩ := maskFrom_nil_eq_ok.1 h
    obtain ⟨hstring, hbrackets⟩ := Carry.fault?_eq_none.1 hfault
    have hstring' : carry'.string = none := by simpa [hstring] using hcarry.string
    have hbrackets' : carry'.brackets = [] := by simpa [Carry.stack, hbrackets] using hcarry.stack
    exact ⟨[], maskFrom_nil_eq_ok.2 ⟨Carry.fault?_eq_none.2 ⟨hstring', hbrackets'⟩, rfl⟩, .nil⟩
  | cons raw rest ih =>
    obtain ⟨line, after, tail, hline, htail, rfl⟩ := maskFrom_cons_eq_ok.1 h
    obtain ⟨hraw, scanned, hscan, hend, rfl, rfl⟩ := maskLine_eq_ok.1 hline
    obtain ⟨other, hscan', hother⟩ := scanLine_alike hcarry hscan number'
    obtain ⟨others, hothers, halike⟩ := ih hother.carry htail (number' + 1)
    exact ⟨other.masked number' raw :: others, maskFrom_cons_eq_ok.2 ⟨_, _, _,
      maskLine_eq_ok.2 ⟨hraw, other, hscan', hother.mayEnd hend, rfl, rfl⟩, hothers, rfl⟩,
      .cons (hother.masked number number' raw) halike⟩

/-! ### Statements -/

/-- What follows a character that is no blank does not matter for the indentation. -/
theorem indentFrom_append_cons {c : Char} (hc : Text.isBlank c = false) (width : Nat)
    (left rest : List Char) :
    indentFrom width (left ++ c :: rest) = indentFrom width (left ++ [c]) := by
  induction left generalizing width with
  | nil =>
    have hne (blank : Char) (h : Text.isBlank blank = true) : c ≠ blank := by
      rintro rfl
      simp [h] at hc
    simp [indentFrom, hne ' ' rfl, hne '\t' rfl, hne '\x0c' rfl]
  | cons first left ih => simp only [List.cons_append, indentFrom, ih]


theorem extend_none (line : MaskedLine) (h : Text.allBlank line.code = false) :
    Statement.extend none line =
      some ⟨line.number, line.number, indentWidth line.raw, Text.trim line.code⟩ := by
  have hne : (Text.trim line.code).isEmpty = false := by
    rw [← Bool.not_eq_true, List.isEmpty_iff, Text.trim_eq_nil, h]
    simp
  simp [Statement.extend, hne]

/-- A statement that is open goes on in the same way whatever it is, if it is ever finished. -/
theorem joinFrom_open (lines : List MaskedLine) :
    (∀ s, joinFrom (some s) lines = []) ∨
      ∃ endLine suffix more, ∀ s : Statement,
        joinFrom (some s) lines = { s with endLine, code := s.code ++ suffix } :: more := by
  induction lines with
  | nil => exact .inl fun _ => rfl
  | cons line rest ih =>
    obtain ⟨suffix, hextend⟩ : ∃ suffix, ∀ s : Statement, Statement.extend (some s) line =
        some { s with endLine := line.number, code := s.code ++ suffix } := by
      cases hcode : (Text.trim line.code).isEmpty with
      | true => exact ⟨[], fun s => by simp [Statement.extend, hcode]⟩
      | false => exact ⟨' ' :: Text.trim line.code, fun s => by simp [Statement.extend, hcode]⟩
    simp only [joinFrom, hextend]
    cases line.continues with
    | false => exact .inr ⟨line.number, suffix, joinFrom none rest, fun _ => rfl⟩
    | true =>
      rcases ih with hnil | ⟨endLine, suffix', more, hmore⟩
      · exact .inl fun _ => hnil _
      · exact .inr ⟨endLine, suffix ++ suffix', more, fun s => by simp [hmore]⟩

/-- A statement of lines is the one that was open before them, or it starts on one of them. -/
theorem startLine_of_mem_joinFrom {n : Nat} {current : Option Statement} {lines : List MaskedLine}
    (hlines : Numbered n lines) {s : Statement} (hs : s ∈ joinFrom current lines) :
    current.map (·.startLine) = some s.startLine ∨ n ≤ s.startLine := by
  induction current, lines using joining_induction generalizing n with
  | nil current => simp [joinFrom] at hs
  | blank line rest hblank hextend ih =>
    simp only [joinFrom, hextend] at hs
    have hrest := ih (numbered_cons.1 hlines).2 hs
    simp only [Option.map_none, reduceCtorEq, false_or] at hrest ⊢
    omega
  | continued current line statement rest hextend hcontinues ih =>
    obtain ⟨hnumber, hrest⟩ := numbered_cons.1 hlines
    obtain ⟨-, hstart⟩ := extend_eq_some hextend
    simp only [joinFrom, hextend, hcontinues, ↓reduceIte] at hs
    rcases ih hrest hs with hsame | hlater
    · cases current <;> simp_all
    · exact .inr (by omega)
  | finished current line statement rest hextend hcontinues ih =>
    obtain ⟨hnumber, hrest⟩ := numbered_cons.1 hlines
    obtain ⟨-, hstart⟩ := extend_eq_some hextend
    simp only [joinFrom, hextend, hcontinues, Bool.false_eq_true, ↓reduceIte, List.mem_cons] at hs
    rcases hs with rfl | hs
    · cases current <;> simp_all
    · have hlater := ih hrest hs
      simp only [Option.map_none, reduceCtorEq, false_or] at hlater
      exact .inr (by omega)

theorem numbered_append {n : Nat} {first rest : List MaskedLine} :
    Numbered n (first ++ rest) ↔ Numbered n first ∧ Numbered (n + first.length) rest := by
  induction first generalizing n with
  | nil => simp [Numbered]
  | cons line first ih =>
    have hlength : n + (line :: first).length = n + 1 + first.length := by
      rw [List.length_cons]
      omega
    rw [List.cons_append, numbered_cons, numbered_cons, ih, hlength, and_assoc]

theorem Ordered.eq_of_startLine {lo hi : Nat} {statements : List Statement}
    (h : Ordered lo hi statements) {s t : Statement} (hs : s ∈ statements) (ht : t ∈ statements)
    (heq : s.startLine = t.startLine) : s = t := by
  induction statements generalizing lo with
  | nil => cases hs
  | cons first rest ih =>
    obtain ⟨-, hspan, -, hrest⟩ := h
    have hlater (t : Statement) (ht : t ∈ rest) : first.startLine < t.startLine := by
      have := hrest.bounds t ht
      omega
    rcases List.mem_cons.1 hs with rfl | hs' <;> rcases List.mem_cons.1 ht with rfl | ht'
    · rfl
    · exact absurd heq (hlater t ht').ne
    · exact absurd heq (hlater s hs').ne'
    · exact ih hrest hs' ht'

section Start

variable {n : Nat} {first rest : List MaskedLine} {line : MaskedLine} {s : Statement}

/-- No statement is open before a line on which one starts. -/
theorem openAfter_eq_none_of_start (hlines : Numbered n (first ++ line :: rest))
    (hs : s ∈ joinFrom none (first ++ line :: rest)) (hstart : s.startLine = line.number) :
    openAfter none first = none := by
  obtain ⟨hfirst, hrest⟩ := numbered_append.1 hlines
  obtain ⟨hnumber, hrest⟩ := numbered_cons.1 hrest
  have hordered := ordered_segments none hfirst le_rfl rfl trivial
  by_contra hne
  obtain ⟨before, hbefore⟩ := Option.ne_none_iff_exists'.1 hne
  rw [segments, hbefore, Option.toList_some] at hordered
  have hearlier (t : Statement) (ht : t ∈ joinFrom none first ++ [before]) :
      t.startLine < n + first.length := by
    have := hordered.bounds t ht
    omega
  obtain ⟨longer, hlonger⟩ : ∃ longer, Statement.extend (some before) line = some longer :=
    ⟨_, rfl⟩
  obtain ⟨-, hlongerStart⟩ := extend_eq_some hlonger
  have hbeforeStart := hearlier before (by simp)
  simp only [Option.map_some, Option.getD_some] at hlongerStart
  rw [joinFrom_append, hbefore, List.mem_append] at hs
  rcases hs with hs | hs
  · have := hearlier s (by simp [hs])
    omega
  · have hlater (current : Option Statement) (hs : s ∈ joinFrom current rest) :
        current.map (·.startLine) = some s.startLine := by
      rcases startLine_of_mem_joinFrom hrest hs with hsame | hlater
      · exact hsame
      · omega
    simp only [joinFrom, hlonger] at hs
    split at hs
    · have hsame := hlater _ hs
      simp only [Option.map_some, Option.some.injEq] at hsame
      omega
    · rcases List.mem_cons.1 hs with rfl | hs
      · omega
      · cases hlater _ hs

/-- The statement that starts on a line is made of the line's code and of what follows, which does
not depend on the line. -/
theorem joinFrom_start (hlines : Numbered n (first ++ line :: rest))
    (hs : s ∈ joinFrom none (first ++ line :: rest)) (hstart : s.startLine = line.number) :
    ∃ before endLine suffix after,
      s = ⟨line.number, endLine, indentWidth line.raw, Text.trim line.code ++ suffix⟩ ∧
      ∀ line' : MaskedLine, line'.number = line.number → line'.continues = line.continues →
        Text.allBlank line'.code = false →
        joinFrom none (first ++ line' :: rest) =
          before ++ ⟨line.number, endLine, indentWidth line'.raw,
            Text.trim line'.code ++ suffix⟩ :: after := by
  have hopen := openAfter_eq_none_of_start hlines hs hstart
  have hordered := (ordered_segments none hlines le_rfl rfl trivial).left
  obtain ⟨hfirst, hrest⟩ := numbered_append.1 hlines
  obtain ⟨hnumber, hrest⟩ := numbered_cons.1 hrest
  have hs' : s ∈ joinFrom none (line :: rest) := by
    rw [joinFrom_append, hopen, List.mem_append] at hs
    rcases hs with hs | hs
    · have := (ordered_segments none hfirst le_rfl rfl trivial).left.bounds s hs
      omega
    · exact hs
  have hcode : Text.allBlank line.code = false := by
    by_contra hblank
    rw [Bool.not_eq_false] at hblank
    rw [joinFrom, extend_eq_none.2 ⟨rfl, hblank⟩] at hs'
    have hlater := startLine_of_mem_joinFrom hrest hs'
    simp only [Option.map_none, reduceCtorEq, false_or] at hlater
    omega
  -- What stands before and after the statement, and the code it goes on with.
  have hwhole : ∃ before endLine suffix after, ∀ line' : MaskedLine,
      line'.number = line.number → line'.continues = line.continues →
        Text.allBlank line'.code = false →
        joinFrom none (first ++ line' :: rest) =
          before ++ ⟨line.number, endLine, indentWidth line'.raw,
            Text.trim line'.code ++ suffix⟩ :: after := by
    simp only [joinFrom, extend_none line hcode] at hs'
    cases hcontinues : line.continues with
    | false =>
      refine ⟨joinFrom none first, line.number, [], joinFrom none rest, ?_⟩
      intro line' hnumber' hcontinues' hcode'
      simp [joinFrom_append, hopen, joinFrom, extend_none line' hcode', hcontinues', hnumber']
    | true =>
      rcases joinFrom_open rest with hnil | ⟨endLine, suffix, more, hmore⟩
      · simp [hcontinues, hnil] at hs'
      · refine ⟨joinFrom none first, endLine, suffix, more, ?_⟩
        intro line' hnumber' hcontinues' hcode'
        simp [joinFrom_append, hopen, joinFrom, extend_none line' hcode', hcontinues', hnumber',
          hmore]
  obtain ⟨before, endLine, suffix, after, hjoin⟩ := hwhole
  refine ⟨before, endLine, suffix, after, ?_, hjoin⟩
  rw [hjoin line rfl rfl hcode] at hs hordered
  exact hordered.eq_of_startLine hs (by simp) hstart

end Start

end CodeGrade
