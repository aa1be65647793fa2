import CodeGrade.Source.Mask
import Mathlib

/-!
# Lexemes of a line

Masking reads a line lexeme by lexeme: a character of code, a delimiter, a character of a string
literal, an escape, a comment, or the backslash that joins the next line. The lexemes depend on the
literal that is open before the line, and on nothing else that is carried over. Masking a line is
interpreting its lexemes, with no look ahead.

A literal's characters and a comment's text can be exchanged for others without changing how the
line is cut into lexemes.

## Main definitions

* `Lexeme`, `lexemes`: the lexemes of a line.
* `interpret`: what masking makes of lexemes.
* `Lexeme.Alike`: lexemes that differ in hidden text only.
-/

namespace CodeGrade

/-- A piece of a line as masking reads it. -/
inductive Lexeme where
  | plain (c : Char)
  | opening (d : Delimiter)
  | closing (d : Delimiter)
  | content (c : Char)
  /-- A backslash inside a literal, with the character it takes; there is none at a line's end. -/
  | escape (taken : Option Char)
  /-- A comment, without its sign. -/
  | comment (text : List Char)
  | join
  deriving DecidableEq, Repr

/-- The characters of a lexeme. -/
def Lexeme.text : Lexeme → List Char
  | plain c | content c => [c]
  | opening d | closing d => d.text
  | escape taken => '\\' :: taken.toList
  | comment text => '#' :: text
  | join => ['\\']

/-- The lexemes of a line, given the literal that is open before it. -/
def lexemes (literal : Option Delimiter) : List Char → List Lexeme
  | [] => []
  | c :: rest =>
    match literal with
    | some d =>
      if c = '\\' then
        match rest with
        | [] => [.escape none]
        | taken :: rest => .escape (some taken) :: lexemes (some d) rest
      else if c = d.mark then
        if d.triple then
          match rest with
          | c₂ :: c₃ :: rest₃ =>
            if c₂ = c ∧ c₃ = c then .closing d :: lexemes none rest₃
            else .content c :: lexemes (some d) (c₂ :: c₃ :: rest₃)
          | [c₂] => .content c :: lexemes (some d) [c₂]
          | [] => [.content c]
        else .closing d :: lexemes none rest
      else .content c :: lexemes (some d) rest
    | none =>
      if c = '#' then [.comment rest]
      else if isQuote c then
        match rest with
        | c₂ :: c₃ :: rest₃ =>
          if c₂ = c ∧ c₃ = c then .opening ⟨c, true⟩ :: lexemes (some ⟨c, true⟩) rest₃
          else .opening ⟨c, false⟩ :: lexemes (some ⟨c, false⟩) (c₂ :: c₃ :: rest₃)
        | [c₂] => .opening ⟨c, false⟩ :: lexemes (some ⟨c, false⟩) [c₂]
        | [] => [.opening ⟨c, false⟩]
      else if c = '\\' ∧ rest = [] then [.join]
      else .plain c :: lexemes none rest

/-- Nothing of a line is lost or invented by cutting it into lexemes. -/
theorem text_lexemes (literal : Option Delimiter) (raw : List Char) :
    (lexemes literal raw).flatMap Lexeme.text = raw := by
  fun_induction lexemes literal raw <;> simp_all [Lexeme.text, Delimiter.text]

@[simp] theorem isQuote_backslash : isQuote '\\' = false := rfl

@[simp] theorem isQuote_hash : isQuote '#' = false := rfl

theorem ne_backslash_of_isQuote {c : Char} (h : isQuote c = true) : c ≠ '\\' := by
  rintro rfl
  simp at h

theorem not_isBlank_of_isQuote {c : Char} (h : isQuote c = true) : Text.isBlank c = false := by
  rw [isQuote, Bool.or_eq_true] at h
  rcases h with h | h <;> rw [of_decide_eq_true h] <;> rfl

/-- A delimiter opened by a line is written in quotation marks. -/
theorem isQuote_of_opening_mem {literal : Option Delimiter} {raw : List Char} {d : Delimiter}
    (h : .opening d ∈ lexemes literal raw) : isQuote d.mark = true := by
  fun_induction lexemes literal raw <;> grind

/-! ### The lexeme at the start of a text -/

theorem lexemes_escape (d : Delimiter) (taken : Char) (rest : List Char) :
    lexemes (some d) ('\\' :: taken :: rest) = .escape (some taken) :: lexemes (some d) rest := by
  rw [lexemes.eq_def]
  simp

theorem lexemes_closing {d : Delimiter} (hd : d.mark ≠ '\\') (rest : List Char) :
    lexemes (some d) (d.text ++ rest) = .closing d :: lexemes none rest := by
  cases htriple : d.triple <;> simp [Delimiter.text, htriple, lexemes.eq_def (some d), hd]

theorem lexemes_content {d : Delimiter} {c : Char} {rest : List Char} (hc : c ≠ '\\')
    (hd : ¬ d.text <+: c :: rest) :
    lexemes (some d) (c :: rest) = .content c :: lexemes (some d) rest := by
  rw [lexemes.eq_def]
  by_cases hmark : c = d.mark
  · subst hmark
    cases htriple : d.triple with
    | false => simp [Delimiter.text, htriple] at hd
    | true =>
      match rest with
      | [] | [_] => simp [hc, htriple, lexemes.eq_1]
      | c₂ :: c₃ :: rest₃ =>
        have hne : ¬ (c₂ = d.mark ∧ c₃ = d.mark) := by
          rintro ⟨rfl, rfl⟩
          simp [Delimiter.text, htriple] at hd
        simp [hc, htriple, hne]
  · simp [hc, hmark]

theorem lexemes_comment (text : List Char) : lexemes none ('#' :: text) = [.comment text] := by
  rw [lexemes.eq_def]
  simp

theorem lexemes_opening_triple {c : Char} (hc : isQuote c = true) (rest : List Char) :
    lexemes none (c :: c :: c :: rest) = .opening ⟨c, true⟩ :: lexemes (some ⟨c, true⟩) rest := by
  rw [lexemes.eq_def]
  have hhash : c ≠ '#' := by rintro rfl; simp at hc
  simp [hc, hhash]

theorem lexemes_opening_single {c : Char} {rest : List Char} (hc : isQuote c = true)
    (h : ¬ [c, c] <+: rest) :
    lexemes none (c :: rest) = .opening ⟨c, false⟩ :: lexemes (some ⟨c, false⟩) rest := by
  rw [lexemes.eq_def]
  have hhash : c ≠ '#' := by rintro rfl; simp at hc
  match rest with
  | [] | [_] => simp [hc, hhash, lexemes.eq_1]
  | c₂ :: c₃ :: rest₃ =>
    have hne : ¬ (c₂ = c ∧ c₃ = c) := by
      rintro ⟨rfl, rfl⟩
      simp at h
    simp [hc, hhash, hne]

theorem lexemes_plain {c : Char} {rest : List Char} (hhash : c ≠ '#') (hc : isQuote c = false)
    (hjoin : ¬ (c = '\\' ∧ rest = [])) :
    lexemes none (c :: rest) = .plain c :: lexemes none rest := by
  rw [lexemes.eq_def]
  simp [hhash, hc, hjoin]

/-- Induction along the lexemes of a line. -/
@[elab_as_elim]
theorem lexemes_induction {motive : Option Delimiter → List Char → Prop}
    (nil : ∀ literal, motive literal [])
    (escapeEnd : ∀ d, motive (some d) ['\\'])
    (escape : ∀ d taken rest, motive (some d) rest → motive (some d) ('\\' :: taken :: rest))
    (closing : ∀ d rest, d.mark ≠ '\\' → motive none rest → motive (some d) (d.text ++ rest))
    (content : ∀ d c rest, c ≠ '\\' → ¬ d.text <+: c :: rest → motive (some d) rest →
      motive (some d) (c :: rest))
    (comment : ∀ text, motive none ('#' :: text))
    (openTriple : ∀ c rest, isQuote c = true → motive (some ⟨c, true⟩) rest →
      motive none (c :: c :: c :: rest))
    (openSingle : ∀ c rest, isQuote c = true → ¬ [c, c] <+: rest →
      motive (some ⟨c, false⟩) rest → motive none (c :: rest))
    (join : motive none ['\\'])
    (plain : ∀ c rest, c ≠ '#' → isQuote c = false → ¬ (c = '\\' ∧ rest = []) →
      motive none rest → motive none (c :: rest))
    (literal : Option Delimiter) (raw : List Char) : motive literal raw := by
  fun_induction lexemes literal raw with
  | case1 literal => exact nil literal
  | case2 d => exact escapeEnd d
  | case3 d taken rest ih => exact escape d taken rest ih
  | case4 d htriple c₂ c₃ rest₃ hslash heq ih =>
    obtain ⟨rfl, rfl⟩ := heq
    simpa [Delimiter.text, htriple] using closing d rest₃ hslash ih
  | case5 d htriple c₂ c₃ rest₃ hslash hne ih =>
    exact content d d.mark _ hslash (by simpa [Delimiter.text, htriple, eq_comm] using hne) ih
  | case6 d htriple c₂ hslash ih =>
    exact content d d.mark _ hslash (by simp [Delimiter.text, htriple]) ih
  | case7 d htriple hslash =>
    exact content d d.mark _ hslash (by simp [Delimiter.text, htriple]) (nil _)
  | case8 rest d htriple hslash ih =>
    simpa [Delimiter.text, htriple] using closing d rest hslash ih
  | case9 c rest d hslash hmark ih =>
    refine content d c rest hslash ?_ ih
    cases htriple : d.triple <;> simp [Delimiter.text, htriple, Ne.symm hmark]
  | case10 rest => exact comment rest
  | case11 c hhash hc c₂ c₃ rest₃ heq ih =>
    obtain ⟨rfl, rfl⟩ := heq
    exact openTriple _ rest₃ hc ih
  | case12 c hhash hc c₂ c₃ rest₃ hne ih =>
    exact openSingle c _ hc (by simpa [eq_comm] using hne) ih
  | case13 c hhash hc c₂ ih => exact openSingle c _ hc (by simp) ih
  | case14 c hhash hc => exact openSingle c _ hc (by simp) (nil _)
  | case15 c rest hhash hc heq =>
    obtain ⟨rfl, rfl⟩ := heq
    exact join
  | case16 c rest hhash hc hne ih => exact plain c rest hhash (by simpa using hc) hne ih

/-! ### Interpreting lexemes -/

/-- What masking makes of the lexemes of line `number`, from what is open before them. -/
def interpret (number : Nat) (string : Option OpenString) (brackets : List OpenBracket) :
    List Lexeme → Except Fault ScannedLine
  | [] => .ok ⟨[], none, ⟨string, brackets⟩, false, false⟩
  | .plain c :: rest =>
    match Bracket.ofOpener? c, Bracket.ofCloser? c with
    | some bracket, _ => emit [c] (interpret number string (⟨bracket, number⟩ :: brackets) rest)
    | none, some bracket =>
      match brackets with
      | top :: outer =>
        if top.bracket = bracket then emit [c] (interpret number string outer rest)
        else .error ⟨number, .unmatched c⟩
      | [] => .error ⟨number, .unmatched c⟩
    | none, none => emit [c] (interpret number string brackets rest)
  | .opening d :: rest => emit d.text (interpret number (some ⟨d, number⟩) brackets rest)
  | .closing d :: rest => emit d.text (interpret number none brackets rest)
  | .content _ :: rest | .escape (some _) :: rest => interpret number string brackets rest
  | .escape none :: _ => .ok ⟨[], none, ⟨string, brackets⟩, true, false⟩
  | .comment text :: _ => .ok ⟨[], some ('#' :: text), ⟨string, brackets⟩, false, false⟩
  | .join :: _ => .ok ⟨[], none, ⟨string, brackets⟩, false, true⟩

@[simp] theorem emit_ok (code : List Char) (scanned : ScannedLine) :
    emit code (.ok scanned) = .ok { scanned with code := code ++ scanned.code } := rfl

@[simp] theorem emit_error (code : List Char) (fault : Fault) :
    emit code (.error fault) = .error fault := rfl

theorem emit_nil (result : Except Fault ScannedLine) : emit [] result = result := by
  cases result <;> rfl

theorem emit_eq_ok {code : List Char} {result : Except Fault ScannedLine} {scanned : ScannedLine}
    (h : emit code result = .ok scanned) :
    ∃ rest, result = .ok rest ∧ scanned = { rest with code := code ++ rest.code } := by
  cases result with
  | error fault => simp at h
  | ok rest => exact ⟨rest, rfl, by simpa using h.symm⟩

/-- Masking a line is interpreting its lexemes. -/
theorem scanLine_eq_interpret (number : Nat) (string : Option OpenString)
    (brackets : List OpenBracket) (raw : List Char) :
    scanLine number string brackets raw =
      interpret number string brackets (lexemes (string.map (·.delimiter)) raw) := by
  fun_induction scanLine number string brackets raw
  all_goals
    rw [lexemes.eq_def]
    simp [*, interpret, Delimiter.text]

theorem Delimiter.mark_mem_text (d : Delimiter) : d.mark ∈ d.text := by
  cases h : d.triple <;> simp [Delimiter.text, h]

/-- The literal open after a line is the one open before it, or its delimiter stands in the code of
the line. -/
theorem interpret_string {number : Nat} {string : Option OpenString} {brackets : List OpenBracket}
    {ls : List Lexeme} {scanned : ScannedLine}
    (h : interpret number string brackets ls = .ok scanned) {literal : OpenString}
    (hl : scanned.carry.string = some literal) :
    string = some literal ∨
      .opening literal.delimiter ∈ ls ∧ literal.delimiter.mark ∈ scanned.code := by
  fun_induction interpret number string brackets ls generalizing scanned <;>
    grind [emit_eq_ok, Delimiter.mark_mem_text]

/-! ### Exchanging hidden text -/

/-- Lexemes that differ at most in a literal's character, which the second has no special one for,
or in the text of a comment. -/
inductive Lexeme.Alike : Lexeme → Lexeme → Prop where
  | refl (l : Lexeme) : Alike l l
  | content (c : Char) {c' : Char} (quote : isQuote c' = false) (escape : c' ≠ '\\') :
      Alike (.content c) (.content c')
  | comment (text text' : List Char) : Alike (.comment text) (.comment text')

open Lexeme (Alike)

theorem Lexeme.text_ne_nil (l : Lexeme) : l.text ≠ [] := by
  cases l with
  | opening d | closing d => exact List.ne_nil_of_mem d.mark_mem_text
  | _ => simp [Lexeme.text]

/-- A quotation mark at the start of the exchanged text stood there before. -/
theorem quote_of_alike {ls ls' : List Lexeme} (h : List.Forall₂ Alike ls ls') {q : Char}
    {more : List Char} (hq : isQuote q = true) (hmore : ls'.flatMap Lexeme.text = q :: more) :
    ∃ rest, ls.flatMap Lexeme.text = q :: rest := by
  cases h with
  | nil => simp at hmore
  | @cons l _ ls _ head tail =>
    cases head with
    | refl =>
      obtain ⟨c, text, hl⟩ := List.exists_cons_of_ne_nil l.text_ne_nil
      simp only [List.flatMap_cons, hl, List.cons_append, List.cons.injEq] at hmore
      exact ⟨text ++ ls.flatMap Lexeme.text, by simp [hl, hmore.1]⟩
    | content c quote escape =>
      simp only [List.flatMap_cons, Lexeme.text, List.cons_append, List.cons.injEq] at hmore
      simp [← hmore.1, quote] at hq
    | comment text text' =>
      simp only [List.flatMap_cons, Lexeme.text, List.cons_append, List.cons.injEq] at hmore
      simp [← hmore.1] at hq

/-- Two marks of the open literal at the start of the exchanged text stood there before. -/
theorem marks_of_alike {d : Delimiter} (hd : isQuote d.mark = true) {raw : List Char}
    {ls : List Lexeme} (h : List.Forall₂ Alike (lexemes (some d) raw) ls) {more : List Char}
    (hmore : ls.flatMap Lexeme.text = d.mark :: d.mark :: more) :
    [d.mark, d.mark] <+: raw := by
  obtain ⟨rest, hrest⟩ := quote_of_alike h hd hmore
  rw [text_lexemes] at hrest
  subst hrest
  by_cases hclose : d.text <+: d.mark :: rest
  · obtain ⟨after, hafter⟩ := hclose
    rw [← hafter, lexemes_closing (ne_backslash_of_isQuote hd)] at h
    cases h with
    | cons head tail =>
      cases head
      cases htriple : d.triple with
      | true => simp [← hafter, Delimiter.text, htriple]
      | false =>
        obtain ⟨rest', hrest'⟩ := quote_of_alike tail hd
          (by simpa [Lexeme.text, Delimiter.text, htriple] using hmore)
        rw [text_lexemes] at hrest'
        simp [← hafter, Delimiter.text, htriple, hrest']
  · rw [lexemes_content (ne_backslash_of_isQuote hd) hclose] at h
    cases h with
    | @cons _ l _ ls head tail =>
      have htail : ls.flatMap Lexeme.text = d.mark :: more := by
        cases head with
        | refl => simpa [Lexeme.text] using hmore
        | content _ quote escape => exact (by simpa [Lexeme.text] using hmore : _ ∧ _).2
      obtain ⟨rest', hrest'⟩ := quote_of_alike tail hd htail
      rw [text_lexemes] at hrest'
      simp [hrest']

/-- What may stand in the place of a literal's character. -/
theorem Lexeme.Alike.of_content {c : Char} {l : Lexeme} (h : Alike (.content c) l)
    (hc : c ≠ '\\') : ∃ c', l = .content c' ∧ c' ≠ '\\' ∧ (isQuote c' = true → c' = c) := by
  cases h with
  | refl => exact ⟨c, rfl, hc, fun _ => rfl⟩
  | @content _ c' quote escape => exact ⟨c', rfl, escape, by simp [quote]⟩

/-- The delimiter does not stand at the start of exchanged text if it did not before. -/
theorem not_delimiter_of_alike {d : Delimiter} (hd : isQuote d.mark = true) {c c' : Char}
    {rest : List Char} {ls : List Lexeme} (hne : ¬ d.text <+: c :: rest)
    (hc : isQuote c' = true → c' = c) (h : List.Forall₂ Alike (lexemes (some d) rest) ls) :
    ¬ d.text <+: c' :: ls.flatMap Lexeme.text := by
  rintro ⟨more, hmore⟩
  cases htriple : d.triple with
  | false =>
    simp only [Delimiter.text, htriple, Bool.false_eq_true, ↓reduceIte, List.cons_append,
      List.cons.injEq] at hmore
    have hmark : d.mark = c := hmore.1.trans (hc (hmore.1 ▸ hd))
    simp [Delimiter.text, htriple, hmark] at hne
  | true =>
    simp only [Delimiter.text, htriple, ↓reduceIte, List.cons_append, List.cons.injEq] at hmore
    have hmark : d.mark = c := hmore.1.trans (hc (hmore.1 ▸ hd))
    obtain ⟨after, rfl⟩ := marks_of_alike hd h hmore.2.symm
    simp [Delimiter.text, htriple, hmark] at hne

theorem flatMap_text_eq_nil {ls : List Lexeme} : ls.flatMap Lexeme.text = [] ↔ ls = [] := by
  cases ls <;> simp [Lexeme.text_ne_nil]

theorem lexemes_eq_nil {literal : Option Delimiter} {raw : List Char} :
    lexemes literal raw = [] ↔ raw = [] := by
  rw [← flatMap_text_eq_nil, text_lexemes]

/-- Exchanging hidden text keeps the cut into lexemes. The look ahead for three marks is the only
obstacle: it must not find a delimiter that was none before. -/
theorem lexemes_of_alike {literal : Option Delimiter} {raw : List Char} {ls : List Lexeme}
    (hq : ∀ d ∈ literal, isQuote d.mark = true)
    (h : List.Forall₂ Alike (lexemes literal raw) ls) :
    lexemes literal (ls.flatMap Lexeme.text) = ls := by
  induction literal, raw using lexemes_induction generalizing ls with
  | nil literal =>
    rw [lexemes.eq_1] at h
    cases h
    simp [lexemes.eq_1]
  | escapeEnd d =>
    obtain ⟨_, _, ⟨⟩, ⟨⟩, rfl⟩ := List.forall₂_cons_left_iff.1 h
    rfl
  | escape d taken rest ih =>
    rw [lexemes_escape, List.forall₂_cons_left_iff] at h
    obtain ⟨_, ls, ⟨⟩, tail, rfl⟩ := h
    simp [Lexeme.text, lexemes_escape, ih hq tail]
  | closing d rest hd ih =>
    rw [lexemes_closing hd, List.forall₂_cons_left_iff] at h
    obtain ⟨_, ls, ⟨⟩, tail, rfl⟩ := h
    simp [Lexeme.text, lexemes_closing hd, ih (by simp) tail]
  | content d c rest hc hne ih =>
    rw [lexemes_content hc hne, List.forall₂_cons_left_iff] at h
    obtain ⟨l, ls, head, tail, rfl⟩ := h
    obtain ⟨c', rfl, hslash, hquote⟩ := head.of_content hc
    have hne' := not_delimiter_of_alike (hq d rfl) hne hquote tail
    simp [Lexeme.text, lexemes_content hslash hne', ih hq tail]
  | comment text =>
    rw [lexemes_comment, List.forall₂_cons_left_iff] at h
    obtain ⟨_, _, head, ⟨⟩, rfl⟩ := h
    cases head <;> simp [Lexeme.text, lexemes_comment]
  | openTriple c rest hc ih =>
    rw [lexemes_opening_triple hc, List.forall₂_cons_left_iff] at h
    obtain ⟨_, ls, ⟨⟩, tail, rfl⟩ := h
    simp [Lexeme.text, Delimiter.text, lexemes_opening_triple hc, ih (by simpa using hc) tail]
  | openSingle c rest hc hne ih =>
    rw [lexemes_opening_single hc hne, List.forall₂_cons_left_iff] at h
    obtain ⟨_, ls, ⟨⟩, tail, rfl⟩ := h
    have hne' : ¬ [c, c] <+: ls.flatMap Lexeme.text := by
      rintro ⟨more, hmore⟩
      exact hne (marks_of_alike (d := ⟨c, false⟩) hc tail hmore.symm)
    simp [Lexeme.text, Delimiter.text, lexemes_opening_single hc hne', ih (by simpa using hc) tail]
  | join =>
    obtain ⟨_, _, ⟨⟩, ⟨⟩, rfl⟩ := List.forall₂_cons_left_iff.1 h
    rfl
  | plain c rest hhash hc hjoin ih =>
    rw [lexemes_plain hhash hc hjoin, List.forall₂_cons_left_iff] at h
    obtain ⟨_, ls, ⟨⟩, tail, rfl⟩ := h
    have hjoin' : ¬ (c = '\\' ∧ ls.flatMap Lexeme.text = []) := by
      rintro ⟨hslash, hnil⟩
      rw [flatMap_text_eq_nil.1 hnil, List.forall₂_nil_right_iff, lexemes_eq_nil] at tail
      exact hjoin ⟨hslash, tail⟩
    simp [Lexeme.text, lexemes_plain hhash hc hjoin', ih (by simp) tail]

/-- What masking makes of a line, its comment left out. -/
def ScannedLine.uncommented (scanned : ScannedLine) : ScannedLine :=
  { scanned with comment := none }

theorem map_uncommented_emit (code : List Char) (result : Except Fault ScannedLine) :
    (emit code result).map ScannedLine.uncommented =
      emit code (result.map ScannedLine.uncommented) := by
  cases result <;> rfl

/-- Exchanging hidden text changes nothing that masking makes of a line, but its comment. -/
theorem interpret_of_alike (number : Nat) {ls ls' : List Lexeme} (h : List.Forall₂ Alike ls ls')
    (string : Option OpenString) (brackets : List OpenBracket) :
    (interpret number string brackets ls').map ScannedLine.uncommented =
      (interpret number string brackets ls).map ScannedLine.uncommented := by
  induction h generalizing string brackets with
  | nil => rfl
  | @cons l _ ls ls' head tail ih =>
    cases head with
    | refl =>
      cases l with
      | plain c =>
        unfold interpret
        split
        · rw [map_uncommented_emit, map_uncommented_emit, ih]
        · split
          · split
            · rw [map_uncommented_emit, map_uncommented_emit, ih]
            · rfl
          · rfl
        · rw [map_uncommented_emit, map_uncommented_emit, ih]
      | opening d | closing d =>
        simp only [interpret, map_uncommented_emit, ih]
      | content c => simp only [interpret, ih]
      | escape taken =>
        cases taken with
        | none => rfl
        | some c => simp only [interpret, ih]
      | comment text => rfl
      | join => rfl
    | content c quote escape => simp only [interpret, ih]
    | comment text text' => rfl

end CodeGrade
