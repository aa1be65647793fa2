import CodeGrade.Proofs.Brackets
import CodeGrade.Proofs.Masking
import CodeGrade.Proofs.Reading

/-!
# Masking in one pass

Masking goes through a text line by line, and carries over from each line to the next what is open.
It comes to the same as reading the whole text in one pass: masking succeeds if the reader does, no
literal is open at the end and the brackets are properly nested, and a masked line holds those
characters of its line that the reader finds to be code or delimiters.

The two are compared line by line. Brackets do not matter to the reader, so their stack is compared
with the word of brackets that was read so far.

## Main definitions

* `codeOf`, `commentOf`, `bracketsOf`: what masking looks at in a text that was read.
* `cutLines`: the lines of a text that was read.
* `MaskedLine.ofParts`: the masked line of a line that was read.
-/

namespace CodeGrade

/-- The characters whose part is kept. -/
def select (keep : Part → Bool) (parts : List (Char × Part)) : List Char :=
  (parts.filter (keep ·.2)).map (·.1)

/-- Whether masking keeps the character: code and the delimiters of literals. -/
def Part.isVisible (part : Part) : Bool := part = .code || part = .delimiter

/-- The code of a text that was read. -/
def codeOf (parts : List (Char × Part)) : List Char := select Part.isVisible parts

/-- The comment of a line that was read. -/
def commentOf (parts : List (Char × Part)) : Option (List Char) :=
  match select (· = .comment) parts with
  | [] => none
  | text => some text

/-- The brackets in the code of a text that was read. -/
def bracketsOf (parts : List (Char × Part)) : List Char :=
  (select (· = .code) parts).filter isBracket

/-- The lines of a text that was read, each with the line feed at its end. -/
def cutLines : List (Char × Part) → List (List (Char × Part))
  | [] => [[]]
  | p :: rest =>
    if p.1 = '\n' then [p] :: cutLines rest else (cutLines rest).modifyHead (p :: ·)

/-- The masked line of a line that was read, with what was read before it. -/
def MaskedLine.ofParts (number : Nat) (raw : List Char) (before piece : List (Char × Part)) :
    MaskedLine where
  number
  raw
  code := codeOf piece
  comment := commentOf piece
  continues :=
    piece.contains ('\n', .content) || piece.any (·.2 = .join) ||
      (bracketsOf (before ++ piece)).countP isCloser <
        (bracketsOf (before ++ piece)).countP isOpener

/-- The masked lines of lines that were read, with what was read before them. -/
def maskedLines (number : Nat) (before : List (Char × Part)) :
    List (List Char) → List (List (Char × Part)) → List MaskedLine
  | raw :: lines, piece :: pieces =>
    .ofParts number raw before piece :: maskedLines (number + 1) (before ++ piece) lines pieces
  | _, _ => []

theorem select_append (keep : Part → Bool) (a b : List (Char × Part)) :
    select keep (a ++ b) = select keep a ++ select keep b := by
  simp [select]

theorem select_parts (keep : Part → Bool) (d : Delimiter) :
    select keep d.parts = if keep .delimiter then d.text else [] := by
  cases h : keep .delimiter <;> simp [select, Delimiter.parts, List.filter_map, Function.comp_def, h]

/-! ### Scanning a line -/

/-- The scan of a line found what the line comes to. -/
structure ScannedLine.Fits (scanned : ScannedLine) (r : LineReading) : Prop where
  code : scanned.code = codeOf r.parts
  comment : scanned.comment = commentOf r.parts
  literal : scanned.carry.string.map (·.delimiter) = r.mode.literal?
  escaped : scanned.escaped = r.escaped
  joined : scanned.joined = r.parts.any (·.2 = .join)

/-- A scan succeeds if the brackets of the line can be read with the stack, and finds what the line
comes to; it fails otherwise. -/
def LineReading.Matches (r : LineReading) (stack : List Bracket) :
    Except Fault ScannedLine → Prop
  | .ok scanned => scanned.Fits r ∧
      openBrackets stack (select (· = .code) r.parts) =
        some (scanned.carry.brackets.map (·.bracket))
  | .error _ => openBrackets stack (select (· = .code) r.parts) = none

/-- Characters in front of a line, which bring the stack from one to another. -/
theorem LineReading.Matches.put {r : LineReading} {stack stack' : List Bracket}
    {result : Except Fault ScannedLine} {parts : List (Char × Part)} (h : r.Matches stack result)
    (hstack : ∀ text, openBrackets stack' (select (· = .code) parts ++ text) =
      openBrackets stack text)
    (hcomment : select (· = .comment) parts = []) (hjoin : parts.any (·.2 = .join) = false) :
    (r.put parts).Matches stack' (emit (codeOf parts) result) := by
  have hbrackets : openBrackets stack' (select (· = .code) (r.put parts).parts) =
      openBrackets stack (select (· = .code) r.parts) := by
    rw [LineReading.put, select_append, hstack]
  cases result with
  | error fault => exact hbrackets.trans h
  | ok scanned =>
    obtain ⟨hfits, hopen⟩ := h
    refine ⟨⟨?_, ?_, hfits.literal, hfits.escaped, ?_⟩, hbrackets.trans hopen⟩
    · exact (congrArg (codeOf parts ++ ·) hfits.code).trans (select_append _ _ _).symm
    · rw [hfits.comment, LineReading.put, commentOf, commentOf, select_append, hcomment]
      rfl
    · rw [hfits.joined, LineReading.put, List.any_append, hjoin, Bool.false_or]

/-- Scanning a line finds what the line comes to, or a bracket that closes nothing. -/
theorem scanLine_matches (number : Nat) (string : Option OpenString)
    (brackets : List OpenBracket) (raw : List Char) :
    (readLine (string.map (·.delimiter)) raw).Matches (brackets.map (·.bracket))
      (scanLine number string brackets raw) := by
  rw [scanLine_eq_interpret]
  generalize hliteral : string.map (·.delimiter) = literal
  induction literal, raw using lexemes_induction generalizing string brackets with
  | nil literal =>
    rw [lexemes.eq_1, interpret]
    exact ⟨⟨rfl, rfl, by simpa [readLine, lexemes.eq_1] using hliteral, rfl, rfl⟩, rfl⟩
  | escapeEnd d =>
    have hlexemes : lexemes (some d) ['\\'] = [.escape none] := rfl
    rw [hlexemes, interpret]
    exact ⟨⟨rfl, rfl, hliteral, rfl, rfl⟩, rfl⟩
  | escape d taken rest ih =>
    rw [readLine_cons (lexemes_escape d taken rest) rfl (by simp), lexemes_escape, interpret,
      ← emit_nil (interpret _ _ _ _)]
    exact (ih string brackets hliteral).put (fun text => rfl) rfl rfl
  | closing d rest hd ih =>
    rw [readLine_cons (lexemes_closing hd rest) rfl (by simp), lexemes_closing hd, interpret]
    have hcode : codeOf d.parts = d.text := select_parts _ d
    rw [← hcode]
    refine (ih none brackets rfl).put (fun text => ?_) (select_parts _ d) ?_
    · simp [Lexeme.parts, select_parts]
    · simp [Lexeme.parts, Delimiter.parts]
  | content d c rest hc hne ih =>
    rw [readLine_cons (lexemes_content hc hne) rfl (by simp), lexemes_content hc hne, interpret,
      ← emit_nil (interpret _ _ _ _)]
    exact (ih string brackets hliteral).put (fun text => rfl) rfl rfl
  | comment text =>
    have hselect (keep : Part → Bool) : select keep (readLine none ('#' :: text)).parts =
        if keep .comment then '#' :: text else [] := by
      cases hkeep : keep .comment <;>
        simp [readLine, lexemes_comment, Lexeme.parts, select, hkeep, List.filter_map,
          Function.comp_def]
    rw [lexemes_comment, interpret]
    refine ⟨⟨?_, ?_, ?_, ?_, ?_⟩, ?_⟩
    · exact (hselect Part.isVisible).symm
    · rw [commentOf, hselect]
      rfl
    · simp [readLine, lexemes_comment, hliteral, Lexeme.after, Mode.literal?]
    · simp [readLine, lexemes_comment]
    · simp [readLine, lexemes_comment, Lexeme.parts]
    · rw [hselect]
      rfl
  | openTriple c rest hc ih =>
    rw [readLine_cons (lexemes_opening_triple hc rest) rfl (by simp), lexemes_opening_triple hc,
      interpret]
    exact (ih (some ⟨⟨c, true⟩, number⟩) brackets rfl).put (fun text => rfl) rfl rfl
  | openSingle c rest hc hne ih =>
    rw [readLine_cons (lexemes_opening_single hc hne) rfl (by simp),
      lexemes_opening_single hc hne, interpret]
    exact (ih (some ⟨⟨c, false⟩, number⟩) brackets rfl).put (fun text => rfl) rfl rfl
  | join =>
    have hlexemes : lexemes none ['\\'] = [.join] := rfl
    rw [hlexemes, interpret]
    exact ⟨⟨rfl, rfl, hliteral, rfl, rfl⟩, rfl⟩
  | plain c rest hhash hc hjoin ih =>
    rw [readLine_cons (lexemes_plain hhash hc hjoin) rfl (by simp), lexemes_plain hhash hc hjoin,
      interpret]
    -- The one character of code is put on the stack, or taken from it, or left alone.
    have step {stack : List Bracket} {brackets' : List OpenBracket}
        (hstack : ∀ text, openBrackets stack (c :: text) =
          openBrackets (brackets'.map (·.bracket)) text) :
        ((readLine none rest).put (Lexeme.plain c).parts).Matches stack
          (emit [c] (interpret number string brackets' (lexemes none rest))) :=
      (ih string brackets' hliteral).put hstack rfl rfl
    split
    · rename_i bracket _ hopener
      refine step fun text => ?_
      rw [Bracket.ofOpener?_eq_some.1 hopener, openBrackets_opener]
      rfl
    · rename_i bracket hopener hcloser
      obtain rfl := Bracket.ofCloser?_eq_some.1 hcloser
      have hfirst (stack : List Bracket) :
          openBrackets stack (select (· = .code)
            ((readLine none rest).put (Lexeme.plain bracket.closer).parts).parts) =
          openBrackets stack (bracket.closer :: select (· = .code) (readLine none rest).parts) :=
        rfl
      cases brackets with
      | nil => simp [LineReading.Matches, hfirst, openBrackets]
      | cons top outer =>
        by_cases htop : top.bracket = bracket
        · simp only [htop, ↓reduceIte]
          refine step fun text => ?_
          rw [List.map_cons, htop, openBrackets_closer]
        · simp [LineReading.Matches, hfirst, openBrackets, htop]
    · rename_i hopener hcloser
      refine step fun text => openBrackets_cons_of_not_isBracket ?_ text
      simp [isBracket, isOpener, isCloser, hopener, hcloser]

/-! ### Masking a line -/

theorem ScannedLine.Fits.mayEnd_iff {scanned : ScannedLine} {r : LineReading}
    (h : scanned.Fits r) : scanned.MayEnd ↔ r.mayEnd = true := by
  have hliteral := h.literal
  rw [ScannedLine.MayEnd, h.escaped, LineReading.mayEnd]
  cases hstring : scanned.carry.string <;> cases hmode : r.mode <;>
    simp_all [Mode.literal?]

theorem ScannedLine.Fits.isSome_string {scanned : ScannedLine} {r : LineReading}
    (h : scanned.Fits r) : scanned.carry.string.isSome = r.mode.isString := by
  rw [← Option.isSome_map (f := OpenString.delimiter), h.literal]
  cases r.mode <;> rfl

/-- The masked line of a scan, with what was read before the line and with its line end. -/
theorem ScannedLine.Fits.masked_eq {scanned : ScannedLine} {r : LineReading} (h : scanned.Fits r)
    (number : Nat) {raw : List Char} {before ending : List (Char × Part)}
    (hraw : ∀ p ∈ r.parts, p.1 ≠ '\n')
    (hbrackets : openBrackets [] (select (· = .code) (before ++ r.parts)) =
      some (scanned.carry.brackets.map (·.bracket)))
    (hending : ending = [('\n', r.feed)] ∨ ending = [] ∧ r.mode.isString = false) :
    scanned.masked number raw = .ofParts number raw before (r.parts ++ ending) := by
  have hfeed : r.feed = .content ∨ r.feed = .lineEnd := by
    unfold LineReading.feed
    split <;> simp
  -- A line end is neither code nor comment, nor does it join lines.
  have hselect (keep : Part → Bool) (hcontent : keep .content = false)
      (hend : keep .lineEnd = false) : select keep (r.parts ++ ending) = select keep r.parts := by
    rw [select_append]
    rcases hending with rfl | ⟨rfl, -⟩ <;> rcases hfeed with hfeed | hfeed <;>
      simp [select, hfeed, hcontent, hend]
  have hjoin : (r.parts ++ ending).any (·.2 = .join) = r.parts.any (·.2 = .join) := by
    rcases hending with rfl | ⟨rfl, -⟩ <;> rcases hfeed with hfeed | hfeed <;> simp [hfeed]
  have hstring : (r.parts ++ ending).contains ('\n', Part.content) = r.mode.isString := by
    have hnot : ('\n', Part.content) ∉ r.parts := fun hmem => hraw _ hmem rfl
    rcases hending with rfl | ⟨rfl, hmode⟩
    · cases hmode : r.mode.isString <;> simp [hnot, LineReading.feed, hmode]
    · simp [hnot, hmode]
  have hword : bracketsOf (before ++ (r.parts ++ ending)) =
      (select (· = .code) (before ++ r.parts)).filter isBracket := by
    rw [bracketsOf, select_append, hselect _ rfl rfl, ← select_append]
  rw [← openBrackets_filter] at hbrackets
  have hopen : (!scanned.carry.brackets.isEmpty) = decide
      ((bracketsOf (before ++ (r.parts ++ ending))).countP isCloser <
        (bracketsOf (before ++ (r.parts ++ ending))).countP isOpener) := by
    rw [hword, Bool.eq_iff_iff, decide_eq_true_iff, ← openBrackets_ne_nil_iff hbrackets]
    simp
  simp only [ScannedLine.masked, MaskedLine.ofParts, codeOf, commentOf, hjoin, hstring, ← hopen,
    h.isSome_string, h.joined, h.code, h.comment, MaskedLine.mk.injEq, true_and]
  refine ⟨(hselect Part.isVisible rfl rfl).symm, ?_, ?_⟩
  · rw [hselect _ rfl rfl]
  · cases r.mode.isString <;> cases scanned.carry.brackets.isEmpty <;> simp

/-! ### Masking all lines -/

theorem cutLines_line {line : List (Char × Part)} (hline : ∀ p ∈ line, p.1 ≠ '\n') :
    cutLines line = [line] := by
  induction line with
  | nil => rfl
  | cons p line ih =>
    rw [List.forall_mem_cons] at hline
    simp [cutLines, hline.1, ih hline.2]

theorem cutLines_append {line : List (Char × Part)} (hline : ∀ p ∈ line, p.1 ≠ '\n') (part : Part)
    (rest : List (Char × Part)) :
    cutLines (line ++ ('\n', part) :: rest) = (line ++ [('\n', part)]) :: cutLines rest := by
  induction line with
  | nil => simp [cutLines]
  | cons p line ih =>
    rw [List.forall_mem_cons] at hline
    simp [cutLines, hline.1, ih hline.2]

theorem feed_not_mem_readLine {literal : Option Delimiter} {raw : List Char} (hraw : '\n' ∉ raw) :
    ∀ p ∈ (readLine literal raw).parts, p.1 ≠ '\n' := by
  intro p hp hfeed
  have hmem := List.mem_map_of_mem (f := Prod.fst) hp
  rw [map_fst_readLine, hfeed] at hmem
  exact hraw hmem

theorem maskFrom_cons_of_scan {number : Nat} {carry : Carry} {raw : List Char}
    {rest : List (List Char)} {masked : List MaskedLine} {scanned : ScannedLine}
    (hscan : scanLine number carry.string carry.brackets raw = .ok scanned) :
    maskFrom number carry (raw :: rest) = .ok masked ↔
      raw.any isUndecodable = false ∧ scanned.MayEnd ∧
        ∃ lines, maskFrom (number + 1) scanned.carry rest = .ok lines ∧
          masked = scanned.masked number raw :: lines := by
  rw [maskFrom_cons_eq_ok]
  constructor
  · rintro ⟨line, carry', lines, hline, hrest, rfl⟩
    obtain ⟨hdecodable, scanned', hscan', hend, rfl, rfl⟩ := maskLine_eq_ok.1 hline
    obtain rfl := Except.ok.inj (hscan.symm.trans hscan')
    exact ⟨hdecodable, hend, lines, hrest, rfl⟩
  · rintro ⟨hdecodable, hend, lines, hrest, rfl⟩
    exact ⟨_, _, lines, maskLine_eq_ok.2 ⟨hdecodable, scanned, hscan, hend, rfl, rfl⟩, hrest, rfl⟩

theorem prepend_eq_some {parts all : List (Char × Part)}
    {result : Option (List (Char × Part) × Mode)} {mode : Mode}
    (h : prepend parts result = some (all, mode)) :
    ∃ rest, result = some (rest, mode) ∧ all = parts ++ rest := by
  obtain ⟨⟨rest, mode'⟩, hrest, heq⟩ := Option.map_eq_some_iff.1 h
  obtain ⟨rfl, rfl⟩ := Prod.mk.inj heq
  exact ⟨rest, hrest, rfl⟩

/-- What is read of a text starts with what its first line comes to. -/
theorem readLine_prefix_readText {literal : Option Delimiter} {raw : List Char}
    {rest : List (List Char)} {parts : List (Char × Part)} {mode : Mode}
    (hq : ∀ d ∈ literal, isQuote d.mark = true) (hraw : '\n' ∉ raw)
    (h : readText (.within literal) (['\n'].intercalate (raw :: rest)) = some (parts, mode)) :
    (readLine literal raw).parts <+: parts := by
  obtain ⟨tail, htail, htext⟩ : ∃ tail : List Char, tail.head?.all (· = '\n') = true ∧
      ['\n'].intercalate (raw :: rest) = raw ++ tail := by
    cases rest with
    | nil => exact ⟨[], rfl, by simp [List.intercalate]⟩
    | cons next rest =>
      exact ⟨'\n' :: ['\n'].intercalate (next :: rest), rfl, by
        simp [List.intercalate_cons_cons]⟩
  rw [htext, readText_append hq hraw htail] at h
  obtain ⟨more, -, rfl⟩ := prepend_eq_some h
  exact List.prefix_append _ _

/-- What a line comes to after what is open before it. -/
def Carry.read (carry : Carry) (raw : List Char) : LineReading :=
  readLine (carry.string.map (·.delimiter)) raw

/-- Lines can be read in one pass after what was read before them, nothing is open at their end,
and these are their masked lines. -/
def ReadsAs (literal : Option Delimiter) (before : List (Char × Part)) (number : Nat)
    (lines : List (List Char)) (masked : List MaskedLine) : Prop :=
  (∀ raw ∈ lines, raw.any isUndecodable = false) ∧
    ∃ parts mode, readText (.within literal) (['\n'].intercalate lines) = some (parts, mode) ∧
      mode.isString = false ∧
      openBrackets [] (select (· = .code) (before ++ parts)) = some [] ∧
      masked = maskedLines number before lines (cutLines parts)

section maskFrom

variable {raw next : List Char} {rest : List (List Char)} {number : Nat} {carry : Carry}
  {before : List (Char × Part)} {masked : List MaskedLine} {scanned : ScannedLine}

/-- A scan finds what its line comes to, and the brackets that are open in what was read. -/
theorem fits_of_scan
    (hbefore : openBrackets [] (select (· = .code) before) =
      some (carry.brackets.map (·.bracket)))
    (hscan : scanLine number carry.string carry.brackets raw = .ok scanned) :
    scanned.Fits (carry.read raw) ∧
      openBrackets [] (select (· = .code) (before ++ (carry.read raw).parts)) =
        some (scanned.carry.brackets.map (·.bracket)) := by
  have hmatches := scanLine_matches number carry.string carry.brackets raw
  rw [hscan] at hmatches
  refine ⟨hmatches.1, ?_⟩
  rw [select_append, openBrackets_append, hbefore, Option.bind_some]
  exact hmatches.2

theorem maskFrom_nil_iff_readsAs
    (hbefore : openBrackets [] (select (· = .code) before) =
      some (carry.brackets.map (·.bracket))) :
    maskFrom number carry [] = .ok masked ↔
      ReadsAs (carry.string.map (·.delimiter)) before number [] masked := by
  have hempty : ['\n'].intercalate [] = [] := rfl
  rw [maskFrom_nil_eq_ok, Carry.fault?_eq_none, ReadsAs, hempty]
  simp only [readText_nil, Option.some.injEq, Prod.mk.injEq, maskedLines]
  constructor
  · rintro ⟨⟨hstring, hbrackets⟩, rfl⟩
    refine ⟨by simp, [], _, ⟨rfl, rfl⟩, ?_, ?_, rfl⟩
    · rw [hstring]
      rfl
    · rw [List.append_nil, hbefore, hbrackets]
      rfl
  · rintro ⟨-, parts, mode, ⟨rfl, rfl⟩, hmode, hopen, rfl⟩
    rw [List.append_nil, hbefore] at hopen
    cases hstring : carry.string with
    | none => simpa using hopen
    | some literal => simp [hstring, Mode.within, Mode.isString] at hmode

/-- A line with a bracket that closes nothing can neither be masked nor read. -/
theorem maskFrom_iff_readsAs_of_error {fault : Fault} (hraw : '\n' ∉ raw) (hq : carry.Quoted)
    (hbefore : openBrackets [] (select (· = .code) before) =
      some (carry.brackets.map (·.bracket)))
    (hscan : scanLine number carry.string carry.brackets raw = .error fault) :
    maskFrom number carry (raw :: rest) = .ok masked ↔
      ReadsAs (carry.string.map (·.delimiter)) before number (raw :: rest) masked := by
  have hstuck := scanLine_matches number carry.string carry.brackets raw
  rw [hscan] at hstuck
  refine iff_of_false (fun h => ?_) ?_
  · obtain ⟨line, carry', lines, hline, -, -⟩ := maskFrom_cons_eq_ok.1 h
    obtain ⟨-, scanned, hscan', -⟩ := maskLine_eq_ok.1 hline
    simp [hscan] at hscan'
  · rintro ⟨-, parts, mode, hread, -, hclosed, -⟩
    obtain ⟨more, rfl⟩ := readLine_prefix_readText hq.delimiter hraw hread
    rw [select_append, openBrackets_append, hbefore, Option.bind_some, select_append,
      openBrackets_append, hstuck] at hclosed
    simp at hclosed

/-- The last line is masked as it is read. -/
theorem maskFrom_last_iff_readsAs (hraw : '\n' ∉ raw) (hq : carry.Quoted)
    (hbefore : openBrackets [] (select (· = .code) before) =
      some (carry.brackets.map (·.bracket)))
    (hscan : scanLine number carry.string carry.brackets raw = .ok scanned) :
    maskFrom number carry [raw] = .ok masked ↔
      ReadsAs (carry.string.map (·.delimiter)) before number [raw] masked := by
  obtain ⟨hfits, hopen⟩ := fits_of_scan hbefore hscan
  have hfeeds : ∀ p ∈ (carry.read raw).parts, p.1 ≠ '\n' := feed_not_mem_readLine hraw
  have htext : ['\n'].intercalate [raw] = raw := by simp [List.intercalate]
  have hread : readText (.within (carry.string.map (·.delimiter))) raw =
      some ((carry.read raw).parts, (carry.read raw).mode) :=
    readText_lastLine hq.delimiter hraw
  have hline (hmode : (carry.read raw).mode.isString = false) : [scanned.masked number raw] =
      maskedLines number before [raw] (cutLines (carry.read raw).parts) := by
    rw [cutLines_line hfeeds, hfits.masked_eq number hfeeds hopen (.inr ⟨rfl, hmode⟩),
      List.append_nil]
    rfl
  rw [maskFrom_cons_of_scan hscan, ReadsAs, htext, hread]
  simp only [maskFrom_nil_eq_ok, Carry.fault?_eq_none, List.forall_mem_singleton]
  constructor
  · rintro ⟨hdecodable, -, lines, ⟨⟨hstring, hbrackets⟩, rfl⟩, rfl⟩
    have hmode := hfits.isSome_string
    rw [hstring, Option.isSome_none] at hmode
    refine ⟨hdecodable, _, _, rfl, hmode.symm, ?_, hline hmode.symm⟩
    rw [hopen, hbrackets, List.map_nil]
  · rintro ⟨hdecodable, parts, mode, heq, hmode, hclosed, rfl⟩
    obtain ⟨rfl, rfl⟩ := Prod.mk.inj (Option.some.inj heq)
    have hstring := hfits.isSome_string
    rw [hmode, Option.isSome_eq_false_iff, Option.isNone_iff_eq_none] at hstring
    have hbrackets : scanned.carry.brackets = [] := by simpa [hopen] using hclosed
    refine ⟨hdecodable, ?_, [], ⟨⟨hstring, hbrackets⟩, rfl⟩, (hline hmode).symm⟩
    intro literal hliteral
    simp [hstring] at hliteral

/-- A line before others is masked as it is read, if those are. -/
theorem maskFrom_cons_iff_readsAs (hraw : '\n' ∉ raw) (hq : carry.Quoted)
    (hbefore : openBrackets [] (select (· = .code) before) =
      some (carry.brackets.map (·.bracket)))
    (hscan : scanLine number carry.string carry.brackets raw = .ok scanned)
    (ih : ∀ lines, maskFrom (number + 1) scanned.carry (next :: rest) = .ok lines ↔
      ReadsAs (scanned.carry.string.map (·.delimiter))
        (before ++ ((carry.read raw).parts ++ [('\n', (carry.read raw).feed)])) (number + 1)
        (next :: rest) lines) :
    maskFrom number carry (raw :: next :: rest) = .ok masked ↔
      ReadsAs (carry.string.map (·.delimiter)) before number (raw :: next :: rest) masked := by
  obtain ⟨hfits, hopen⟩ := fits_of_scan hbefore hscan
  have hfeeds : ∀ p ∈ (carry.read raw).parts, p.1 ≠ '\n' := feed_not_mem_readLine hraw
  have hline : scanned.masked number raw = .ofParts number raw before
      ((carry.read raw).parts ++ [('\n', (carry.read raw).feed)]) :=
    hfits.masked_eq number hfeeds hopen (.inl rfl)
  have hcut (more : List (Char × Part)) :
      cutLines ((carry.read raw).parts ++ [('\n', (carry.read raw).feed)] ++ more) =
        ((carry.read raw).parts ++ [('\n', (carry.read raw).feed)]) :: cutLines more := by
    rw [List.append_assoc, List.singleton_append, cutLines_append hfeeds]
  have hread : readText (.within (carry.string.map (·.delimiter)))
      (['\n'].intercalate (raw :: next :: rest)) = if (carry.read raw).mayEnd then
        prepend ((carry.read raw).parts ++ [('\n', (carry.read raw).feed)])
          (readText (.within (carry.read raw).mode.literal?) (['\n'].intercalate (next :: rest)))
      else none := by
    rw [List.intercalate_cons_cons, List.append_assoc, List.singleton_append]
    exact readText_line hq.delimiter hraw _
  rw [maskFrom_cons_of_scan hscan, hfits.mayEnd_iff, ReadsAs, List.forall_mem_cons, hread]
  cases hend : (carry.read raw).mayEnd with
  | false => simp
  | true =>
    rw [hfits.literal] at ih
    simp only [↓reduceIte, true_and]
    constructor
    · rintro ⟨hdecodable, lines, hrest, rfl⟩
      obtain ⟨hdecodables, parts, mode, hparts, hmode, hclosed, rfl⟩ := (ih lines).1 hrest
      refine ⟨⟨hdecodable, hdecodables⟩, _, mode, by rw [hparts, prepend_some], hmode, ?_, ?_⟩
      · rwa [← List.append_assoc]
      · rw [hcut, maskedLines, hline]
    · rintro ⟨⟨hdecodable, hdecodables⟩, parts, mode, hparts, hmode, hclosed, rfl⟩
      obtain ⟨more, hmore, rfl⟩ := prepend_eq_some hparts
      rw [← List.append_assoc] at hclosed
      refine ⟨hdecodable, _, (ih _).2 ⟨hdecodables, more, mode, hmore, hmode, hclosed, rfl⟩, ?_⟩
      rw [hcut, maskedLines, hline]

/-- Masking lines comes to the same as reading them in one pass. The brackets that are open are
those of what was read before. -/
theorem maskFrom_iff_readsAs {lines : List (List Char)} (hlines : ∀ raw ∈ lines, '\n' ∉ raw)
    (hq : carry.Quoted)
    (hbefore : openBrackets [] (select (· = .code) before) =
      some (carry.brackets.map (·.bracket))) :
    maskFrom number carry lines = .ok masked ↔
      ReadsAs (carry.string.map (·.delimiter)) before number lines masked := by
  induction lines generalizing number carry before masked with
  | nil => exact maskFrom_nil_iff_readsAs hbefore
  | cons raw rest ih =>
    rw [List.forall_mem_cons] at hlines
    cases hscan : scanLine number carry.string carry.brackets raw with
    | error fault => exact maskFrom_iff_readsAs_of_error hlines.1 hq hbefore hscan
    | ok scanned =>
      cases rest with
      | nil => exact maskFrom_last_iff_readsAs hlines.1 hq hbefore hscan
      | cons next rest =>
        refine maskFrom_cons_iff_readsAs hlines.1 hq hbefore hscan fun lines => ?_
        refine ih hlines.2 (hq.scan hscan) ?_
        -- The line's end holds no bracket.
        have hfeed : select (· = .code) [('\n', (carry.read raw).feed)] = [] := by
          unfold LineReading.feed
          split <;> rfl
        rw [← List.append_assoc, select_append, hfeed, List.append_nil]
        exact (fits_of_scan hbefore hscan).2

end maskFrom

/-! ### The lines of a text -/

/-- The reader says something about each character of a text, in order. -/
theorem map_fst_readText {mode mode' : Mode} {text : List Char} {parts : List (Char × Part)}
    (h : readText mode text = some (parts, mode')) : parts.map (·.1) = text := by
  fun_induction readText mode text generalizing parts <;>
    grind [prepend_eq_some, Delimiter.parts, Delimiter.text]

/-- The lines of a text that was read are the lines of the text. -/
theorem map_cutLines (parts : List (Char × Part)) :
    (cutLines parts).map (fun piece => (piece.map (·.1)).filter (· ≠ '\n')) =
      (parts.map (·.1)).splitOn '\n' := by
  induction parts with
  | nil => rfl
  | cons p rest ih =>
    rw [List.map_cons, List.splitOn, List.splitOnP_cons_eq_if_modifyHead, ← List.splitOn, ← ih]
    by_cases hfeed : p.1 = '\n'
    · simp [cutLines, hfeed]
    · cases hrest : cutLines rest <;> simp [cutLines, hfeed, hrest]

theorem getElem?_maskedLines {number : Nat} {before : List (Char × Part)}
    {lines : List (List Char)} {pieces : List (List (Char × Part))} {i : Nat} {raw : List Char}
    {piece : List (Char × Part)} (hraw : lines[i]? = some raw) (hpiece : pieces[i]? = some piece) :
    (maskedLines number before lines pieces)[i]? =
      some (.ofParts (number + i) raw (before ++ (pieces.take i).flatten) piece) := by
  induction lines generalizing number before pieces i with
  | nil => simp at hraw
  | cons first lines ih =>
    cases pieces with
    | nil => simp at hpiece
    | cons head pieces =>
      cases i with
      | zero => simp_all [maskedLines]
      | succ i =>
        have hnumber : number + 1 + i = number + (i + 1) := by omega
        rw [maskedLines, List.getElem?_cons_succ, ih (by simpa using hraw) (by simpa using hpiece),
          hnumber]
        simp

/-- The masked line of line `i` of a text is what was read of the line: its number and the line as
it stands, the characters that are code or delimiters, and the comment. It continues if the line
feed after it stands in a literal, if it ends in the backslash that joins the next line, or if more
brackets were opened than closed up to its end. -/
structure MaskedLine.Holds (line : MaskedLine) (parts : List (Char × Part)) (i : Nat)
    (raw : List Char) (piece : List (Char × Part)) : Prop where
  cut : (cutLines parts)[i]? = some piece
  text : (piece.map (·.1)).filter (· ≠ '\n') = raw
  number : line.number = i + 1
  raw : line.raw = raw
  code : line.code = codeOf piece
  comment : line.comment = commentOf piece
  continues : line.continues = true ↔
    ('\n', .content) ∈ piece ∨ (∃ c, (c, .join) ∈ piece) ∨
      (bracketsOf ((cutLines parts).take (i + 1)).flatten).countP isCloser <
        (bracketsOf ((cutLines parts).take (i + 1)).flatten).countP isOpener

theorem mask_iff_readsAs {unit : SourceUnit} (hlines : ∀ raw ∈ unit.lines, '\n' ∉ raw)
    {masked : List MaskedLine} :
    mask unit = .ok masked ↔ ReadsAs none [] 1 unit.lines masked :=
  maskFrom_iff_readsAs hlines Carry.quoted_empty rfl

/-- The masked lines of a text hold what was read of its lines. -/
theorem holds_of_readsAs {lines : List (List Char)} (hlines : ∀ raw ∈ lines, '\n' ∉ raw)
    {parts : List (Char × Part)} {mode : Mode}
    (hread : readText .code (['\n'].intercalate lines) = some (parts, mode)) {i : Nat}
    {raw : List Char} (hraw : lines[i]? = some raw) :
    ∃ line piece, (maskedLines 1 [] lines (cutLines parts))[i]? = some line ∧
      line.Holds parts i raw piece := by
  have hne : lines ≠ [] := by
    rintro rfl
    simp at hraw
  have htexts := map_cutLines parts
  rw [map_fst_readText hread, List.splitOn_intercalate _ hlines hne] at htexts
  have hpiece := hraw
  rw [← htexts, List.getElem?_map, Option.map_eq_some_iff] at hpiece
  obtain ⟨piece, hpiece, htext⟩ := hpiece
  have hbefore : ((cutLines parts).take i).flatten ++ piece =
      ((cutLines parts).take (i + 1)).flatten := by
    rw [List.take_add_one, hpiece]
    simp
  refine ⟨_, piece, getElem?_maskedLines hraw hpiece, hpiece, htext, Nat.add_comm 1 i, rfl, rfl,
    rfl, ?_⟩
  rw [← hbefore]
  simp [MaskedLine.ofParts, or_assoc]

/-- Masking line by line agrees with reading in one pass: it succeeds if and only if no character is
undecodable, no line ends inside a literal in single marks, the text does not end inside a literal
and the brackets of its code are properly nested; and then there is one masked line for each line,
with what was read of it. -/
theorem mask_agrees_with_readText {unit : SourceUnit} (hlines : ∀ raw ∈ unit.lines, '\n' ∉ raw) :
    ((∃ masked, mask unit = .ok masked) ↔
      (∀ raw ∈ unit.lines, ∀ c ∈ raw, isUndecodable c = false) ∧
        ∃ parts mode, readText .code (['\n'].intercalate unit.lines) = some (parts, mode) ∧
          mode.isString = false ∧ ProperlyNested (bracketsOf parts)) ∧
    ∀ masked, mask unit = .ok masked →
      masked.length = unit.lines.length ∧
        ∃ parts mode, readText .code (['\n'].intercalate unit.lines) = some (parts, mode) ∧
          ∀ (i : Nat) (raw : List Char), unit.lines[i]? = some raw →
            ∃ (line : MaskedLine) (piece : List (Char × Part)),
              masked[i]? = some line ∧ line.Holds parts i raw piece := by
  refine ⟨?_, fun masked hmask => ?_⟩
  · simp only [mask_iff_readsAs hlines, ReadsAs, List.nil_append, bracketsOf, properlyNested_iff,
      List.any_eq_false, Bool.not_eq_true]
    constructor
    · rintro ⟨masked, hdecodable, parts, mode, hread, hmode, hclosed, -⟩
      exact ⟨hdecodable, parts, mode, hread, hmode, hclosed⟩
    · rintro ⟨hdecodable, parts, mode, hread, hmode, hclosed⟩
      exact ⟨_, hdecodable, parts, mode, hread, hmode, hclosed, rfl⟩
  · have hlength := congrArg List.length (raw_maskFrom hmask)
    obtain ⟨-, parts, mode, hread, -, -, rfl⟩ := (mask_iff_readsAs hlines).1 hmask
    refine ⟨by simpa using hlength, parts, mode, hread, fun i raw hraw => ?_⟩
    exact holds_of_readsAs hlines hread hraw

/-- A call over three lines: a literal whose first line's end is escaped, and one in three marks that
holds what looks like a comment; then a joined line. -/
def literalsOverLines : SourceUnit where
  name := "literals"
  lines := ["f('a\\".toList, "b', \"\"\"(".toList, "#\"\"\") # c".toList, "y \\".toList,
    "+ 1".toList]

theorem literalsOverLines_readText :
    (∀ raw ∈ literalsOverLines.lines, '\n' ∉ raw) ∧
      ∃ masked parts mode, mask literalsOverLines = .ok masked ∧
        masked.map (fun line => (String.ofList line.code, line.continues)) =
          [("f('", true), ("', \"\"\"", true), ("\"\"\") ", false), ("y ", true), ("+ 1", false)] ∧
        readText .code (['\n'].intercalate literalsOverLines.lines) = some (parts, mode) ∧
        ∀ (i : Nat) (raw : List Char), literalsOverLines.lines[i]? = some raw →
          ∃ (line : MaskedLine) (piece : List (Char × Part)),
            masked[i]? = some line ∧ line.Holds parts i raw piece := by
  have hlines : ∀ raw ∈ literalsOverLines.lines, '\n' ∉ raw := by decide +kernel
  have hmask : (mask literalsOverLines).map
      (·.map fun line => (String.ofList line.code, line.continues)) =
      .ok [("f('", true), ("', \"\"\"", true), ("\"\"\") ", false), ("y ", true), ("+ 1", false)] := by
    decide +kernel
  obtain ⟨masked, hmask, hcode⟩ := ok_map_iff.1 hmask
  obtain ⟨-, parts, mode, hread, hholds⟩ := (mask_agrees_with_readText hlines).2 masked hmask
  exact ⟨hlines, masked, parts, mode, hmask, hcode, hread, hholds⟩

end CodeGrade
