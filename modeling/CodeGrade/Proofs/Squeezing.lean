import CodeGrade.Proofs.Cutting
import CodeGrade.Proofs.Nesting

/-!
# Runs of blanks

Each run of blanks in a text is squeezed into one. What is read from the code of a statement, the
keyword, the colon of the header, the name of what it defines and the words in it, is read from the
squeezed code as well; only the texts of parameters may differ. So statements whose code is the same
when it is squeezed are nested alike.

## Main definitions

* `Text.squeeze`: a text with one blank for each run of blanks.
* `Text.Respaced`: texts that stand for one another when runs of blanks do not matter.
* `Statement.squeezed`: a statement with squeezed code.
-/

namespace CodeGrade

namespace Text

/-- The text with one blank for each run of blanks. `inGap` tells that a blank stands before the
text, so that blanks at its start belong to a run that has begun. -/
def squeezeFrom (inGap : Bool) : List Char → List Char
  | [] => []
  | c :: rest =>
    if isBlank c then
      if inGap then squeezeFrom true rest else ' ' :: squeezeFrom true rest
    else c :: squeezeFrom false rest

/-- The text with one blank for each run of blanks. -/
def squeeze (text : List Char) : List Char := squeezeFrom false text

section Squeeze

variable {c : Char} {p : Char → Bool} {text rest : List Char}

theorem squeezeFrom_blank (hc : isBlank c = true) (inGap : Bool) (rest : List Char) :
    squeezeFrom inGap (c :: rest) = (if inGap then [] else [' ']) ++ squeezeFrom true rest := by
  cases inGap <;> simp [squeezeFrom, hc]

theorem squeezeFrom_visible (hc : isBlank c = false) (inGap : Bool) (rest : List Char) :
    squeezeFrom inGap (c :: rest) = c :: squeeze rest := by
  simp [squeezeFrom, hc, squeeze]

theorem squeeze_blank (hc : isBlank c = true) (rest : List Char) :
    squeeze (c :: rest) = ' ' :: squeezeFrom true rest := squeezeFrom_blank hc false rest

theorem squeeze_visible (hc : isBlank c = false) (rest : List Char) :
    squeeze (c :: rest) = c :: squeeze rest := squeezeFrom_visible hc false rest

/-- A run of blanks is squeezed into one, whatever it is. -/
theorem squeezeFrom_gap {gap : List Char} (h : IsGap gap) (inGap : Bool) (rest : List Char) :
    squeezeFrom inGap (gap ++ rest) = (if inGap then [] else [' ']) ++ squeezeFrom true rest := by
  obtain ⟨hne, hblank⟩ := h
  induction gap generalizing inGap with
  | nil => exact absurd rfl hne
  | cons c gap ih =>
    rw [allBlank, List.all_cons, Bool.and_eq_true] at hblank
    rw [List.cons_append, squeezeFrom_blank hblank.1]
    cases gap with
    | nil => rfl
    | cons c' gap => rw [ih true (by simp) hblank.2, if_pos rfl, List.nil_append]

/-- The texts stand for one another in front of any text, when runs of blanks do not matter. -/
def Respaced (a b : List Char) : Prop :=
  ∀ inGap rest, squeezeFrom inGap (a ++ rest) = squeezeFrom inGap (b ++ rest)

theorem Respaced.refl (a : List Char) : Respaced a a := fun _ _ => rfl

theorem Respaced.symm {a b : List Char} (h : Respaced a b) : Respaced b a :=
  fun inGap rest => (h inGap rest).symm

theorem Respaced.trans {a b c : List Char} (h : Respaced a b) (h' : Respaced b c) :
    Respaced a c := fun inGap rest => (h inGap rest).trans (h' inGap rest)

theorem Respaced.squeeze_eq {a b : List Char} (h : Respaced a b) : squeeze a = squeeze b := by
  simpa [squeeze] using h false []

theorem Respaced.append {a b : List Char} (h : Respaced a b) (rest : List Char) :
    Respaced (a ++ rest) (b ++ rest) := fun inGap more => by
  simpa using h inGap (rest ++ more)

theorem Respaced.append_left {a b : List Char} (h : Respaced a b) (left : List Char) :
    Respaced (left ++ a) (left ++ b) := by
  induction left with
  | nil => exact h
  | cons c left ih =>
    intro inGap rest
    cases hc : isBlank c with
    | true => simp only [List.cons_append, squeezeFrom_blank hc, ih true rest]
    | false => simp only [List.cons_append, squeezeFrom_visible hc, squeeze, ih false rest]

theorem respaced_gap {gap gap' : List Char} (h : IsGap gap) (h' : IsGap gap') :
    Respaced gap gap' := fun inGap rest => by
  rw [squeezeFrom_gap h, squeezeFrom_gap h']

/-! ### Readers -/

theorem takeWhile_squeeze (hp : ∀ c, isBlank c = true → p c = false) (text : List Char) :
    (squeeze text).takeWhile p = text.takeWhile p := by
  induction text with
  | nil => rfl
  | cons c rest ih =>
    cases hc : isBlank c with
    | true => simp [squeeze_blank hc, hp ' ' rfl, hp c hc]
    | false => rw [squeeze_visible hc, List.takeWhile_cons, List.takeWhile_cons, ih]

theorem dropWhile_squeeze (hp : ∀ c, isBlank c = true → p c = false) (text : List Char) :
    (squeeze text).dropWhile p = squeeze (text.dropWhile p) := by
  induction text with
  | nil => rfl
  | cons c rest ih =>
    cases hc : isBlank c with
    | true => simp [squeeze_blank hc, hp ' ' rfl, hp c hc]
    | false =>
      rw [squeeze_visible hc, List.dropWhile_cons, List.dropWhile_cons]
      split
      · exact ih
      · rw [squeeze_visible hc]

theorem wordAt_squeeze (text : List Char) :
    wordAt (squeeze text) = ((wordAt text).1, squeeze (wordAt text).2) := by
  rw [wordAt, takeWhile_squeeze fun _ => isWordChar_of_isBlank,
    dropWhile_squeeze fun _ => isWordChar_of_isBlank]
  rfl

theorem trimStart_squeezeFrom (inGap : Bool) (text : List Char) :
    trimStart (squeezeFrom inGap text) = squeeze (trimStart text) := by
  induction text generalizing inGap with
  | nil => rfl
  | cons c rest ih =>
    cases hc : isBlank c with
    | true =>
      have hblank : trimStart (c :: rest) = trimStart rest := by simp [trimStart, hc]
      have hspace (text : List Char) : trimStart (' ' :: text) = trimStart text := rfl
      rw [squeezeFrom_blank hc, hblank, ← ih true]
      cases inGap with
      | true => rfl
      | false => exact hspace _
    | false =>
      have hvisible (rest : List Char) : trimStart (c :: rest) = c :: rest := by
        simp [trimStart, hc]
      rw [squeezeFrom_visible hc, hvisible, hvisible, squeeze_visible hc]

theorem trimStart_squeeze (text : List Char) :
    trimStart (squeeze text) = squeeze (trimStart text) :=
  trimStart_squeezeFrom false text

theorem any_head?_squeeze (text : List Char) :
    (squeeze text).head?.any isBlank = text.head?.any isBlank := by
  cases text with
  | nil => rfl
  | cons c rest =>
    cases hc : isBlank c with
    | true =>
      have hspace : isBlank ' ' = true := rfl
      simp [squeeze_blank hc, hc, hspace]
    | false => simp [squeeze_visible hc, hc]

/-- A character that is no blank stands first in the squeezed text if it does so in the text. -/
theorem head?_squeeze (hc : isBlank c = false) (text : List Char) :
    (squeeze text).head? = some c ↔ text.head? = some c := by
  cases text with
  | nil => rfl
  | cons first rest =>
    cases hfirst : isBlank first with
    | true =>
      have hne (blank : Char) (h : isBlank blank = true) : blank ≠ c := by
        rintro rfl
        simp [h] at hc
      simp [squeeze_blank hfirst, hne ' ' rfl, hne first hfirst]
    | false => simp [squeeze_visible hfirst]

theorem after?_squeeze {literal : List Char} (h : literal.all (!isBlank ·) = true)
    (text : List Char) : after? literal (squeeze text) = (after? literal text).map squeeze := by
  induction literal generalizing text with
  | nil => rfl
  | cons l literal ih =>
    rw [List.all_cons, Bool.and_eq_true, Bool.not_eq_true'] at h
    cases text with
    | nil => rfl
    | cons c rest =>
      cases hc : isBlank c with
      | true =>
        have hne (blank : Char) (hblank : isBlank blank = true) : l ≠ blank := by
          rintro rfl
          simp [hblank] at h
        simp [squeeze_blank hc, after?, hne ' ' rfl, hne c hc]
      | false =>
        rw [squeeze_visible hc, after?, after?, ih h.2]
        split <;> rfl

/-- The text from the first of a mark on. -/
theorem dropWhile_ne_squeezeFrom {mark : Char} (hmark : isBlank mark = false) (inGap : Bool)
    (text : List Char) :
    (squeezeFrom inGap text).dropWhile (· ≠ mark) = squeeze (text.dropWhile (· ≠ mark)) := by
  induction text generalizing inGap with
  | nil => rfl
  | cons c rest ih =>
    cases hc : isBlank c with
    | true =>
      have hne (blank : Char) (hblank : isBlank blank = true) : blank ≠ mark := by
        rintro rfl
        simp [hblank] at hmark
      have hdrop (blank : Char) (hblank : isBlank blank = true) (rest : List Char) :
          (blank :: rest).dropWhile (· ≠ mark) = rest.dropWhile (· ≠ mark) :=
        List.dropWhile_cons_of_pos (decide_eq_true (hne blank hblank))
      rw [squeezeFrom_blank hc, hdrop c hc, ← ih true]
      cases inGap with
      | true => rfl
      | false => exact hdrop ' ' rfl _
    | false =>
      rw [squeezeFrom_visible hc, List.dropWhile_cons, List.dropWhile_cons]
      split
      · exact ih false
      · rw [squeeze_visible hc]

theorem allBlank_squeezeFrom (inGap : Bool) (text : List Char) :
    allBlank (squeezeFrom inGap text) = allBlank text := by
  induction text generalizing inGap with
  | nil => rfl
  | cons c rest ih =>
    have hspace : isBlank ' ' = true := rfl
    have hrest := ih true
    simp only [allBlank] at hrest
    cases hc : isBlank c with
    | true => cases inGap <;> simp [squeezeFrom_blank hc, allBlank, hrest, hc, hspace]
    | false => simp [squeezeFrom_visible hc, allBlank, hc]

/-- A word ends at the first blank after it, so it makes no difference how many follow. -/
theorem collectWords_squeezeFrom (text : List Char) :
    (∀ current, collectWords current (squeeze text) = collectWords current text) ∧
      collectWords [] (squeezeFrom true text) = collectWords [] text := by
  induction text with
  | nil => exact ⟨fun _ => rfl, rfl⟩
  | cons c rest ih =>
    cases hc : isBlank c with
    | true =>
      have hword := isWordChar_of_isBlank hc
      have hspace : isWordChar ' ' = false := rfl
      refine ⟨fun current => ?_, ?_⟩
      · simp [squeeze_blank hc, collectWords, hword, hspace, ih.2]
      · simp [squeezeFrom_blank hc, collectWords, hword, ih.2]
    | false =>
      refine ⟨fun current => ?_, ?_⟩
      · simp only [squeeze_visible hc, collectWords, ih.1]
      · simp only [squeezeFrom_visible hc, collectWords, ih.1]

theorem words_squeeze (text : List Char) : words (squeeze text) = words text :=
  (collectWords_squeezeFrom text).1 []

end Squeeze

end Text

/-! ### Headers -/

open Text (squeeze squeezeFrom IsGap)

theorem Keyword.read?_squeeze (code : List Char) :
    Keyword.read? (squeeze code) = Keyword.read? code := by
  simp only [Keyword.read?, Text.wordAt_squeeze, Text.any_head?_squeeze, Text.trimStart_squeeze]

theorem afterBlanks?_squeeze (text : List Char) :
    afterBlanks? (squeeze text) = (afterBlanks? text).map squeeze := by
  rw [afterBlanks?, Text.any_head?_squeeze, afterBlanks?, Text.trimStart_squeeze]
  split <;> rfl

theorem nameAt?_squeeze (text : List Char) :
    Text.nameAt? (squeeze text) = (Text.nameAt? text).map (Prod.map id squeeze) := by
  cases text with
  | nil => rfl
  | cons c rest =>
    cases hc : Text.isBlank c with
    | true =>
      have hstart : Text.isNameStart c = false := by
        rw [← Bool.not_eq_true]
        intro hname
        have hword := Text.isWordChar_of_isNameStart hname
        rw [Text.isWordChar_of_isBlank hc] at hword
        cases hword
      rw [Text.squeeze_blank hc, Text.nameAt?, Text.nameAt?, hstart]
      rfl
    | false =>
      have hword := Text.wordAt_squeeze (c :: rest)
      rw [Text.squeeze_visible hc] at hword ⊢
      rw [Text.nameAt?, Text.nameAt?, hword]
      split <;> rfl

theorem afterTypeParameters?_squeeze (text : List Char) :
    afterTypeParameters? (squeeze text) = (afterTypeParameters? text).map squeeze := by
  by_cases hopen : text.head? = some '['
  · obtain ⟨rest, rfl⟩ : ∃ rest, text = '[' :: rest := by
      cases text with
      | nil => simp at hopen
      | cons c rest => exact ⟨rest, by simpa using hopen⟩
    have hdrop := @Text.dropWhile_ne_squeezeFrom ']' rfl false rest
    rw [Text.squeeze_visible rfl, afterTypeParameters?, afterTypeParameters?, squeeze, hdrop]
    cases hrest : rest.dropWhile (· ≠ ']') with
    | nil => rfl
    | cons c after =>
      obtain ⟨-, -, rfl, -⟩ := dropWhile_bracket_eq_cons.1 hrest
      rw [Text.squeeze_visible rfl]
      exact congrArg some (Text.trimStart_squeeze after)
  · have hnone {text : List Char} (h : text.head? ≠ some '[') :
        afterTypeParameters? text = some text := by
      unfold afterTypeParameters?
      split
      · simp at h
      · rfl
    rw [hnone hopen, hnone (mt (Text.head?_squeeze rfl text).1 hopen)]
    rfl

theorem afterAsync?_squeeze (code : List Char) :
    afterAsync? (squeeze code) = (afterAsync? code).map squeeze := by
  rw [afterAsync?, afterAsync?, Text.afterString?, Text.afterString?,
    Text.after?_squeeze (by decide)]
  cases Text.after? "async".toList code with
  | none => rfl
  | some rest => exact afterBlanks?_squeeze rest

theorem functionHeader?_squeeze (code : List Char) :
    functionHeader? (squeeze code) = (functionHeader? code).map (Prod.map id squeeze) := by
  have hdef (text : List Char) := @Text.after?_squeeze "def".toList (by decide) text
  have hlist (text : List Char) := @Text.after?_squeeze ['('] (by decide) text
  simp only [functionHeader?_eq, afterAsync?_squeeze, Text.afterString?, Option.bind_map,
    Option.map_bind, hdef, Function.comp_def, afterBlanks?_squeeze, nameAt?_squeeze, Prod.map_fst,
    Prod.map_snd, Text.trimStart_squeeze, afterTypeParameters?_squeeze, hlist]
  rfl

theorem className?_squeeze (code : List Char) : className? (squeeze code) = className? code := by
  have hclass (text : List Char) := @Text.after?_squeeze "class".toList (by decide) text
  simp only [className?, Text.afterString?, Option.bind_eq_bind, hclass, Option.bind_map,
    Function.comp_def, afterBlanks?_squeeze, nameAt?_squeeze]
  rfl

/-- A list has an end or not, whatever the blanks in it. -/
theorem isSome_splitArguments_squeezeFrom (depth : Nat) (current current' : List Char)
    (inGap : Bool) (text : List Char) :
    (splitArguments depth current (squeezeFrom inGap text)).isSome =
      (splitArguments depth current' text).isSome := by
  induction text generalizing depth current current' inGap with
  | nil => rfl
  | cons c rest ih =>
    cases hc : Text.isBlank c with
    | true =>
      have hblank (blank : Char) (h : Text.isBlank blank = true) (current rest : List Char) :
          splitArguments depth current (blank :: rest) =
            splitArguments depth (blank :: current) rest := by
        rw [splitArguments_plain (not_isBracket_of_isBlank h), if_neg]
        rintro ⟨rfl, -⟩
        cases h
      rw [Text.squeezeFrom_blank hc, hblank c hc]
      cases inGap with
      | true => exact ih depth current (c :: current') true
      | false =>
        rw [if_neg (by decide), List.singleton_append, hblank ' ' rfl]
        exact ih depth (' ' :: current) (c :: current') true
    | false =>
      rw [Text.squeezeFrom_visible hc]
      unfold splitArguments
      split
      · exact ih _ _ _ false
      · split
        · cases depth with
          | zero => rfl
          | succ depth => exact ih _ _ _ false
        · split
          · rw [Option.isSome_map, Option.isSome_map]
            exact ih _ _ _ false
          · exact ih _ _ _ false

/-- What follows the first colon outside all brackets that does not begin `:=`; `depth` counts the
brackets open before the text. -/
def afterColonFrom (depth : Int) : List Char → Option (List Char)
  | [] => none
  | c :: rest =>
    if c = ':' ∧ depth = 0 ∧ rest.head? ≠ some '=' then some rest
    else afterColonFrom (depth + bracketDepth [c]) rest

theorem drop_headerColonFrom (depth : Int) (text : List Char) :
    (headerColonFrom depth 0 text).map (fun i => text.drop (i + 1)) =
      afterColonFrom depth text := by
  induction text generalizing depth with
  | nil => rfl
  | cons c rest ih =>
    have hfirst : IsTopColonFrom depth (c :: rest) 0 ↔
        c = ':' ∧ depth = 0 ∧ rest.head? ≠ some '=' := by
      simp [IsTopColonFrom, List.head?_eq_getElem?, and_comm]
    rw [afterColonFrom]
    rcases headerColonFrom_cons depth 0 c rest with ⟨htop, hfound⟩ | ⟨htop, hfound⟩
    · rw [hfound, if_pos (hfirst.1 htop)]
      rfl
    · rw [hfound, if_neg (mt hfirst.2 htop), ← ih, headerColonFrom_add, Option.map_map]
      rfl

theorem afterColonFrom_squeezeFrom (depth : Int) (inGap : Bool) (text : List Char) :
    afterColonFrom depth (squeezeFrom inGap text) = (afterColonFrom depth text).map squeeze := by
  induction text generalizing depth inGap with
  | nil => rfl
  | cons c rest ih =>
    cases hc : Text.isBlank c with
    | true =>
      have hblank (blank : Char) (h : Text.isBlank blank = true) (rest : List Char) :
          afterColonFrom depth (blank :: rest) = afterColonFrom depth rest := by
        have hdepth : bracketDepth [blank] = 0 :=
          bracketDepth_blank (by simpa [Text.allBlank] using h)
        rw [afterColonFrom, if_neg, hdepth, add_zero]
        rintro ⟨rfl, -⟩
        cases h
      rw [Text.squeezeFrom_blank hc, hblank c hc, ← ih depth true]
      cases inGap with
      | true => rfl
      | false => exact hblank ' ' rfl _
    | false =>
      have hequals := Text.head?_squeeze (c := '=') rfl rest
      simp only [Text.squeezeFrom_visible hc, afterColonFrom, ne_eq, hequals]
      split
      · rfl
      · exact ih _ false

theorem afterColonFrom_squeeze (depth : Int) (text : List Char) :
    afterColonFrom depth (squeeze text) = (afterColonFrom depth text).map squeeze :=
  afterColonFrom_squeezeFrom depth false text

/-- The statement with squeezed code, whatever its lines. -/
def Statement.squeezed (statement : Statement) : Statement :=
  ⟨0, 0, statement.indent, squeeze statement.code⟩

/-- The header of a statement with squeezed code. -/
theorem Header.read_squeezed (statement : Statement) :
    (∃ fault fault', Header.read statement = .error fault ∧
        Header.read statement.squeezed = .error fault') ∨
      (Header.read statement = .ok none ∧ Header.read statement.squeezed = .ok none) ∨
      ∃ header header', Header.read statement = .ok (some header) ∧
        Header.read statement.squeezed = .ok (some header') ∧ header'.keyword = header.keyword ∧
        header'.inlineBody.isEmpty = header.inlineBody.isEmpty := by
  have hcolon := afterColonFrom_squeeze 0 statement.code
  rw [← drop_headerColonFrom, ← drop_headerColonFrom, ← headerColon?, ← headerColon?] at hcolon
  rw [Header.read, Header.read, Statement.squeezed, Keyword.read?_squeeze]
  cases Keyword.read? statement.code with
  | none => exact .inr (.inl ⟨rfl, rfl⟩)
  | some keyword =>
    cases hcolon' : headerColon? statement.code with
    | none =>
      have hnone : headerColon? (squeeze statement.code) = none := by
        simpa [hcolon'] using hcolon
      simp only [hnone]
      split
      · exact .inl ⟨_, _, rfl, rfl⟩
      · exact .inr (.inl ⟨rfl, rfl⟩)
    | some colon =>
      rw [hcolon', Option.map_some, Option.map_some] at hcolon
      obtain ⟨colon', hsome, hdrop⟩ := Option.map_eq_some_iff.1 hcolon
      simp only [hsome]
      refine .inr (.inr ⟨_, _, rfl, rfl, rfl, ?_⟩)
      rw [Bool.eq_iff_iff, List.isEmpty_iff, List.isEmpty_iff, Text.trim_eq_nil, Text.trim_eq_nil,
        hdrop, squeeze, Text.allBlank_squeezeFrom]

/-- The name and the sort of what a header defines. -/
def Signature.named (signature : Signature) : List Char × ElementKind :=
  (signature.name, signature.kind)

theorem Header.signature_squeeze {header header' : Header}
    (hkeyword : header'.keyword = header.keyword) (code : List Char) :
    (header'.signature (squeeze code)).map Signature.named =
      (header.signature code).map Signature.named := by
  simp only [Header.signature, hkeyword, className?_squeeze, functionHeader?_squeeze]
  generalize (if header.keyword = .classKw then className? code else none) = class?
  cases class? with
  | some name => rfl
  | none =>
    cases functionHeader? code with
    | none => rfl
    | some definition =>
      have hsome := isSome_splitArguments_squeezeFrom 0 [] [] false definition.2
      rw [← squeeze] at hsome
      simp only [Option.map_some, Prod.map_snd, Prod.map_fst]
      cases hlist : splitArguments 0 [] definition.2 with
      | none =>
        rw [hlist, Option.isSome_none, Option.isSome_eq_false_iff,
          Option.isNone_iff_eq_none] at hsome
        simp only [hsome]
      | some parts =>
        obtain ⟨parts', hlist'⟩ := Option.isSome_iff_exists.1 (hsome.trans (hlist ▸ rfl))
        simp only [hlist']
        rfl

namespace Statement

variable (statement : Statement)

theorem keyword?_squeezed : statement.squeezed.keyword? = statement.keyword? := by
  rcases Header.read_squeezed statement with
    ⟨fault, fault', h, h'⟩ | ⟨h, h'⟩ | ⟨header, header', h, h', hkeyword, -⟩
  · simp [keyword?, h, h']
  · simp [keyword?, h, h']
  · simp [keyword?, h, h', hkeyword]

theorem opensBlock_squeezed : statement.squeezed.opensBlock = statement.opensBlock := by
  rcases Header.read_squeezed statement with
    ⟨fault, fault', h, h'⟩ | ⟨h, h'⟩ | ⟨header, header', h, h', -, hbody⟩
  · simp [opensBlock, h, h']
  · simp [opensBlock, h, h']
  · simp [opensBlock, h, h', hbody]

/-- The name of what a statement defines, or that it is no definition, is read from the squeezed
code as well. -/
theorem definition_squeezed :
    (statement.squeezed.fault? = none ↔ statement.fault? = none) ∧
      statement.squeezed.signature?.map Signature.named =
        statement.signature?.map Signature.named := by
  rcases Header.read_squeezed statement with
    ⟨fault, fault', h, h'⟩ | ⟨h, h'⟩ | ⟨header, header', h, h', hkeyword, hbody⟩
  · simp [fault?, signature?, h, h']
  · simp [fault?, signature?, definitionFault?, h, h']
  · cases hdefinition : header.keyword.isDefinition with
    | false =>
      have hdefinition' : header'.keyword.isDefinition = false := hkeyword ▸ hdefinition
      simp [fault?, signature?, definitionFault?, h, h', Option.filter, hdefinition, hdefinition']
    | true =>
      have hdefinition' : header'.keyword.isDefinition = true := hkeyword ▸ hdefinition
      have hnamed := Header.signature_squeeze hkeyword statement.code
      cases hsignature : header.signature statement.code with
      | error cause =>
        cases hsignature' : header'.signature (squeeze statement.code) with
        | ok signature' => simp [hsignature, hsignature', Except.map] at hnamed
        | error cause' =>
          have hsignature' : header'.signature statement.squeezed.code = .error cause' :=
            hsignature'
          simp [fault?_of_read h hdefinition hsignature, fault?_of_read h' hdefinition' hsignature',
            signature?, h, h', Option.filter, hdefinition, hdefinition', hsignature, hsignature',
            Except.toOption]
      | ok signature =>
        rw [hsignature] at hnamed
        obtain ⟨signature', hsignature', hnamed⟩ := ok_map_iff.1 hnamed
        have hread := signature?_of_read h hdefinition hsignature
        have hread' := signature?_of_read h' hdefinition' hsignature'
        simp [hread, hread', hnamed]

theorem alike_of_squeezed {statement other : Statement}
    (h : other.squeezed = statement.squeezed) : statement.Alike other where
  indent := (congrArg Statement.indent h : other.squeezed.indent = statement.squeezed.indent)
  keyword := by rw [← keyword?_squeezed, h, keyword?_squeezed]
  opensBlock := by rw [← opensBlock_squeezed, h, opensBlock_squeezed]
  fault hfault := by
    rw [← other.definition_squeezed.1, h]
    exact statement.definition_squeezed.1.2 hfault

end Statement

end CodeGrade
