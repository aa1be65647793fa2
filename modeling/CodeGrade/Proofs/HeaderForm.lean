import CodeGrade.Source.Parameter
import Mathlib

/-!
# The form of a header

What the header of a compound statement looks like, said without the readers that look for it: which
keyword the code starts with, where its colon stands, and how a definition goes on up to its
parameter list. Each reader finds what it looks for exactly if the code has the form.

## Main definitions

* `Keyword.Opens`: the code starts with a keyword.
* `IsTopColon`: a place of the code is a colon that can end a header.
* `FunctionForm`, `ClassForm`: the code starts like the definition of a function or of a class.
-/

namespace CodeGrade

namespace Text

/-! ### Words and blanks -/

/-- A gap between two words: blanks, of which there is at least one. -/
def IsGap (text : List Char) : Prop := text ≠ [] ∧ allBlank text = true

/-- A name: a letter or an underscore, and characters of words after it. -/
def IsName (text : List Char) : Prop :=
  ∃ first more, text = first :: more ∧ isNameStart first = true ∧ more.all isWordChar = true

theorem toNat_of_isWordChar {c : Char} (h : isWordChar c = true) :
    48 ≤ c.toNat ∧ c.toNat ≤ 122 := by
  simp only [isWordChar, isAlphanumeric, isLetter, isCapital, isSmall, isDigit, Bool.or_eq_true,
    Bool.and_eq_true, decide_eq_true_eq, beq_iff_eq] at h
  rcases h with ((⟨h₁, h₂⟩ | ⟨h₁, h₂⟩) | ⟨h₁, h₂⟩) | rfl
  · exact ⟨le_trans (by decide) (Char.le_def.1 h₁), le_trans (Char.le_def.1 h₂) (by decide)⟩
  · exact ⟨le_trans (by decide) (Char.le_def.1 h₁), le_trans (Char.le_def.1 h₂) (by decide)⟩
  · exact ⟨le_trans (by decide) (Char.le_def.1 h₁), le_trans (Char.le_def.1 h₂) (by decide)⟩
  · decide

theorem isWordChar_of_isBlank {c : Char} (h : isBlank c = true) : isWordChar c = false := by
  by_contra hword
  have := toNat_of_isWordChar (Bool.not_eq_false _ ▸ hword)
  simp only [isBlank, Bool.or_eq_true, Bool.and_eq_true, decide_eq_true_eq, beq_iff_eq] at h
  omega

theorem isWordChar_of_isNameStart {c : Char} (h : isNameStart c = true) : isWordChar c = true := by
  simp only [isNameStart, isWordChar, isAlphanumeric, Bool.or_eq_true] at h ⊢
  tauto

theorem after?_eq_some {literal text rest : List Char} :
    after? literal text = some rest ↔ text = literal ++ rest := by
  fun_induction after? literal text <;> grind

theorem dropWhile_eq_iff {p : Char → Bool} {text rest : List Char} :
    text.dropWhile p = rest ↔
      ∃ before, before.all p = true ∧ text = before ++ rest ∧ rest.head?.all (!p ·) = true := by
  constructor
  · rintro rfl
    refine ⟨text.takeWhile p, List.all_takeWhile, List.takeWhile_append_dropWhile.symm, ?_⟩
    have hhead := List.head?_dropWhile_not p text
    cases hrest : (text.dropWhile p).head? <;> simp_all
  · rintro ⟨before, hbefore, rfl, hrest⟩
    rw [List.dropWhile_append_of_pos (List.all_eq_true.1 hbefore)]
    cases rest with
    | nil => rfl
    | cons c rest => simp_all

theorem trimStart_eq_iff {text rest : List Char} :
    trimStart text = rest ↔
      ∃ blanks, allBlank blanks = true ∧ text = blanks ++ rest ∧
        rest.head?.all (!isBlank ·) = true :=
  dropWhile_eq_iff

/-- A text starts with a word, and goes on with what is no character of it. -/
theorem wordAt_eq_iff {text word rest : List Char} :
    wordAt text = (word, rest) ↔
      word.all isWordChar = true ∧ text = word ++ rest ∧ endsWord rest = true := by
  constructor
  · intro h
    obtain ⟨rfl, hrest⟩ := Prod.mk.inj h
    obtain ⟨before, -, -, hends⟩ := dropWhile_eq_iff.1 hrest
    refine ⟨List.all_takeWhile, ?_, hends⟩
    rw [← hrest, List.takeWhile_append_dropWhile]
  · rintro ⟨hword, rfl, hends⟩
    have hrest : (word ++ rest).dropWhile isWordChar = rest :=
      dropWhile_eq_iff.2 ⟨word, hword, rfl, hends⟩
    have htext := @List.takeWhile_append_dropWhile _ isWordChar (word ++ rest)
    rw [hrest] at htext
    exact Prod.ext (List.append_cancel_right htext) hrest

theorem nameAt?_eq_some {text name rest : List Char} :
    nameAt? text = some (name, rest) ↔
      IsName name ∧ text = name ++ rest ∧ endsWord rest = true := by
  cases text with
  | nil =>
    simp only [nameAt?, reduceCtorEq, false_iff]
    rintro ⟨⟨first, more, rfl, -⟩, h, -⟩
    simp at h
  | cons c more =>
    simp only [nameAt?]
    split
    · rename_i hc
      rw [Option.some.injEq, wordAt_eq_iff]
      constructor
      · rintro ⟨hname, htext, hends⟩
        cases name with
        | nil =>
          rw [List.nil_append] at htext
          simp [endsWord, ← htext, isWordChar_of_isNameStart hc] at hends
        | cons first name =>
          obtain ⟨rfl, -⟩ := List.cons.inj htext
          exact ⟨⟨c, name, rfl, hc, (by simpa using hname : _ ∧ _).2⟩, htext, hends⟩
      · rintro ⟨⟨first, name, rfl, hfirst, hname⟩, htext, hends⟩
        refine ⟨?_, htext, hends⟩
        rw [List.all_cons, isWordChar_of_isNameStart hfirst, hname]
        rfl
    · rename_i hc
      simp only [reduceCtorEq, false_iff]
      rintro ⟨⟨first, name, rfl, hfirst, -⟩, htext, -⟩
      obtain ⟨rfl, -⟩ := List.cons.inj htext
      exact hc hfirst

theorem IsGap.any_head? {gap : List Char} (h : IsGap gap) (rest : List Char) :
    (gap ++ rest).head?.any isBlank = true := by
  obtain ⟨hne, hblank⟩ := h
  cases gap with
  | nil => exact absurd rfl hne
  | cons c gap => simp_all [allBlank]

theorem IsGap.endsWord {gap : List Char} (h : IsGap gap) (rest : List Char) :
    Text.endsWord (gap ++ rest) = true := by
  obtain ⟨hne, hblank⟩ := h
  cases gap with
  | nil => exact absurd rfl hne
  | cons c gap =>
    rw [allBlank, List.all_cons, Bool.and_eq_true] at hblank
    simp [Text.endsWord, isWordChar_of_isBlank hblank.1]

end Text

open Text (IsGap IsName allBlank endsWord)

theorem afterBlanks?_eq_some {text rest : List Char} :
    afterBlanks? text = some rest ↔
      ∃ gap, IsGap gap ∧ text = gap ++ rest ∧ rest.head?.all (!Text.isBlank ·) = true := by
  unfold afterBlanks?
  constructor
  · intro h
    split at h
    · rename_i hhead
      obtain ⟨blanks, hblanks, htext, hrest⟩ := Text.trimStart_eq_iff.1 (Option.some.inj h)
      refine ⟨blanks, ⟨?_, hblanks⟩, htext, hrest⟩
      rintro rfl
      rw [List.nil_append] at htext
      subst htext
      cases text <;> simp_all
    · cases h
  · rintro ⟨gap, hgap, rfl, hrest⟩
    rw [if_pos (hgap.any_head? rest), Option.some.injEq]
    exact Text.trimStart_eq_iff.2 ⟨gap, hgap.2, rfl, hrest⟩

/-! ### Keywords -/

/-- The code starts with the keyword: with the word that the keyword is, or with `async`, a gap and
the word after it. No character of a word follows. -/
inductive Keyword.Opens : Keyword → List Char → Prop where
  | word {keyword : Keyword} (h : keyword ∈ Keyword.simple) {rest : List Char}
      (hrest : endsWord rest = true) : Opens keyword (keyword.text.toList ++ rest)
  | async {keyword : Keyword} {gap second rest : List Char}
      (h : keyword.text.toList = "async ".toList ++ second) (hgap : IsGap gap)
      (hrest : endsWord rest = true) : Opens keyword ("async".toList ++ gap ++ second ++ rest)

namespace Keyword

theorem ofWord?_eq_some {word : List Char} {keyword : Keyword} :
    ofWord? word = some keyword ↔ keyword ∈ simple ∧ keyword.text.toList = word := by
  have hfind : ∀ keyword ∈ simple, ofWord? keyword.text.toList = some keyword := by decide
  constructor
  · intro h
    exact ⟨List.mem_of_find?_eq_some h, by simpa using List.find?_some h⟩
  · rintro ⟨hmem, rfl⟩
    exact hfind keyword hmem

theorem ofAsync?_eq_some {word : List Char} {keyword : Keyword} :
    ofAsync? word = some keyword ↔ keyword.text.toList = "async ".toList ++ word := by
  constructor
  · intro h
    unfold ofAsync? at h
    split at h
    · rename_i hword
      rw [← Option.some.inj h, hword]
      rfl
    · split at h
      · rename_i hword
        rw [← Option.some.inj h, hword]
        rfl
      · split at h
        · rename_i hword
          rw [← Option.some.inj h, hword]
          rfl
        · cases h
  · intro h
    have hasync : keyword.text.toList.take 6 = "async ".toList := by
      rw [h]
      rfl
    have hword : keyword.text.toList.drop 6 = word := by
      rw [h]
      rfl
    rw [← hword]
    cases keyword with
    | asyncDefKw | asyncForKw | asyncWithKw => rfl
    | _ => exact absurd hasync (by decide)

theorem all_isWordChar_of_simple :
    ∀ keyword ∈ simple, keyword.text.toList.all Text.isWordChar = true := by decide

theorem text_ne_async_of_simple : ∀ keyword ∈ simple, keyword.text.toList ≠ "async".toList := by
  decide

/-- The second word of a keyword is a word. -/
theorem second_word {keyword : Keyword} {second : List Char}
    (h : keyword.text.toList = "async ".toList ++ second) :
    second.all Text.isWordChar = true ∧
      ∀ rest, (second ++ rest).head?.all (!Text.isBlank ·) = true := by
  cases keyword <;> simp [text] at h <;> subst h <;> exact ⟨by decide, fun rest => rfl⟩

/-- The keyword that is read is the one that the code starts with. -/
theorem read?_eq_some {code : List Char} {keyword : Keyword} :
    read? code = some keyword ↔ keyword.Opens code := by
  constructor
  · intro h
    rcases hword : Text.wordAt code with ⟨word, rest⟩
    obtain ⟨-, rfl, hends⟩ := Text.wordAt_eq_iff.1 hword
    simp only [read?, hword] at h
    split at h
    · rename_i hasync
      split at h
      · rename_i hblank
        obtain ⟨gap, hgap, hrest, -⟩ := afterBlanks?_eq_some.1
          (by rw [afterBlanks?, if_pos hblank] : afterBlanks? rest = some _)
        rcases hsecond : Text.wordAt (Text.trimStart rest) with ⟨second, more⟩
        obtain ⟨-, htrim, hends⟩ := Text.wordAt_eq_iff.1 hsecond
        rw [hsecond] at h
        have hopens := Opens.async (ofAsync?_eq_some.1 h) hgap hends
        rwa [List.append_assoc, ← htrim, List.append_assoc, ← hrest, ← hasync] at hopens
      · cases h
    · obtain ⟨hmem, rfl⟩ := ofWord?_eq_some.1 h
      exact .word hmem hends
  · rintro (⟨hmem, hrest⟩ | ⟨hkeyword, hgap, hrest⟩)
    · have hword := Text.wordAt_eq_iff.2 ⟨all_isWordChar_of_simple keyword hmem, rfl, hrest⟩
      simp only [read?, hword, text_ne_async_of_simple keyword hmem, ↓reduceIte]
      exact ofWord?_eq_some.2 ⟨hmem, rfl⟩
    · rename_i gap second rest
      obtain ⟨hsecond, hvisible⟩ := second_word hkeyword
      have hfirst : Text.wordAt ("async".toList ++ gap ++ second ++ rest) =
          ("async".toList, gap ++ (second ++ rest)) :=
        Text.wordAt_eq_iff.2 ⟨by decide, by simp, hgap.endsWord _⟩
      have htrim : Text.trimStart (gap ++ (second ++ rest)) = second ++ rest :=
        Text.trimStart_eq_iff.2 ⟨gap, hgap.2, rfl, hvisible rest⟩
      have hlast := Text.wordAt_eq_iff.2 ⟨hsecond, rfl, hrest⟩
      simp only [read?, hfirst, ↓reduceIte, hgap.any_head?, htrim, hlast]
      exact ofAsync?_eq_some.2 hkeyword

end Keyword

/-! ### The colon -/

/-- How deep in brackets a text ends, if it starts outside all brackets. -/
def bracketDepth (text : List Char) : Int := text.countP isOpener - text.countP isCloser

/-- Place `i` of the code is a colon outside all brackets that does not begin `:=`. -/
def IsTopColon (code : List Char) (i : Nat) : Prop :=
  code[i]? = some ':' ∧ code[i + 1]? ≠ some '=' ∧ bracketDepth (code.take i) = 0

/-- Place `i` of the code is the colon that ends its header, the first that can. -/
def IsHeaderColon (code : List Char) (i : Nat) : Prop :=
  IsTopColon code i ∧ ∀ j < i, ¬ IsTopColon code j

@[simp] theorem bracketDepth_nil : bracketDepth [] = 0 := rfl

theorem bracketDepth_cons (c : Char) (text : List Char) :
    bracketDepth (c :: text) = bracketDepth [c] + bracketDepth text := by
  simp only [bracketDepth, List.countP_cons, List.countP_nil]
  push_cast
  ring

theorem isCloser_of_isOpener {c : Char} (h : isOpener c = true) : isCloser c = false := by
  simp only [isOpener, isCloser, Bracket.ofOpener?, Bracket.ofCloser?] at h ⊢
  grind

theorem bracketDepth_opener {c : Char} (h : isOpener c = true) : bracketDepth [c] = 1 := by
  simp [bracketDepth, h, isCloser_of_isOpener h]

theorem bracketDepth_closer {c : Char} (h : isOpener c = false) (hc : isCloser c = true) :
    bracketDepth [c] = -1 := by
  simp [bracketDepth, h, hc]

theorem bracketDepth_other {c : Char} (h : isOpener c = false) (hc : isCloser c = false) :
    bracketDepth [c] = 0 := by
  simp [bracketDepth, h, hc]

/-- A colon outside all brackets, of a text that starts at the given depth. -/
def IsTopColonFrom (depth : Int) (text : List Char) (i : Nat) : Prop :=
  text[i]? = some ':' ∧ text[i + 1]? ≠ some '=' ∧ depth + bracketDepth (text.take i) = 0

theorem isTopColonFrom_zero {code : List Char} {i : Nat} :
    IsTopColonFrom 0 code i ↔ IsTopColon code i := by
  simp [IsTopColonFrom, IsTopColon]

theorem isTopColonFrom_cons_succ {depth : Int} {c : Char} {rest : List Char} {i : Nat} :
    IsTopColonFrom depth (c :: rest) (i + 1) ↔
      IsTopColonFrom (depth + bracketDepth [c]) rest i := by
  rw [IsTopColonFrom, IsTopColonFrom, List.take_succ_cons, bracketDepth_cons, ← add_assoc]
  simp only [List.getElem?_cons_succ]

/-- What is looked for from a place on is that place, or is looked for from the next on. -/
theorem headerColonFrom_cons (depth : Int) (index : Nat) (c : Char) (rest : List Char) :
    (IsTopColonFrom depth (c :: rest) 0 ∧
        headerColonFrom depth index (c :: rest) = some index) ∨
      ¬ IsTopColonFrom depth (c :: rest) 0 ∧
        headerColonFrom depth index (c :: rest) =
          headerColonFrom (depth + bracketDepth [c]) (index + 1) rest := by
  have hfirst : IsTopColonFrom depth (c :: rest) 0 ↔
      c = ':' ∧ depth = 0 ∧ rest.head? ≠ some '=' := by
    simp [IsTopColonFrom, List.head?_eq_getElem?, and_comm]
  have hcolon : isOpener ':' = false ∧ isCloser ':' = false := by decide
  rw [hfirst]
  cases hopener : isOpener c with
  | true =>
    right
    have hne : c ≠ ':' := by rintro rfl; simp [hcolon] at hopener
    simp [headerColonFrom, hopener, bracketDepth_opener hopener, hne]
  | false =>
    cases hcloser : isCloser c with
    | true =>
      right
      have hne : c ≠ ':' := by rintro rfl; simp [hcolon] at hcloser
      simp [headerColonFrom, hopener, hcloser, bracketDepth_closer hopener hcloser, hne,
        sub_eq_add_neg]
    | false =>
      by_cases htop : c = ':' ∧ depth = 0 ∧ rest.head? ≠ some '='
      · left
        refine ⟨htop, ?_⟩
        rw [headerColonFrom, if_neg (by simp [hopener]), if_neg (by simp [hcloser]), if_pos htop]
      · right
        exact ⟨htop, by
          simp [headerColonFrom, hopener, hcloser, htop, bracketDepth_other hopener hcloser]⟩

theorem headerColonFrom_add (depth : Int) (index n : Nat) (text : List Char) :
    headerColonFrom depth (index + n) text = (headerColonFrom depth index text).map (· + n) := by
  induction text generalizing depth index with
  | nil => rfl
  | cons c rest ih =>
    have hindex : index + n + 1 = index + 1 + n := by omega
    simp only [headerColonFrom, hindex, ih]
    split
    · rfl
    · split
      · rfl
      · split <;> rfl

/-- The place that is found is the first one, and if none is found there is none. -/
theorem headerColonFrom_spec (depth : Int) (index : Nat) (text : List Char) :
    (∃ i, headerColonFrom depth index text = some (index + i) ∧ IsTopColonFrom depth text i ∧
        ∀ j < i, ¬ IsTopColonFrom depth text j) ∨
      headerColonFrom depth index text = none ∧ ∀ j, ¬ IsTopColonFrom depth text j := by
  -- Along the text, with the depth that the characters before it leave.
  induction text generalizing depth index with
  | nil =>
    right
    exact ⟨rfl, by simp [IsTopColonFrom]⟩
  | cons c rest ih =>
    rcases headerColonFrom_cons depth index c rest with ⟨htop, hfound⟩ | ⟨hnot, hfound⟩
    · exact .inl ⟨0, hfound, htop, by simp⟩
    · rw [hfound]
      rcases ih (depth + bracketDepth [c]) (index + 1) with ⟨i, hi, htop, hleast⟩ | ⟨hnone, hall⟩
      · refine .inl ⟨i + 1, by rw [hi]; congr 1; omega, isTopColonFrom_cons_succ.2 htop, ?_⟩
        rintro (_ | j) hj
        · exact hnot
        · exact fun h => hleast j (by omega) (isTopColonFrom_cons_succ.1 h)
      · refine .inr ⟨hnone, ?_⟩
        rintro (_ | j)
        · exact hnot
        · exact fun h => hall j (isTopColonFrom_cons_succ.1 h)

theorem headerColon?_eq_some {code : List Char} {i : Nat} :
    headerColon? code = some i ↔ IsHeaderColon code i := by
  have hspec := headerColonFrom_spec 0 0 code
  simp only [isTopColonFrom_zero, Nat.zero_add] at hspec
  rw [headerColon?]
  rcases hspec with ⟨j, hj, htop, hleast⟩ | ⟨hnone, hall⟩
  · rw [hj, Option.some.injEq]
    constructor
    · rintro rfl
      exact ⟨htop, hleast⟩
    · rintro ⟨htop', hleast'⟩
      rcases Nat.lt_trichotomy i j with hlt | rfl | hlt
      · exact absurd htop' (hleast i hlt)
      · rfl
      · exact absurd htop (hleast' j hlt)
  · rw [hnone]
    simp [IsHeaderColon, hall]

theorem headerColon?_eq_none {code : List Char} :
    headerColon? code = none ↔ ∀ i, ¬ IsTopColon code i := by
  have hspec := headerColonFrom_spec 0 0 code
  simp only [isTopColonFrom_zero, Nat.zero_add] at hspec
  rw [headerColon?]
  rcases hspec with ⟨j, hj, htop, -⟩ | ⟨hnone, hall⟩
  · rw [hj]
    simp only [reduceCtorEq, false_iff, not_forall, not_not]
    exact ⟨j, htop⟩
  · simp [hnone, hall]

/-- A header is a keyword at the start of the code and a colon that ends it. -/
theorem Header.read_eq_some {statement : Statement} {header : Header} :
    Header.read statement = .ok (some header) ↔
      header.keyword.Opens statement.code ∧ IsHeaderColon statement.code header.colon ∧
        header.inlineBody = Text.trim (statement.code.drop (header.colon + 1)) := by
  rw [← Keyword.read?_eq_some, ← headerColon?_eq_some, Header.read]
  cases Keyword.read? statement.code with
  | none => simp
  | some keyword =>
    cases headerColon? statement.code with
    | none => cases hdefinition : keyword.isDefinition <;> simp [hdefinition]
    | some colon =>
      rcases header with ⟨keyword', colon', body⟩
      simp only [Except.ok.injEq, Option.some.injEq, Header.mk.injEq]
      constructor
      · rintro ⟨rfl, rfl, rfl⟩
        exact ⟨rfl, rfl, rfl⟩
      · rintro ⟨rfl, rfl, rfl⟩
        exact ⟨rfl, rfl, rfl⟩

/-! ### Definitions -/

/-- The word `async` in front of a definition, with the gap after it, or nothing. -/
def IsAsync (text : List Char) : Prop := text = [] ∨ ∃ gap, IsGap gap ∧ text = "async".toList ++ gap

/-- A list in square brackets that ends at the first closing one, or nothing. -/
def IsTypeParameters (text : List Char) : Prop :=
  text = [] ∨ ∃ body, ']' ∉ body ∧ text = '[' :: (body ++ [']'])

/-- The code starts like the definition of a function up to its parameter list: it gives the name,
and `list` follows the bracket that opens the parameter list. -/
def FunctionForm (code name list : List Char) : Prop :=
  ∃ start gap blanks params blanks',
    IsAsync start ∧ IsGap gap ∧ IsName name ∧ allBlank blanks = true ∧ IsTypeParameters params ∧
      allBlank blanks' = true ∧
      code = start ++ "def".toList ++ gap ++ name ++ blanks ++ params ++ blanks' ++ '(' :: list

/-- The code starts like the definition of a class of the given name. -/
def ClassForm (code name : List Char) : Prop :=
  ∃ gap rest, IsGap gap ∧ IsName name ∧ endsWord rest = true ∧
    code = "class".toList ++ gap ++ name ++ rest

theorem Text.IsName.head?_all {name : List Char} (h : IsName name) (rest : List Char) :
    (name ++ rest).head?.all (!Text.isBlank ·) = true := by
  obtain ⟨first, more, rfl, hfirst, -⟩ := h
  have hword := Text.isWordChar_of_isNameStart hfirst
  cases hblank : Text.isBlank first with
  | false => simp [hblank]
  | true => simp [Text.isWordChar_of_isBlank hblank] at hword

theorem className?_eq_some {code name : List Char} :
    className? code = some name ↔ ClassForm code name := by
  simp only [className?, Text.afterString?, Option.bind_eq_bind, Option.bind_eq_some_iff,
    Text.after?_eq_some, afterBlanks?_eq_some, Prod.exists, Text.nameAt?_eq_some, Option.some.injEq]
  constructor
  · rintro ⟨_, rfl, _, ⟨gap, hgap, rfl, -⟩, _, rest, ⟨hname, rfl, hends⟩, rfl⟩
    exact ⟨gap, rest, hgap, hname, hends, by simp⟩
  · rintro ⟨gap, rest, hgap, hname, hends, rfl⟩
    exact ⟨gap ++ (name ++ rest), by simp, _, ⟨gap, hgap, rfl, hname.head?_all rest⟩, name, rest,
      ⟨hname, rfl, hends⟩, rfl⟩

/-- What follows the first square bracket that closes. -/
theorem dropWhile_bracket_eq_cons {text rest : List Char} {c : Char} :
    text.dropWhile (· ≠ ']') = c :: rest ↔
      ∃ body, ']' ∉ body ∧ c = ']' ∧ text = body ++ ']' :: rest := by
  rw [Text.dropWhile_eq_iff]
  constructor
  · rintro ⟨body, hbody, rfl, hc⟩
    obtain rfl : c = ']' := by simpa using hc
    exact ⟨body, fun hmem => by simpa using List.all_eq_true.1 hbody _ hmem, rfl, rfl⟩
  · rintro ⟨body, hbody, rfl, rfl⟩
    refine ⟨body, ?_, rfl, by simp⟩
    rw [List.all_eq_true]
    intro c hc
    simpa using fun h : c = ']' => hbody (h ▸ hc)

/-- Type parameters may stand between the blanks before a parameter list. -/
theorem afterTypeParameters?_eq_some {text list : List Char} :
    afterTypeParameters? (Text.trimStart text) = some ('(' :: list) ↔
      ∃ blanks params blanks', allBlank blanks = true ∧ IsTypeParameters params ∧
        allBlank blanks' = true ∧ text = blanks ++ params ++ blanks' ++ '(' :: list := by
  constructor
  · intro h
    obtain ⟨blanks, hblanks, htext, -⟩ := Text.trimStart_eq_iff.1 (rfl : Text.trimStart text = _)
    generalize Text.trimStart text = start at h htext
    subst htext
    unfold afterTypeParameters? at h
    split at h
    · rename_i inner
      split at h
      · rename_i c more hmore
        obtain ⟨body, hbody, rfl, rfl⟩ := dropWhile_bracket_eq_cons.1 hmore
        obtain ⟨blanks', hblanks', rfl, -⟩ := Text.trimStart_eq_iff.1 (Option.some.inj h)
        exact ⟨blanks, _, blanks', hblanks, .inr ⟨body, hbody, rfl⟩, hblanks', by simp⟩
      · cases h
    · obtain rfl := Option.some.inj h
      exact ⟨blanks, [], [], hblanks, .inl rfl, rfl, by simp⟩
  · rintro ⟨blanks, params, blanks', hblanks, rfl | ⟨body, hbody, rfl⟩, hblanks', rfl⟩
    -- Without type parameters the blanks on both sides of them are taken off at once.
    · have htrim : Text.trimStart (blanks ++ [] ++ blanks' ++ '(' :: list) = '(' :: list := by
        refine Text.trimStart_eq_iff.2 ⟨blanks ++ blanks', ?_, by simp, rfl⟩
        rw [allBlank, List.all_append, Bool.and_eq_true]
        exact ⟨hblanks, hblanks'⟩
      rw [htrim]
      rfl
    · have htrim : Text.trimStart (blanks ++ '[' :: (body ++ [']']) ++ blanks' ++ '(' :: list) =
          '[' :: (body ++ ']' :: (blanks' ++ '(' :: list)) :=
        Text.trimStart_eq_iff.2 ⟨blanks, hblanks, by simp, rfl⟩
      have hbracket := dropWhile_bracket_eq_cons.2
        ⟨body, hbody, rfl, (rfl : body ++ ']' :: (blanks' ++ '(' :: list) = _)⟩
      have hlist := Text.trimStart_eq_iff.2
        ⟨blanks', hblanks', (rfl : blanks' ++ '(' :: list = _), rfl⟩
      rw [htrim, afterTypeParameters?]
      simp only [hbracket, hlist]

/-- Whatever stands between a name and a parameter list, the name ends there. -/
theorem endsWord_before_list {blanks params blanks' list : List Char}
    (hblanks : allBlank blanks = true) (hparams : IsTypeParameters params)
    (hblanks' : allBlank blanks' = true) :
    endsWord (blanks ++ params ++ blanks' ++ '(' :: list) = true := by
  have hblank (blanks rest : List Char) (h : allBlank blanks = true)
      (hrest : endsWord rest = true) : endsWord (blanks ++ rest) = true := by
    by_cases hnil : blanks = []
    · rw [hnil]
      exact hrest
    · exact Text.IsGap.endsWord ⟨hnil, h⟩ rest
  rw [List.append_assoc, List.append_assoc]
  refine hblank _ _ hblanks ?_
  rcases hparams with rfl | ⟨body, -, rfl⟩
  · rw [List.nil_append]
    exact hblank _ _ hblanks' rfl
  · rfl

/-- What follows `async` and the gap after it, if the code starts with that word. -/
def afterAsync? (code : List Char) : Option (List Char) :=
  match Text.afterString? "async" code with
  | some rest => afterBlanks? rest
  | none => some code

theorem functionHeader?_eq (code : List Char) :
    functionHeader? code = (afterAsync? code).bind fun code =>
      (Text.afterString? "def" code).bind fun rest =>
        (afterBlanks? rest).bind fun rest =>
          (Text.nameAt? rest).bind fun named =>
            (afterTypeParameters? (Text.trimStart named.2)).bind fun rest =>
              (Text.after? ['('] rest).bind fun list => some (named.1, list) := by
  unfold functionHeader? afterAsync?
  cases Text.afterString? "async" code <;> rfl

/-- A definition may start with `async`. -/
theorem afterAsync?_eq_some {code rest : List Char} :
    afterAsync? code = some ("def".toList ++ rest) ↔
      ∃ start, IsAsync start ∧ code = start ++ "def".toList ++ rest := by
  unfold afterAsync? Text.afterString?
  constructor
  · intro h
    split at h
    · rename_i more hmore
      obtain rfl := Text.after?_eq_some.1 hmore
      obtain ⟨gap, hgap, rfl, -⟩ := afterBlanks?_eq_some.1 h
      exact ⟨_, .inr ⟨gap, hgap, rfl⟩, by simp⟩
    · obtain rfl := Option.some.inj h
      exact ⟨[], .inl rfl, rfl⟩
  · rintro ⟨start, rfl | ⟨gap, hgap, rfl⟩, rfl⟩
    · rfl
    · have hasync : Text.after? "async".toList ("async".toList ++ gap ++ "def".toList ++ rest) =
          some (gap ++ ("def".toList ++ rest)) := Text.after?_eq_some.2 (by simp)
      rw [hasync]
      exact afterBlanks?_eq_some.2 ⟨gap, hgap, rfl, rfl⟩

theorem functionHeader?_eq_some {code name list : List Char} :
    functionHeader? code = some (name, list) ↔ FunctionForm code name list := by
  simp only [functionHeader?_eq, Text.afterString?, Option.bind_eq_some_iff, Prod.exists,
    Text.nameAt?_eq_some, Text.after?_eq_some, Option.some.injEq, Prod.mk.injEq]
  constructor
  · rintro ⟨_, hbody, rest, rfl, _, hblank, name, rest', ⟨hname, rfl, -⟩, _, hlist, list, rfl, rfl,
      rfl⟩
    obtain ⟨start, hstart, rfl⟩ := afterAsync?_eq_some.1 hbody
    obtain ⟨gap, hgap, rfl, -⟩ := afterBlanks?_eq_some.1 hblank
    obtain ⟨blanks, params, blanks', hblanks, hparams, hblanks', rfl⟩ :=
      afterTypeParameters?_eq_some.1 hlist
    exact ⟨start, gap, blanks, params, blanks', hstart, hgap, hname, hblanks, hparams, hblanks', by
      simp⟩
  · rintro ⟨start, gap, blanks, params, blanks', hstart, hgap, hname, hblanks, hparams, hblanks',
      rfl⟩
    exact ⟨"def".toList ++ (gap ++ (name ++ (blanks ++ params ++ blanks' ++ '(' :: list))),
      afterAsync?_eq_some.2 ⟨start, hstart, by simp⟩, _, rfl, _,
      afterBlanks?_eq_some.2 ⟨gap, hgap, rfl, hname.head?_all _⟩, name, _,
      ⟨hname, rfl, endsWord_before_list hblanks hparams hblanks'⟩, _,
      afterTypeParameters?_eq_some.2 ⟨blanks, params, blanks', hblanks, hparams, hblanks', rfl⟩,
      list, rfl, rfl, rfl⟩

end CodeGrade
