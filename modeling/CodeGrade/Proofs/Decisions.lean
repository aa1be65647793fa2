import CodeGrade.Proofs.Squeezing
import CodeGrade.Rule.Size

/-!
# Deciding words

The complexity of a function counts the keywords that decide something, and the deciding words in
the rest of each statement. The rest starts after as many characters as the keyword has with one
blank after `async`. If there are more blanks, the last characters of the second word are read once
more: with three blanks or more, those of `for` form a deciding word themselves. Apart from such
wide loops, it makes no difference how many blanks there are.

## Main definitions

* `afterKeyword`: the code after the keyword as it is written.
* `LogicalLine.paths`: the decisions of a statement, each counted once.
* `LogicalLine.isWideLoop`: an asynchronous loop whose second word is counted twice.
-/

namespace CodeGrade

open Text (IsGap isBlank isWordChar words wordAt endsWord squeeze)

/-! ### Words -/

namespace Text

theorem collectWords_word {word : List Char} (h : word.all isWordChar = true)
    (current rest : List Char) :
    collectWords current (word ++ rest) = collectWords (word.reverse ++ current) rest := by
  induction word generalizing current with
  | nil => rfl
  | cons c word ih =>
    rw [List.all_cons, Bool.and_eq_true] at h
    rw [List.cons_append, collectWords, if_pos h.1, ih h.2]
    simp

/-- A word in front of a text is a word by itself, if the text does not go on with it. -/
theorem words_append {word : List Char} (h : word.all isWordChar = true) {rest : List Char}
    (hrest : endsWord rest = true) :
    words (word ++ rest) = (if word = [] then [] else [word]) ++ words rest := by
  rw [words, collectWords_word h, List.append_nil]
  by_cases hword : word = []
  · simp [hword, words]
  · cases rest with
    | nil => simp [collectWords, words, hword]
    | cons c rest =>
      have hc : isWordChar c = false := by simpa [endsWord] using hrest
      simp [collectWords, words, hword, hc]

theorem words_blank {blanks : List Char} (h : allBlank blanks = true) (rest : List Char) :
    words (blanks ++ rest) = words rest := by
  induction blanks with
  | nil => rfl
  | cons c blanks ih =>
    rw [allBlank, List.all_cons, Bool.and_eq_true] at h
    rw [← ih h.2, List.cons_append, words, collectWords, isWordChar_of_isBlank h.1]
    rfl

end Text

/-! ### The code after a keyword -/

/-- Whether the keyword is written in two words. -/
def Keyword.isAsync : Keyword → Bool
  | asyncDefKw | asyncForKw | asyncWithKw => true
  | _ => false

/-- The code after the keyword, as the keyword is written. -/
def afterKeyword (keyword : Option Keyword) (code : List Char) : List Char :=
  match keyword with
  | none => code
  | some keyword =>
    if keyword.isAsync then (wordAt (Text.trimStart (wordAt code).2)).2 else (wordAt code).2

theorem afterKeyword_squeeze (keyword : Option Keyword) (code : List Char) :
    afterKeyword keyword (squeeze code) = squeeze (afterKeyword keyword code) := by
  cases keyword with
  | none => rfl
  | some keyword =>
    simp only [afterKeyword, Text.wordAt_squeeze, Text.trimStart_squeeze]
    split <;> rfl

/-- The decisions in code with the given keyword: that of the keyword and those of the words after
it. -/
def pathsOf (keyword : Option Keyword) (code : List Char) : Nat :=
  (if keyword.any Keyword.isDecision then 1 else 0) +
    (words (afterKeyword keyword code)).countP isDecisionWord

theorem pathsOf_squeeze (keyword : Option Keyword) (code : List Char) :
    pathsOf keyword (squeeze code) = pathsOf keyword code := by
  rw [pathsOf, afterKeyword_squeeze, Text.words_squeeze, pathsOf]

/-- The decisions of a statement, each counted once. -/
def LogicalLine.paths (line : LogicalLine) : Nat := pathsOf line.keyword line.code

/-- An asynchronous loop with three blanks or more between its words. -/
def LogicalLine.isWideLoop (line : LogicalLine) : Bool :=
  line.keyword = some .asyncForKw && 3 ≤ ((wordAt line.code).2.takeWhile isBlank).length

/-- What is left of the second word of a keyword after as many characters as the keyword has, if
there are `n` more blanks than one. -/
theorem isDecisionWord_drop {keyword : Keyword} {second : List Char}
    (h : keyword.text.toList = "async ".toList ++ second) (n : Nat) :
    isDecisionWord (second.drop (second.length - n)) =
      (decide (keyword = .asyncForKw) && decide (2 ≤ n)) := by
  have hlong (n : Nat) (hn : 4 ≤ n) (hsecond : second.length ≤ 4) :
      second.drop (second.length - n) = second := by
    rw [Nat.sub_eq_zero_of_le (by omega), List.drop_zero]
  cases keyword <;> simp [Keyword.text] at h <;> subst h <;>
    rcases n with _ | _ | _ | _ | n <;> try rfl
  all_goals
    rw [hlong (n + 4) (by omega) (by decide), decide_eq_true (by omega : 2 ≤ n + 4)]
    rfl

section AsyncKeyword

variable {keyword : Keyword} {gap second rest : List Char}

theorem isAsync_of_text (h : keyword.text.toList = "async ".toList ++ second) :
    keyword.isAsync = true := by
  cases keyword <;> simp [Keyword.text] at h <;> rfl

/-- The code after two words with a gap between them, and the gap. -/
theorem wordAt_async (hsecond : keyword.text.toList = "async ".toList ++ second) (hgap : IsGap gap)
    (hrest : endsWord rest = true) :
    afterKeyword (some keyword) ("async".toList ++ gap ++ second ++ rest) = rest ∧
      (wordAt ("async".toList ++ gap ++ second ++ rest)).2.takeWhile isBlank = gap := by
  obtain ⟨hword, hvisible⟩ := Keyword.second_word hsecond
  have hfirst : wordAt ("async".toList ++ gap ++ second ++ rest) =
      ("async".toList, gap ++ (second ++ rest)) :=
    Text.wordAt_eq_iff.2 ⟨by decide, by simp, hgap.endsWord _⟩
  have htrim : Text.trimStart (gap ++ (second ++ rest)) = second ++ rest :=
    Text.trimStart_eq_iff.2 ⟨gap, hgap.2, rfl, hvisible rest⟩
  have hlast : wordAt (second ++ rest) = (second, rest) :=
    Text.wordAt_eq_iff.2 ⟨hword, rfl, hrest⟩
  constructor
  · simp only [afterKeyword, isAsync_of_text hsecond, ↓reduceIte, hfirst, htrim, hlast]
  · rw [hfirst, List.takeWhile_append_of_pos (List.all_eq_true.1 hgap.2)]
    have hhead := hvisible rest
    cases htext : second ++ rest with
    | nil => simp
    | cons c more =>
      rw [htext] at hhead
      have hc : isBlank c = false := by simpa using hhead
      simp [hc]

/-- After as many characters as the keyword has, the deciding words are those after the keyword, and
what is left of its second word. -/
theorem countP_words_drop (hsecond : keyword.text.toList = "async ".toList ++ second)
    (hgap : IsGap gap) (hrest : endsWord rest = true) :
    (words (("async".toList ++ gap ++ second ++ rest).drop keyword.text.length)).countP
        isDecisionWord =
      (words rest).countP isDecisionWord +
        if isDecisionWord (second.drop (second.length - (gap.length - 1))) then 1 else 0 := by
  obtain ⟨blank, blanks, rfl⟩ := List.exists_cons_of_ne_nil hgap.1
  have hblanks : Text.allBlank (blanks.drop second.length) = true := by
    rw [Text.allBlank, List.all_eq_true]
    exact fun c hc => List.all_eq_true.1 hgap.2 c (by simp [List.mem_of_mem_drop hc])
  have hlength : keyword.text.length = "async".toList.length + (1 + second.length) := by
    rw [← String.length_toList, hsecond, List.length_append, ← Nat.add_assoc]
    rfl
  have hword : (second.drop (second.length - blanks.length)).all isWordChar = true := by
    rw [List.all_eq_true]
    exact fun c hc =>
      List.all_eq_true.1 (Keyword.second_word hsecond).1 c (List.mem_of_mem_drop hc)
  have hdrop : ("async".toList ++ (blank :: blanks) ++ second ++ rest).drop keyword.text.length =
      blanks.drop second.length ++ (second.drop (second.length - blanks.length) ++ rest) := by
    rw [hlength, List.append_assoc, List.append_assoc, List.drop_length_add_append,
      List.cons_append, Nat.add_comm 1, List.drop_succ_cons, List.drop_append, List.drop_append,
      show second.length - blanks.length - second.length = 0 by omega, List.drop_zero]
  rw [hdrop, Text.words_blank hblanks, Text.words_append hword hrest, List.countP_append,
    Nat.add_comm, List.length_cons, Nat.add_sub_cancel]
  congr 1
  split
  · rename_i hnil
    rw [hnil]
    rfl
  · rw [List.countP_singleton]

end AsyncKeyword

namespace LogicalLine

/-- Each decision is counted once, and the second word of a wide loop once more. -/
theorem decisions_eq {line : LogicalLine}
    (h : ∀ keyword ∈ line.keyword, Keyword.read? line.code = some keyword) :
    line.decisions = line.paths + if line.isWideLoop then 1 else 0 := by
  cases hkeyword : line.keyword with
  | none => simp [decisions, paths, pathsOf, isWideLoop, hkeyword, afterKeyword]
  | some keyword =>
    have hopens := Keyword.read?_eq_some.1 (h keyword hkeyword)
    generalize hcode : line.code = code at hopens
    cases hopens with
    | @word hsimple rest hrest =>
      have hword := Text.wordAt_eq_iff.2
        ⟨Keyword.all_isWordChar_of_simple keyword hsimple, rfl, hrest⟩
      have hdrop : (keyword.text.toList ++ rest).drop keyword.text.length = rest := by
        rw [← String.length_toList, List.drop_left]
      have hsync : ∀ keyword ∈ Keyword.simple,
          keyword.isAsync = false ∧ keyword ≠ .asyncForKw := by decide
      simp [decisions, paths, pathsOf, isWideLoop, hkeyword, hcode, afterKeyword,
        hsync keyword hsimple, hword, hdrop]
    | @async gap second rest hsecond hgap hrest =>
      obtain ⟨hafter, hblanks⟩ := wordAt_async hsecond hgap hrest
      have hwide : isDecisionWord (second.drop (second.length - (gap.length - 1))) =
          line.isWideLoop := by
        have hthree : 2 ≤ gap.length - 1 ↔ 3 ≤ gap.length := by omega
        simp only [isDecisionWord_drop hsecond, isWideLoop, hkeyword, hcode, hblanks,
          Option.some.injEq, hthree]
      simp only [decisions, paths, pathsOf, hkeyword, hcode, hafter, Option.map_some,
        Option.getD_some, countP_words_drop hsecond hgap hrest, hwide]
      omega

end LogicalLine

/-- The complexity of statements, from their decisions and the wide loops among them. -/
theorem complexity_eq {lines : List LogicalLine}
    (h : ∀ line ∈ lines, ∀ keyword ∈ line.keyword, Keyword.read? line.code = some keyword) :
    complexity lines =
      1 + (lines.map LogicalLine.paths).sum + lines.countP LogicalLine.isWideLoop := by
  have hfold (start : Nat) : lines.foldl (fun paths line => paths + line.decisions) start =
      start + (lines.map LogicalLine.paths).sum + lines.countP LogicalLine.isWideLoop := by
    induction lines generalizing start with
    | nil => simp
    | cons line lines ih =>
      obtain ⟨hline, hlines⟩ := List.forall_mem_cons.1 h
      rw [List.foldl_cons, ih hlines, LogicalLine.decisions_eq hline, List.map_cons, List.sum_cons,
        List.countP_cons]
      omega
  exact hfold 1

/-! ### The keywords of an outline -/

/-- A line with a keyword starts with it. -/
theorem read?_of_outline {unit : SourceUnit} {outline : Outline}
    (houtline : Outline.ofUnit unit = .ok outline) :
    ∀ line ∈ outline.lines, ∀ keyword ∈ line.keyword,
      Keyword.read? line.code = some keyword := by
  obtain ⟨masked, b, -, hsteps, rfl⟩ := Outline.ofUnit_eq_ok.1 houtline
  refine Builder.invariant (P := fun b => ∀ line ∈ b.lines, ∀ keyword ∈ line.keyword,
    Keyword.read? line.code = some keyword) hsteps (by simp [Builder.empty]) ?_
  intro b statement b' header element hb added line hline keyword hkeyword
  rw [added.lines, Array.mem_push] at hline
  rcases hline with hline | rfl
  · exact hb line hline keyword hkeyword
  · obtain ⟨own, rfl, rfl⟩ := Option.map_eq_some_iff.1 hkeyword
    exact Keyword.read?_eq_some.2 (Header.read_eq_some.1 added.read).1

end CodeGrade
