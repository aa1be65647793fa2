import CodeGrade.Proofs.HeaderForm
import CodeGrade.Proofs.Nesting
import CodeGrade.Rule.Naming
import Mathlib

/-!
# Suggested names

The rule on names suggests another name for a function: the same letters and digits in small
letters, with underscores between the words. The suggestion follows the convention exactly if the
name has at most two underscores and then a letter. Any other name that the rule reports begins with
a digit after its underscores, has too many of them or nothing else, and what is suggested for it
does too.

## Main definitions

* `Separated`: a text with underscores put into it before capitals.
* `Element.misnamed?`: what the rule on names says about one element.
-/

namespace CodeGrade

/-- The second text is the first one with underscores put into it, between two characters that are
none. -/
inductive Separated : List Char → List Char → Prop where
  | nil : Separated [] []
  | keep {text separated : List Char} (c : Char) (h : Separated text separated) :
      Separated (c :: text) (c :: separated)
  | cut {text separated : List Char} {c : Char} (hc : c ≠ '_')
      (hhead : ∃ next ∈ text.head?, next ≠ '_') (h : Separated text separated) :
      Separated (c :: text) (c :: '_' :: separated)

namespace Separated

variable {text separated : List Char}

theorem head?_eq (h : Separated text separated) : separated.head? = text.head? := by
  cases h <;> rfl

/-- Underscores at the start stay by themselves. -/
theorem exists_eq_marks {n : ℕ} (h : Separated (List.replicate n '_' ++ text) separated) :
    ∃ rest, separated = List.replicate n '_' ++ rest ∧ Separated text rest := by
  induction n generalizing separated with
  | zero => exact ⟨separated, rfl, h⟩
  | succ n ih =>
    rw [List.replicate_succ, List.cons_append] at h
    cases h with
    | keep _ h =>
      obtain ⟨rest, rfl, hrest⟩ := ih h
      exact ⟨rest, rfl, hrest⟩
    | cut hc => exact absurd rfl hc

theorem filter_eq (h : Separated text separated) :
    separated.filter (· ≠ '_') = text.filter (· ≠ '_') := by
  induction h with
  | nil => rfl
  | keep c _ ih => simp only [List.filter_cons, ih]
  | cut hc _ _ ih => simpa [List.filter_cons, hc] using ih

theorem all {p : Char → Bool} (h : Separated text separated) (hmark : p '_' = true)
    (hall : text.all p = true) : separated.all p = true := by
  induction h with
  | nil => rfl
  | keep c _ ih => simp_all
  | cut _ _ _ ih => simp_all

/-- Two underscores at the end were there before. -/
theorem suffix (h : Separated text separated) (hsuffix : ['_', '_'] <:+ separated) :
    ['_', '_'] <:+ text := by
  induction h with
  | nil => exact hsuffix
  | @keep text separated c h ih =>
    rcases List.suffix_cons_iff.1 hsuffix with heq | hsuffix
    · obtain ⟨rfl, rfl⟩ : '_' = c ∧ ['_'] = separated := by simpa using heq
      cases h with
      | keep _ h =>
        cases h
        exact List.suffix_rfl
    · exact (ih hsuffix).trans (List.suffix_cons _ _)
  | @cut text separated c hc hhead h ih =>
    obtain ⟨next, hnext, hne⟩ := hhead
    rw [← h.head?_eq] at hnext
    simp only [List.suffix_cons_iff] at hsuffix
    rcases hsuffix with heq | heq | hsuffix
    · simp [Ne.symm hc] at heq
    · obtain rfl : ['_'] = separated := List.tail_eq_of_cons_eq heq
      exact absurd (Option.some.inj hnext) hne.symm
    · exact (ih hsuffix).trans (List.suffix_cons _ _)

end Separated

theorem separated_refl (text : List Char) : Separated text text := by
  induction text with
  | nil => exact .nil
  | cons c _ ih => exact .keep c ih

theorem ne_underscore_of_isCapital {c : Char} (h : Text.isCapital c = true) : c ≠ '_' := by
  rintro rfl
  exact absurd h (by decide)

theorem separated_splitHumps (text : List Char) : Separated text (splitHumps text) := by
  fun_induction splitHumps text with
  | case1 a b rest h ih =>
    rw [Bool.and_eq_true] at h
    have ha : a ≠ '_' := by
      rintro rfl
      exact absurd h.1 (by decide)
    exact .cut ha ⟨b, rfl, ne_underscore_of_isCapital h.2⟩ ih
  | case2 a b rest h ih => exact .keep a ih
  | case3 text => exact separated_refl text

theorem separated_splitAcronyms (text : List Char) : Separated text (splitAcronyms text) := by
  fun_induction splitAcronyms text with
  | case1 a b c rest h ih =>
    rw [Bool.and_eq_true, Bool.and_eq_true] at h
    exact .cut (ne_underscore_of_isCapital h.1.1)
      ⟨b, rfl, ne_underscore_of_isCapital h.1.2⟩ ih
  | case2 a b c rest h ih => exact .keep a ih
  | case3 text => exact separated_refl text

/-! ### Lower case -/

/-- The characters of names that follow the convention. -/
def isSnakeChar (c : Char) : Bool := Text.isSmall c || Text.isDigit c || c == '_'

namespace Text

/-- What holds of the word characters in a table of code points holds of all word characters. -/
theorem forall_isWordChar {p : Char → Prop}
    (h : ∀ n < 123, isWordChar (Char.ofNat n) = true → p (Char.ofNat n)) {c : Char}
    (hc : isWordChar c = true) : p c := by
  have hrange := toNat_of_isWordChar hc
  have hofNat : Char.ofNat c.toNat = c := Char.ofNat_toNat c
  rw [← hofNat] at hc ⊢
  exact h c.toNat (by omega) hc

theorem isSnakeChar_lowerChar {c : Char} (h : isWordChar c = true) :
    isSnakeChar (lowerChar c) = true :=
  forall_isWordChar (p := fun c => isSnakeChar (lowerChar c) = true) (by decide) h

theorem lowerChar_eq_underscore {c : Char} (h : isWordChar c = true) :
    lowerChar c = '_' ↔ c = '_' :=
  forall_isWordChar (p := fun c => lowerChar c = '_' ↔ c = '_') (by decide) h

theorem isSmall_lowerChar {c : Char} (h : isWordChar c = true) :
    isSmall (lowerChar c) = isLetter c :=
  forall_isWordChar (p := fun c => isSmall (lowerChar c) = isLetter c) (by decide) h

/-- Word characters are made small one by one, whatever stands around them. -/
theorem toLowerFrom_eq_map (before : List Char) {text : List Char}
    (h : text.all isWordChar = true) : toLowerFrom before text = text.map lowerChar := by
  induction text generalizing before with
  | nil => rfl
  | cons c rest ih =>
    rw [List.all_cons, Bool.and_eq_true] at h
    have hrange := toNat_of_isWordChar h.1
    have hdotted : (c.toNat == 0x130) = false := by
      rw [beq_eq_false_iff_ne]
      omega
    have hsigma : (c.toNat == 0x3A3) = false := by
      rw [beq_eq_false_iff_ne]
      omega
    rw [toLowerFrom, ih _ h.2]
    simp [hdotted, hsigma]

theorem toLower_eq_map {text : List Char} (h : text.all isWordChar = true) :
    toLower text = text.map lowerChar :=
  toLowerFrom_eq_map [] h

end Text

/-! ### Underscores at the start -/

/-- A text is nothing but underscores, or it goes on after them. -/
theorem exists_marks (text : List Char) :
    ∃ n, text = List.replicate n '_' ∨
      ∃ first rest, text = List.replicate n '_' ++ first :: rest ∧ first ≠ '_' := by
  induction text with
  | nil => exact ⟨0, .inl rfl⟩
  | cons c text ih =>
    by_cases hc : c = '_'
    · subst hc
      obtain ⟨n, rfl | ⟨first, rest, rfl, hfirst⟩⟩ := ih
      · exact ⟨n + 1, .inl rfl⟩
      · exact ⟨n + 1, .inr ⟨first, rest, rfl, hfirst⟩⟩
    · exact ⟨0, .inr ⟨c, text, rfl, hc⟩⟩

theorem dropWhile_marks (n : ℕ) (rest : List Char) :
    (List.replicate n '_' ++ rest).dropWhile (· == '_') = rest.dropWhile (· == '_') :=
  List.dropWhile_append_of_pos fun c hc => by simp [List.eq_of_mem_replicate hc]

/-- There is one way to part the underscores at the start from the rest. -/
theorem marks_inj {m n : ℕ} {first first' : Char} {rest rest' : List Char} (hfirst : first ≠ '_')
    (hfirst' : first' ≠ '_')
    (h : List.replicate n '_' ++ first :: rest = List.replicate m '_' ++ first' :: rest') :
    n = m ∧ first = first' := by
  have hdrop := congrArg (List.dropWhile (· == '_')) h
  rw [dropWhile_marks, dropWhile_marks, List.dropWhile_cons_of_neg (by simpa using hfirst),
    List.dropWhile_cons_of_neg (by simpa using hfirst')] at hdrop
  obtain ⟨rfl, rfl⟩ := List.cons.inj hdrop
  have hlength := congrArg List.length h
  simp only [List.length_append, List.length_replicate] at hlength
  exact ⟨by omega, rfl⟩

theorem isSnakeCase_marks {n : ℕ} {first : Char} {rest : List Char} (hfirst : first ≠ '_') :
    isSnakeCase (List.replicate n '_' ++ first :: rest) = true ↔
      n ≤ 2 ∧ Text.isSmall first = true ∧ rest.all isSnakeChar = true := by
  have hdrop : (List.replicate n '_' ++ first :: rest).dropWhile (· == '_') = first :: rest := by
    rw [dropWhile_marks, List.dropWhile_cons_of_neg (by simpa using hfirst)]
  have hlength : (List.replicate n '_' ++ first :: rest).length ≤ (first :: rest).length + 2 ↔
      n ≤ 2 := by
    simp only [List.length_append, List.length_replicate]
    omega
  simp only [isSnakeCase, withoutMarks?, hdrop, hlength]
  by_cases hn : n ≤ 2
  · simp only [hn, if_true, Option.any_some, List.head?_cons, List.all_cons]
    grind [isSnakeChar]
  · simp [hn]

/-! ### The suggested name -/

section Suggestion

variable {name : List Char}

theorem toSnakeCase_eq (hname : name.all Text.isWordChar = true) :
    toSnakeCase name = (splitAcronyms (splitHumps name)).map Text.lowerChar ∧
      (splitAcronyms (splitHumps name)).all Text.isWordChar = true := by
  have hhumps := (separated_splitHumps name).all (by decide) hname
  have hall := (separated_splitAcronyms _).all (by decide) hhumps
  exact ⟨Text.toLower_eq_map hall, hall⟩

/-- The suggestion has the letters and digits of the name. -/
theorem filter_toSnakeCase (hname : name.all Text.isWordChar = true) :
    (toSnakeCase name).filter (· ≠ '_') = Text.toLower (name.filter (· ≠ '_')) := by
  obtain ⟨hsnake, hall⟩ := toSnakeCase_eq hname
  have hfiltered : (name.filter (· ≠ '_')).all Text.isWordChar = true := by
    rw [List.all_eq_true] at hname ⊢
    exact fun c hc => hname c (List.mem_of_mem_filter hc)
  have hmark : ∀ c ∈ splitAcronyms (splitHumps name),
      ((fun c => decide (c ≠ '_')) ∘ Text.lowerChar) c = decide (c ≠ '_') := by
    intro c hc
    simp [Text.lowerChar_eq_underscore (List.all_eq_true.1 hall c hc)]
  rw [hsnake, List.filter_map, List.filter_congr hmark, (separated_splitAcronyms _).filter_eq,
    (separated_splitHumps _).filter_eq, Text.toLower_eq_map hfiltered]

theorem all_toSnakeCase (hname : name.all Text.isWordChar = true) :
    (toSnakeCase name).all isSnakeChar = true := by
  obtain ⟨hsnake, hall⟩ := toSnakeCase_eq hname
  rw [hsnake, List.all_map, List.all_eq_true]
  exact fun c hc => Text.isSnakeChar_lowerChar (List.all_eq_true.1 hall c hc)

/-- It has the underscores of the name at the start, and goes on like the name. -/
theorem toSnakeCase_marks {n : ℕ} {rest : List Char}
    (hname : (List.replicate n '_' ++ rest).all Text.isWordChar = true) :
    ∃ tail, toSnakeCase (List.replicate n '_' ++ rest) = List.replicate n '_' ++ tail ∧
      tail.head? = rest.head?.map Text.lowerChar := by
  have hsplit := separated_splitHumps (List.replicate n '_' ++ rest)
  have hacronyms := separated_splitAcronyms (splitHumps (List.replicate n '_' ++ rest))
  obtain ⟨humps, hhumps, hrest⟩ := hsplit.exists_eq_marks
  rw [hhumps] at hacronyms
  obtain ⟨tail, htail, hhead⟩ := hacronyms.exists_eq_marks
  refine ⟨tail.map Text.lowerChar, ?_, ?_⟩
  · rw [(toSnakeCase_eq hname).1, hhumps, htail, List.map_append, List.map_replicate]
    rfl
  · rw [List.head?_map, hhead.head?_eq, hrest.head?_eq]

theorem suffix_of_toSnakeCase (hname : name.all Text.isWordChar = true)
    (h : ['_', '_'] <:+ toSnakeCase name) : ['_', '_'] <:+ name := by
  obtain ⟨hsnake, hall⟩ := toSnakeCase_eq hname
  rw [hsnake, List.suffix_map_iff] at h
  obtain ⟨ending, hending, hmap⟩ := h
  have hmarks : ending = ['_', '_'] := by
    have hmark : ∀ c ∈ ending, c = '_' := by
      intro c hc
      have hlower : Text.lowerChar c = '_' := by
        have := hmap ▸ List.mem_map_of_mem (f := Text.lowerChar) hc
        simpa using this
      exact (Text.lowerChar_eq_underscore (List.all_eq_true.1 hall c (hending.mem hc))).1 hlower
    rw [List.eq_replicate_of_mem hmark, ← List.length_map (f := Text.lowerChar), ← hmap]
    rfl
  subst hmarks
  exact (separated_splitHumps _).suffix ((separated_splitAcronyms _).suffix hending)

theorem not_hook_toSnakeCase (hname : name.all Text.isWordChar = true) :
    frameworkHooks.any (·.toList = toSnakeCase name) = false := by
  have hhooks : ∀ hook ∈ frameworkHooks, hook.toList.all isSnakeChar = false := by decide
  rw [List.any_eq_false]
  intro hook hhook heq
  have hsnake := all_toSnakeCase hname
  rw [← of_decide_eq_true heq, hhooks hook hhook] at hsnake
  exact Bool.false_ne_true hsnake

theorem isDunder_iff : isDunder name = true ↔ 5 ≤ name.length ∧ name.all Text.isWordChar = true ∧
    ['_', '_'] <+: name ∧ ['_', '_'] <:+ name := by
  simp [isDunder, and_assoc]

/-- A name that is set off by underscores on both sides after the change was so before. -/
theorem isDunder_of_toSnakeCase {n : ℕ} {first : Char} {rest : List Char}
    (hname : (List.replicate n '_' ++ first :: rest).all Text.isWordChar = true)
    (hfirst : first ≠ '_')
    (h : isDunder (toSnakeCase (List.replicate n '_' ++ first :: rest)) = true) :
    isDunder (List.replicate n '_' ++ first :: rest) = true := by
  obtain ⟨-, -, hprefix, hsuffix⟩ := isDunder_iff.1 h
  have hsuffix := suffix_of_toSnakeCase hname hsuffix
  obtain ⟨tail, htail, hhead⟩ := toSnakeCase_marks hname
  rw [htail] at hprefix
  have hlower : Text.lowerChar first ≠ '_' := by
    rw [ne_eq, Text.lowerChar_eq_underscore (by simp_all)]
    exact hfirst
  have hn : 2 ≤ n := by
    obtain ⟨more, rfl⟩ := List.head?_eq_some_iff.1 hhead
    by_contra hlt
    have hn : n = 0 ∨ n = 1 := by omega
    rcases hn with rfl | rfl <;> simp [hlower.symm] at hprefix
  have hrest : 2 ≤ rest.length := by
    obtain ⟨body, hbody⟩ := hsuffix
    rcases rest with _ | ⟨second, _ | ⟨third, more⟩⟩
    · have hlast := congrArg List.getLast? hbody
      simp [hfirst.symm] at hlast
    · have hending := (List.append_inj' hbody rfl).2
      simp [hfirst.symm] at hending
    · simp
  refine isDunder_iff.2 ⟨?_, hname, ?_, hsuffix⟩
  · simp only [List.length_append, List.length_replicate, List.length_cons]
    omega
  · obtain ⟨k, rfl⟩ := Nat.exists_eq_add_of_le hn
    exact ⟨List.replicate k '_' ++ first :: rest, by simp [Nat.add_comm 2 k, List.replicate_succ]⟩

/-- The suggestion for a name that breaks the convention follows it if the name has at most two
underscores and then a letter, and only then. -/
theorem isFunctionName_toSnakeCase (hname : name.all Text.isWordChar = true)
    (hreported : isFunctionName name = false) :
    isFunctionName (toSnakeCase name) = true ↔
      ∃ n first rest, name = List.replicate n '_' ++ first :: rest ∧ n ≤ 2 ∧
        Text.isLetter first = true := by
  have hall := all_toSnakeCase hname
  obtain ⟨n, rfl | ⟨first, rest, rfl, hfirst⟩⟩ := exists_marks name
  · -- Nothing but underscores: the name is suggested again.
    have hsame : toSnakeCase (List.replicate n '_') = List.replicate n '_' := by
      rw [← List.append_nil (List.replicate n '_')] at hname ⊢
      obtain ⟨tail, htail, hhead⟩ := toSnakeCase_marks hname
      rw [htail, List.head?_eq_none_iff.1 hhead]
    rw [hsame, hreported]
    refine iff_of_false Bool.false_ne_true ?_
    rintro ⟨m, first, rest, heq, -, hletter⟩
    have hmem : first ∈ List.replicate n '_' := by simp [heq]
    rw [List.eq_of_mem_replicate hmem] at hletter
    exact absurd hletter (by decide)
  · obtain ⟨tail, htail, hhead⟩ := toSnakeCase_marks hname
    obtain ⟨more, rfl⟩ := List.head?_eq_some_iff.1 hhead
    have hword : Text.isWordChar first = true := by simp_all
    have hlower : Text.lowerChar first ≠ '_' := by
      rwa [ne_eq, Text.lowerChar_eq_underscore hword]
    have hmore : more.all isSnakeChar = true := by
      rw [htail] at hall
      simp_all
    have hdunder : isDunder (toSnakeCase (List.replicate n '_' ++ first :: rest)) = false := by
      by_contra hdunder
      have := isDunder_of_toSnakeCase hname hfirst (Bool.eq_true_of_not_eq_false hdunder)
      simp [isFunctionName, this] at hreported
    rw [isFunctionName, hdunder, not_hook_toSnakeCase hname, Bool.or_false, Bool.or_false, htail,
      isSnakeCase_marks hlower, Text.isSmall_lowerChar hword]
    constructor
    · rintro ⟨hn, hletter, -⟩
      exact ⟨n, first, rest, rfl, hn, hletter⟩
    · rintro ⟨m, first', rest', heq, hm, hletter⟩
      have hfirst' : first' ≠ '_' := by
        rintro rfl
        exact absurd hletter (by decide)
      obtain ⟨rfl, rfl⟩ := marks_inj hfirst hfirst' heq
      exact ⟨hm, hletter, hmore⟩

end Suggestion

/-! ### Names that are read -/

theorem Header.isName_signature {header : Header} {code : List Char} {signature : Signature}
    (h : header.signature code = .ok signature) : Text.IsName signature.name := by
  unfold Header.signature at h
  split at h
  · rename_i name hclass
    obtain rfl := Except.ok.inj h
    split at hclass
    · obtain ⟨-, -, -, hname, -⟩ := className?_eq_some.1 hclass
      exact hname
    · cases hclass
  · split at h
    · cases h
    · rename_i name list hfunction
      split at h
      · cases h
      · obtain rfl := Except.ok.inj h
        obtain ⟨-, -, -, -, -, -, -, hname, -⟩ := functionHeader?_eq_some.1 hfunction
        exact hname

/-- The names of the elements of an outline are names. -/
theorem isName_of_mem_elements {unit : SourceUnit} {outline : Outline}
    (houtline : Outline.ofUnit unit = .ok outline) {e : Element} (he : e ∈ outline.elements) :
    Text.IsName e.name := by
  obtain ⟨masked, -, hmask, -⟩ := Outline.ofUnit_eq_ok.1 houtline
  obtain ⟨statement, -, header, hheader⟩ := Outline.exists_header hmask houtline he
  exact Header.isName_signature hheader

theorem Text.IsName.all_isWordChar {name : List Char} (h : Text.IsName name) :
    name.all Text.isWordChar = true := by
  obtain ⟨first, more, rfl, hfirst, hmore⟩ := h
  simp [Text.isWordChar_of_isNameStart hfirst, hmore]

/-! ### What the rule says -/

/-- What the rule on names says about an element. -/
def Element.misnamed? (e : Element) : Option Match :=
  match e.kind with
  | .function =>
    if isFunctionName e.name then none
    else some {
      line := e.startLine
      message := "Function '" ++ String.ofList e.name ++ "' should use snake_case"
      suggestion := some ("Rename to '" ++ String.ofList (toSnakeCase e.name) ++ "'") }
  | .classDef =>
    if isCapWords e.name then none
    else some {
      line := e.startLine
      message := "Class '" ++ String.ofList e.name ++ "' should use CapWords" }

theorem check_namingRule (c : Context) :
    namingRule.check c = .ok (c.outline.elements.toList.filterMap Element.misnamed?) :=
  rfl

/-- The rule looks at each element by itself, and reports a function with a suggestion of the same
letters and digits. Renaming it so ends the report exactly if the name has at most two underscores
and then a letter; otherwise the suggestion is reported too. -/
theorem suggestion_resolves_iff {e : Element} (hkind : e.kind = .function)
    (hname : Text.IsName e.name) {m : Match} (hreported : e.misnamed? = some m) :
    (∀ c, namingRule.check c = .ok (c.outline.elements.toList.filterMap Element.misnamed?)) ∧
      m.suggestion = some ("Rename to '" ++ String.ofList (toSnakeCase e.name) ++ "'") ∧
      (toSnakeCase e.name).filter (· ≠ '_') = Text.toLower (e.name.filter (· ≠ '_')) ∧
      ({ e with name := toSnakeCase e.name }.misnamed? = none ↔
        ∃ n first rest, e.name = List.replicate n '_' ++ first :: rest ∧ n ≤ 2 ∧
          Text.isLetter first = true) := by
  have hword := hname.all_isWordChar
  simp only [Element.misnamed?, hkind] at hreported ⊢
  split at hreported
  · cases hreported
  · rename_i hbroken
    obtain rfl := Option.some.inj hreported
    refine ⟨check_namingRule, rfl, filter_toSnakeCase hword, ?_⟩
    rw [← isFunctionName_toSnakeCase hword (Bool.not_eq_true _ ▸ hbroken)]
    simp

/-- A function whose name is an underscore. -/
def namelessFunction : SourceUnit where
  name := "nameless"
  lines := ["def _():".toList, "  x".toList]

/-- The function in the outline. -/
def namelessElement : Element where
  name := ['_']
  kind := .function
  startLine := 1
  endLine := 2
  depth := 0
  hasDocstring := false
  hasTypeHints := false
  params := []
  decorators := []
  parent := none
  isMethod := false

/-- What the rule says about it: the name that it reports is the one it suggests. -/
def sameNameAgain : Match where
  line := .ofNat 1
  message := "Function '_' should use snake_case"
  suggestion := some "Rename to '_'"

theorem underscore_suggested_again :
    ∃ outline, Outline.ofUnit namelessFunction = .ok outline ∧
      outline.elements = #[namelessElement] ∧
      namingRule.check ⟨namelessFunction, outline, .standard⟩ = .ok [sameNameAgain] ∧
      { namelessElement with name := toSnakeCase namelessElement.name }.misnamed? ≠ none := by
  have hread : (Outline.ofUnit namelessFunction).map (·.elements) = .ok #[namelessElement] := by
    decide +kernel
  obtain ⟨outline, houtline, helements⟩ := ok_map_iff.1 hread
  have hreported : namelessElement.misnamed? = some sameNameAgain := by decide +kernel
  have hname : Text.IsName namelessElement.name := by
    apply isName_of_mem_elements houtline
    simp [helements]
  refine ⟨outline, houtline, helements, ?_, ?_⟩
  · rw [check_namingRule, helements]
    simp [hreported]
  · rw [ne_eq, (suggestion_resolves_iff rfl hname hreported).2.2.2]
    rintro ⟨n, first, rest, heq, -, hletter⟩
    have hmem : first ∈ namelessElement.name := by simp [heq]
    rw [List.mem_singleton.1 hmem] at hletter
    exact absurd hletter (by decide)

end CodeGrade
