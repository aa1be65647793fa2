import CodeGrade.Source.Statement
import CodeGrade.Text.Search

/-!
# Headers of compound statements

A compound statement has a header that ends with a colon outside all brackets. What follows the
colon on the same line is the body of a one-line statement.

## Main definitions

* `headerColon?`: where the colon of a header stands.
* `Header`, `Header.read`: the header of a statement.
* `isStringStatement`: whether code is nothing but string literals.
-/

namespace CodeGrade

/-- Looks for the first colon outside all brackets that does not begin `:=`; `depth` counts the
brackets open before the text and `index` the characters. -/
def headerColonFrom (depth : Int) (index : Nat) : List Char → Option Nat
  | [] => none
  | c :: rest =>
    if isOpener c then headerColonFrom (depth + 1) (index + 1) rest
    else if isCloser c then headerColonFrom (depth - 1) (index + 1) rest
    else if c = ':' ∧ depth = 0 ∧ rest.head? ≠ some '=' then some index
    else headerColonFrom depth (index + 1) rest

/-- The number of characters before the colon of a header. -/
def headerColon? (code : List Char) : Option Nat := headerColonFrom 0 0 code

/-- The code after the colon of a header; empty if there is no colon. -/
def inlineBody (code : List Char) : List Char :=
  match headerColon? code with
  | some colon => Text.trim (code.drop (colon + 1))
  | none => []

/-- The header of a compound statement. -/
structure Header where
  keyword : Keyword
  colon : Nat
  inlineBody : List Char
  deriving DecidableEq, Repr

/-- The header of a statement. A statement that starts with a keyword but has no colon uses the
keyword as a name, unless the keyword defines something. -/
def Header.read (statement : Statement) : Except Fault (Option Header) :=
  match Keyword.read? statement.code with
  | none => .ok none
  | some keyword =>
    match headerColon? statement.code with
    | some colon => .ok (some ⟨keyword, colon, Text.trim (statement.code.drop (colon + 1))⟩)
    | none =>
      if keyword.isDefinition then .error ⟨statement.startLine, .missingColon keyword⟩ else .ok none

/-- The letters that may stand before a string literal. -/
def isStringPrefix (c : Char) : Bool := "rRuUbBfF".toList.contains c

/-- What follows the delimiter that a text starts with. -/
def afterDelimiter? : List Char → Option (List Char)
  | [] => none
  | c :: rest =>
    if isQuote c then
      match rest with
      | c₂ :: c₃ :: rest₃ => if c₂ = c ∧ c₃ = c then some rest₃ else some (c₂ :: c₃ :: rest₃)
      | rest => some rest
    else none

/-- What follows a delimiter with up to two letters before it. -/
def afterStringToken? (text : List Char) : Option (List Char) :=
  match text with
  | a :: b :: rest =>
    if isStringPrefix a then
      if isStringPrefix b then afterDelimiter? rest else afterDelimiter? (b :: rest)
    else afterDelimiter? text
  | text => afterDelimiter? text

theorem length_afterDelimiter?_lt {text rest : List Char} (h : afterDelimiter? text = some rest) :
    rest.length < text.length := by
  unfold afterDelimiter? at h
  split at h
  · simp at h
  · rename_i c more
    split at h
    · split at h
      · split at h
        all_goals
          simp only [Option.some.injEq] at h
          subst h
          simp only [List.length_cons]
          omega
      · simp only [Option.some.injEq] at h
        subst h
        simp
    · simp at h

theorem length_afterStringToken?_lt {text rest : List Char}
    (h : afterStringToken? text = some rest) : rest.length < text.length := by
  unfold afterStringToken? at h
  split at h
  · rename_i a b more
    split at h
    · split at h
      · have := length_afterDelimiter?_lt h
        simp only [List.length_cons]
        omega
      · have := length_afterDelimiter?_lt h
        simp only [List.length_cons] at this ⊢
        omega
    · exact length_afterDelimiter?_lt h
  · exact length_afterDelimiter?_lt h

/-- The text without its string delimiters and the letters before them. -/
def dropStringTokens (text : List Char) : List Char :=
  match _h : afterStringToken? text with
  | some rest => dropStringTokens rest
  | none =>
    match text with
    | [] => []
    | c :: rest => c :: dropStringTokens rest
termination_by text.length
decreasing_by
  · exact length_afterStringToken?_lt _h
  · simp

/-- Whether masked code is nothing but string literals, the first of them at its start. -/
def isStringStatement (code : List Char) : Bool :=
  (afterStringToken? code).isSome && Text.allBlank (dropStringTokens code)

end CodeGrade
