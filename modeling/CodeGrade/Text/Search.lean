import CodeGrade.Text.Blank
import CodeGrade.Text.Word

/-!
# Searching a text

Reading a literal at the start of a text, and looking for a place in a text where a reader
succeeds. A reader gets the character before the place, so that it can tell whether a word starts
there.

## Main definitions

* `Text.after?`: what follows a literal at the start of a text.
* `Text.first?`: the result of a reader at the leftmost place where it succeeds.
-/

namespace CodeGrade.Text

/-- What follows `literal` in `text`, if `text` starts with it. -/
def after? : (literal text : List Char) → Option (List Char)
  | [], text => some text
  | _ :: _, [] => none
  | l :: literal, c :: text => if l = c then after? literal text else none

/-- The characters of a string literal. -/
abbrev chars (s : String) : List Char := s.toList

/-- What follows the string `literal` in `text`, if `text` starts with it. -/
def afterString? (literal : String) (text : List Char) : Option (List Char) :=
  after? literal.toList text

/-- What follows the blanks (possibly none) at the start of `text` and then the character
`c`. -/
def afterChar? (c : Char) (text : List Char) : Option (List Char) :=
  after? [c] (trimStart text)

/-- Looks for the leftmost place of `text` where `reader` succeeds; `before` is the character that
stands before `text`. -/
def searchFrom? {α : Type} (reader : Option Char → List Char → Option α) (before : Option Char) :
    List Char → Option α
  | [] => reader before []
  | c :: rest =>
    match reader before (c :: rest) with
    | some found => some found
    | none => searchFrom? reader (some c) rest

/-- The result of `reader` at the leftmost place of `text` where it succeeds. -/
def first? {α : Type} (reader : Option Char → List Char → Option α) (text : List Char) : Option α :=
  searchFrom? reader none text

/-- Whether `reader` accepts some place of `text`. -/
def holds (reader : Option Char → List Char → Bool) (text : List Char) : Bool :=
  (first? (fun before rest => if reader before rest then some () else none) text).isSome

/-- Whether `text` contains `literal`. -/
def contains (literal text : List Char) : Bool :=
  holds (fun _ rest => (after? literal rest).isSome) text

/-- Whether a word may start after the character `before`. -/
def startsWord (before : Option Char) : Bool := before.all (!isWordChar ·)

/-- Whether a word ends before `rest`. -/
def endsWord (rest : List Char) : Bool := rest.head?.all (!isWordChar ·)

/-- Whether a name that is not an attribute of something may start after the character
`before`. -/
def startsFreeName (before : Option Char) : Bool := before.all (!isDottedChar ·)

/-- The pieces of `text` between the occurrences of `separator`. -/
def splitOn (separator : Char) (text : List Char) : List (List Char) :=
  go [] text
where
  /-- Splits with the characters of the current piece, last one first, in `current`. -/
  go (current : List Char) : List Char → List (List Char)
    | [] => [current.reverse]
    | c :: rest =>
      if c = separator then current.reverse :: go [] rest else go (c :: current) rest

end CodeGrade.Text
