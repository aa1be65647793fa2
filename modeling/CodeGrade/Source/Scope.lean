import CodeGrade.Source.Outline

/-!
# Looking around in an outline

Which statements belong to an element, which blocks enclose a statement, and what a loop runs
over.

## Main definitions

* `Outline.functions`, `Outline.ownLines`: functions and the statements of their bodies.
* `Outline.controlParents`: the control blocks around a statement, within its function.
* `Outline.bodyOf`: the statements below a header.
* `LogicalLine.iterable?`: what a loop runs over.
-/

namespace CodeGrade

namespace LogicalLine

/-- Whether the line defines a function or a class. -/
def isElementHeader (line : LogicalLine) : Bool := line.keyword.any Keyword.isDefinition

/-- Whether the line is the header of a loop over a collection. -/
def isForLoop (line : LogicalLine) : Bool := line.keyword.any Keyword.isForLoop

/-- The code after the colon of the line's header. -/
def inlineBody (line : LogicalLine) : List Char := CodeGrade.inlineBody line.code

end LogicalLine

namespace Outline

/-- The functions of an outline, with their places among the elements. -/
def functions (outline : Outline) : List (Element × Nat) :=
  outline.elements.toList.zipIdx.filter fun (element, _) => element.isFunction

/-- The statements that belong to an element itself, and not to an element inside it. -/
def ownLines (outline : Outline) (element : Nat) : List LogicalLine :=
  outline.lines.toList.filter fun line => line.owner = some element

/-- Adds the header at a place to a chain of control blocks. A definition starts a new chain. -/
def extendChain (outline : Outline) (chain : List LogicalLine) (index : Nat) : List LogicalLine :=
  match outline.lines[index]? with
  | some header => if header.isElementHeader then [] else chain ++ [header]
  | none => chain

/-- The control blocks around a statement, outermost first, up to the innermost definition around
it. -/
def controlParents (outline : Outline) (line : LogicalLine) : List LogicalLine :=
  line.parents.foldl outline.extendChain []

/-- The statements inside the block below a header. -/
def bodyOf (outline : Outline) (header : LogicalLine) : List LogicalLine :=
  outline.lines.toList.filter fun line => line.parents.contains header.index

end Outline

/-! ### What a loop runs over -/

/-- The text after the word `in` and blanks around it, if `text` starts with them and more than the
blanks follows. If nothing but blanks follows, the last of them is taken for it, provided that one
is left. -/
def afterIn? (text : List Char) : Option (List Char) := do
  let rest ← afterBlanks? text
  let rest ← Text.afterString? "in" rest
  let collection ← afterBlanks? rest
  let collection :=
    if collection.isEmpty && 2 ≤ rest.length then rest.drop (rest.length - 1) else collection
  if collection.isEmpty || collection.any Text.isLineBreak then none else some collection

/-- The text after the first `in` in `text`; the part before it holds no line break. -/
def collectionFrom? : List Char → Option (List Char)
  | [] => afterIn? []
  | c :: rest =>
    match afterIn? (c :: rest) with
    | some collection => some collection
    | none => if Text.isLineBreak c then none else collectionFrom? rest

/-- The text after the first `in` that follows a loop variable, which has at least one
character. -/
def afterVariable? : List Char → Option (List Char)
  | [] => none
  | c :: rest => if Text.isLineBreak c then none else collectionFrom? rest

/-- The collection of a loop, from the text after the word `for`. The blanks before the variable
are left out as far as possible, but one of them may have to serve as the variable. -/
def loopCollection? : List Char → Option (List Char)
  | [] => none
  | c :: rest =>
    if Text.isBlank c then
      match loopCollection? rest with
      | some collection => some collection
      | none => afterVariable? rest
    else none

/-- What follows the word `for`, or `async` and `for`, at the start of a text. -/
def afterFor? (code : List Char) : Option (List Char) := do
  let code ←
    match Text.afterString? "async" code with
    | some rest => afterBlanks? rest
    | none => some code
  Text.afterString? "for" code

/-- What a loop runs over, written without blanks. -/
def LogicalLine.iterable? (line : LogicalLine) : Option (List Char) := do
  let header :=
    match headerColon? line.code with
    | some colon => line.code.take colon
    | none => line.code
  let rest ← afterFor? header
  let collection ← loopCollection? rest
  some (Text.dropBlanks collection)

end CodeGrade
