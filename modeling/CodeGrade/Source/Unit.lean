/-!
# Source units

A source unit is a named text, held as its physical lines. Lines end at a carriage return, a line
feed, or both together; an end of line at the end of the text closes the last line and starts no
other.

## Main definitions

* `SourceUnit`: a named list of lines.
* `splitLines`: the lines of a text.
* `indentWidth`: the column at which the first character of a line stands.
-/

namespace CodeGrade

/-- A named source text. Line `n` of it is the entry `n - 1` of `lines`. -/
structure SourceUnit where
  name : String
  lines : List (List Char)
  deriving DecidableEq, Repr

/-- The pieces of a text between its line ends; `current` holds the characters of the current
piece, last one first. -/
def linePieces (current : List Char) : List Char → List (List Char)
  | [] => [current.reverse]
  | '\r' :: '\n' :: rest => current.reverse :: linePieces [] rest
  | '\r' :: rest => current.reverse :: linePieces [] rest
  | '\n' :: rest => current.reverse :: linePieces [] rest
  | c :: rest => linePieces (c :: current) rest

/-- The lines of a text. The empty text has none. -/
def splitLines (text : List Char) : List (List Char) :=
  let pieces := linePieces [] text
  if pieces.getLast? == some [] then pieces.dropLast else pieces

/-- The source unit with a given text. -/
def SourceUnit.ofText (name text : String) : SourceUnit := ⟨name, splitLines text.toList⟩

/-- The column reached by reading indentation from column `width`: a blank moves one column on, a
tab to the next multiple of eight, and a form feed back to the start. -/
def indentFrom (width : Nat) : List Char → Nat
  | [] => width
  | c :: rest =>
    if c = ' ' then indentFrom (width + 1) rest
    else if c = '\t' then indentFrom (width + (8 - width % 8)) rest
    else if c = '\x0c' then indentFrom 0 rest
    else width

/-- The column at which the first character of a line stands. -/
def indentWidth (line : List Char) : Nat := indentFrom 0 line

end CodeGrade
