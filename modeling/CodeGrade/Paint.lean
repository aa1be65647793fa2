import CodeGrade.Text.Search

/-!
# Painted text

Text in the colours of a terminal. A style opens with one escape sequence and closes with another.
Where a text already holds the closing sequence of a style, the style is opened again after it, and
at the end of each line all styles are closed and opened again on the next one.

## Main definitions

* `Style`: the styles.
* `paint`: a text in given styles.
-/

namespace CodeGrade

/-- A style of text. -/
inductive Style where
  | bold
  | dim
  | red
  | green
  | yellow
  | cyan
  | gray
  deriving DecidableEq, Repr

namespace Style

/-- The escape sequence with a given code. -/
def sequence (code : String) : List Char := '\x1b' :: '[' :: code.toList ++ ['m']

/-- The sequence that opens the style. -/
def opening : Style → List Char
  | bold => sequence "1"
  | dim => sequence "2"
  | red => sequence "31"
  | green => sequence "32"
  | yellow => sequence "33"
  | cyan => sequence "36"
  | gray => sequence "90"

/-- The sequence that closes the style. -/
def closing : Style → List Char
  | bold | dim => sequence "22"
  | red | green | yellow | cyan | gray => sequence "39"

end Style

/-- Inserts `addition` after each occurrence of `mark`. Of the occurrence that is being passed
`pending` characters are left. -/
def insertAfterFrom (mark addition : List Char) (pending : Nat) : List Char → List Char
  | [] => []
  | c :: rest =>
    match pending with
    | 0 =>
      if (Text.after? mark (c :: rest)).isSome then
        c :: insertAfterFrom mark addition (mark.length - 1) rest
      else c :: insertAfterFrom mark addition 0 rest
    | 1 => c :: (addition ++ insertAfterFrom mark addition 0 rest)
    | pending + 2 => c :: insertAfterFrom mark addition (pending + 1) rest

/-- Inserts `addition` after each occurrence of `mark`, which has at least two characters. -/
def insertAfter (mark addition text : List Char) : List Char := insertAfterFrom mark addition 0 text

/-- Inserts `close` before the end of each line and `reopen` after it. -/
def aroundLineEnds (close reopen : List Char) : List Char → List Char
  | [] => []
  | '\r' :: '\n' :: rest => close ++ '\r' :: '\n' :: (reopen ++ aroundLineEnds close reopen rest)
  | c :: rest =>
    if c = '\n' then close ++ '\n' :: (reopen ++ aroundLineEnds close reopen rest)
    else c :: aroundLineEnds close reopen rest

/-- The characters of a text in the given styles, the outermost first. An empty text stays
empty. -/
def paintChars (styles : List Style) (text : List Char) : List Char :=
  if text.isEmpty then []
  else
    let reopened := styles.reverse.foldl (fun text s => insertAfter s.closing s.opening text) text
    let openAll := styles.flatMap Style.opening
    let closeAll := styles.reverse.flatMap Style.closing
    openAll ++ aroundLineEnds closeAll openAll reopened ++ closeAll

/-- The text in the given styles, if colours are wanted. -/
def paint (color : Bool) (styles : List Style) (text : String) : String :=
  if color then String.ofList (paintChars styles text.toList) else text

end CodeGrade
