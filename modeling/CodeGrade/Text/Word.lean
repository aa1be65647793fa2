/-!
# Words and names

Word characters are the ASCII letters, the ASCII digits and the underscore. A word is a maximal
run of them, so a text holds a word exactly where the run stands between two characters that are
not word characters (or at an end of the text).

## Main definitions

* `Text.isWordChar`, `Text.isNameStart`: the character classes.
* `Text.words`: the words of a text, in order.
* `Text.wordAt`: the word that a text starts with, and the rest.
-/

namespace CodeGrade.Text

/-- An ASCII capital letter. -/
def isCapital (c : Char) : Bool := 'A' ≤ c && c ≤ 'Z'

/-- An ASCII small letter. -/
def isSmall (c : Char) : Bool := 'a' ≤ c && c ≤ 'z'

/-- An ASCII digit. -/
def isDigit (c : Char) : Bool := '0' ≤ c && c ≤ '9'

/-- An ASCII letter. -/
def isLetter (c : Char) : Bool := isCapital c || isSmall c

/-- An ASCII letter or digit. -/
def isAlphanumeric (c : Char) : Bool := isLetter c || isDigit c

/-- The characters of words. -/
def isWordChar (c : Char) : Bool := isAlphanumeric c || c == '_'

/-- The characters a name may start with. -/
def isNameStart (c : Char) : Bool := isLetter c || c == '_'

/-- The characters of dotted names. -/
def isDottedChar (c : Char) : Bool := isWordChar c || c == '.'

/-- The longest word that `text` starts with (possibly empty), and what follows it. -/
def wordAt (text : List Char) : List Char × List Char :=
  (text.takeWhile isWordChar, text.dropWhile isWordChar)

/-- The name that `text` starts with, and what follows it. -/
def nameAt? (text : List Char) : Option (List Char × List Char) :=
  match text with
  | c :: _ => if isNameStart c then some (wordAt text) else none
  | [] => none

/-- Collects the words of a text; `current` holds the characters of the word being read, last
one first. -/
def collectWords (current : List Char) : List Char → List (List Char)
  | [] => if current.isEmpty then [] else [current.reverse]
  | c :: rest =>
    if isWordChar c then collectWords (c :: current) rest
    else if current.isEmpty then collectWords [] rest
    else current.reverse :: collectWords [] rest

/-- The words of a text, in order. -/
def words (text : List Char) : List (List Char) := collectWords [] text

end CodeGrade.Text
