/-!
# Escaping of pattern characters

A text in which every character with a meaning in search patterns is preceded by a backslash, so
that the pattern matches the text and nothing else.
-/

namespace CodeGrade.Text

/-- The characters with a meaning in search patterns. -/
def isPatternChar (c : Char) : Bool := ".*+?^$\x7b\x7d()|[]\\".toList.contains c

/-- The pattern that matches exactly `text`. -/
def escapePattern (text : List Char) : List Char :=
  text.flatMap fun c => if isPatternChar c then ['\\', c] else [c]

end CodeGrade.Text
