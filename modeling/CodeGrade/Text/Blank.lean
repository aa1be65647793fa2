/-!
# Blank characters

The characters that count as blank when a text is trimmed or split, and the trimming of a text.

A *text* is a list of characters throughout the library; strings appear only where a name or a
message leaves it.

## Main definitions

* `Text.isBlank`: the twenty-five blank characters.
* `Text.isLineBreak`: the characters at which a line may end.
* `Text.trim`: a text without the blanks around it.
-/

namespace CodeGrade.Text

/-- The blank characters: the ASCII ones (tab to carriage return, and the space), the no-break
space, the spaces of the Unicode category `Zs`, the two Unicode separators, and the byte order
mark. -/
def isBlank (c : Char) : Bool :=
  let n := c.toNat
  (9 ≤ n && n ≤ 13) || n == 0x20 || n == 0xA0 || n == 0x1680 || (0x2000 ≤ n && n ≤ 0x200A) ||
    n == 0x2028 || n == 0x2029 || n == 0x202F || n == 0x205F || n == 0x3000 || n == 0xFEFF

/-- The characters that end a line of prose: line feed, carriage return and the two Unicode
separators. -/
def isLineBreak (c : Char) : Bool :=
  c == '\n' || c == '\r' || c.toNat == 0x2028 || c.toNat == 0x2029

/-- The text without its leading blanks. -/
def trimStart (text : List Char) : List Char := text.dropWhile isBlank

/-- The text without its trailing blanks. -/
def trimEnd (text : List Char) : List Char := (text.reverse.dropWhile isBlank).reverse

/-- The text without the blanks around it. -/
def trim (text : List Char) : List Char := trimEnd (trimStart text)

/-- Whether the text holds nothing but blanks. -/
def allBlank (text : List Char) : Bool := text.all isBlank

/-- The text without any of its blanks. -/
def dropBlanks (text : List Char) : List Char := text.filter (!isBlank ·)

end CodeGrade.Text
