import CodeGrade.Text.Blank
import CodeGrade.Text.Word

/-!
# Keywords of compound statements

The keywords that open a block. A statement has a keyword if its first word is one; `async` joins
the word after it.

## Main definitions

* `Keyword`: the keywords.
* `Keyword.read?`: the keyword that a statement starts with.
-/

namespace CodeGrade

/-- The keyword of a compound statement. -/
inductive Keyword where
  | ifKw
  | elifKw
  | elseKw
  | forKw
  | whileKw
  | tryKw
  | exceptKw
  | finallyKw
  | withKw
  | matchKw
  | caseKw
  | defKw
  | classKw
  | asyncDefKw
  | asyncForKw
  | asyncWithKw
  deriving DecidableEq, Repr

namespace Keyword

/-- How the keyword is written, with one blank after `async`. -/
def text : Keyword → String
  | ifKw => "if"
  | elifKw => "elif"
  | elseKw => "else"
  | forKw => "for"
  | whileKw => "while"
  | tryKw => "try"
  | exceptKw => "except"
  | finallyKw => "finally"
  | withKw => "with"
  | matchKw => "match"
  | caseKw => "case"
  | defKw => "def"
  | classKw => "class"
  | asyncDefKw => "async def"
  | asyncForKw => "async for"
  | asyncWithKw => "async with"

/-- The keywords of one word. -/
def simple : List Keyword :=
  [ifKw, elifKw, elseKw, forKw, whileKw, tryKw, exceptKw, finallyKw, withKw, matchKw, caseKw, defKw,
    classKw]

/-- The keyword that a single word is. -/
def ofWord? (word : List Char) : Option Keyword := simple.find? (·.text.toList = word)

/-- The keyword that `async` and the word after it form. -/
def ofAsync? (word : List Char) : Option Keyword :=
  if word = "def".toList then some asyncDefKw
  else if word = "for".toList then some asyncForKw
  else if word = "with".toList then some asyncWithKw
  else none

/-- The keyword that a statement starts with. -/
def read? (code : List Char) : Option Keyword :=
  let (word, rest) := Text.wordAt code
  if word = "async".toList then
    if rest.head?.any Text.isBlank then ofAsync? (Text.wordAt (Text.trimStart rest)).1 else none
  else ofWord? word

/-- Whether the keyword defines a function. -/
def definesFunction : Keyword → Bool
  | defKw | asyncDefKw => true
  | _ => false

/-- Whether the keyword defines a function or a class. -/
def isDefinition : Keyword → Bool
  | defKw | asyncDefKw | classKw => true
  | _ => false

/-- Whether the keyword opens a loop over a collection. -/
def isForLoop : Keyword → Bool
  | forKw | asyncForKw => true
  | _ => false

/-- Whether the keyword opens a block that manages a resource. -/
def isWith : Keyword → Bool
  | withKw | asyncWithKw => true
  | _ => false

/-- Whether the keyword adds a path through the program. -/
def isDecision : Keyword → Bool
  | ifKw | elifKw | forKw | asyncForKw | whileKw | exceptKw | caseKw => true
  | _ => false

end Keyword

end CodeGrade
