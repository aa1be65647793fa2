import CodeGrade.Rule.Basic
import CodeGrade.Rule.Call
import CodeGrade.Source.Parameter
import CodeGrade.Text.Units

/-!
# Rules on style

Unresolved markers in comments, prints, long lines, wildcard imports and mutable defaults.
-/

namespace CodeGrade

/-! ### Markers in comments -/

/-- The words that mark something unresolved. -/
def todoMarkers : List String := ["TODO", "FIXME", "HACK", "XXX"]

/-- Whether a comment holds a marker as a word of its own. -/
def holdsMarker (text : List Char) : Bool :=
  (Text.words text).any fun word => todoMarkers.any (·.toList = word)

/-- A comment without its sign and the blanks around it. -/
def commentBody (text : List Char) : List Char :=
  match text with
  | '#' :: rest => Text.trim rest
  | text => Text.trim text

/-- Comments that mark something unresolved. -/
def unresolvedMarkers (c : Context) : List Match :=
  (c.outline.comments.filter fun comment => holdsMarker comment.text).map fun comment =>
    let body := String.ofList (commentBody comment.text)
    { line := comment.line
      message := s!"Unresolved marker: {body}"
      evidence := some (String.ofList comment.text) }

/-! ### Prints -/

/-- Statements that print. -/
def prints (c : Context) : List Match :=
  (c.outline.lines.toList.filter fun line => calls [.free "print"] line.code).map fun line =>
    { line := line.startLine
      message := "Consider using logging instead of print()"
      evidence := some (String.ofList line.code)
      suggestion := some "logger = logging.getLogger(__name__); logger.info(...)" }

/-! ### Long lines -/

/-- Physical lines longer than the limit. -/
def longLines (c : Context) : List Match :=
  let limit := c.thresholds.maxLineLength
  (c.unit.lines.zipIdx 1).filterMap fun (raw, number) =>
    let length := Text.unitLength raw
    if length > limit then
      let shown := Decimal.natText limit
      some { line := number, message := s!"Line is {length} characters (>{shown})" }
    else none

/-! ### Wildcard imports -/

/-- Whether the code imports all names of a module. -/
def isWildcardImport (code : List Char) : Bool :=
  (do
    let rest ← Text.afterString? "from" code
    let rest ← afterBlanks? rest
    let rest ← if rest.isEmpty then none else afterBlanks? (rest.dropWhile (!Text.isBlank ·))
    let rest ← Text.afterString? "import" rest
    let rest ← afterBlanks? rest
    Text.after? ['*'] rest).isSome

/-- Statements that import all names of a module. -/
def wildcardImports (c : Context) : List Match :=
  (c.outline.lines.toList.filter fun line => isWildcardImport line.code).map fun line =>
    { line := line.startLine
      message := "Wildcard import hides where names come from"
      evidence := some (String.ofList line.code)
      suggestion := some "Import the names you use explicitly" }

/-! ### Mutable defaults -/

/-- Whether a text is enclosed by the brackets, without a line break between them. -/
def isEnclosed (bracket : Bracket) (text : List Char) : Bool :=
  match text with
  | c :: rest =>
    c == bracket.opener && rest.getLast? == some bracket.closer &&
      !rest.dropLast.any Text.isLineBreak
  | [] => false

/-- Whether a text is a call of one of the constructors of mutable values, without arguments. -/
def isEmptyConstructor (text : List Char) : Bool :=
  ["list", "dict", "set"].any fun name =>
    ((Text.afterString? (name ++ "(") text).bind (Text.afterChar? ')')) == some []

/-- Whether a default is a value that calls share and may change. -/
def isMutable (text : List Char) : Bool :=
  isEnclosed .square text || isEnclosed .curly text || isEmptyConstructor text

/-- Parameters with a mutable default. -/
def mutableDefaults (c : Context) : List Match :=
  c.outline.elements.toList.flatMap fun e =>
    (e.params.filter fun p => p.defaultValue.any isMutable).map fun p =>
      let parameter := String.ofList p.name
      let name := String.ofList e.name
      { line := e.startLine
        message := s!"Parameter '{parameter}' of '{name}' defaults to a mutable value"
        suggestion := some s!"Default to None and create the value inside '{name}'" }

/-- The rule on markers in comments. -/
def todoRule : Rule :=
  .ofCheck "todo-comment" "Unresolved TODO" .maintainability .low
    "TODO/FIXME/HACK/XXX marker left in a comment" unresolvedMarkers

/-- The rules on practices. -/
def practiceRules : List Rule :=
  [.ofCheck "print-statement" "Print Statement" .bestPractices .low
      "print() used where a logger is expected" prints,
   .ofCheck "line-too-long" "Line Too Long" .bestPractices .low
      "Physical line longer than maxLineLength characters" longLines,
   .ofCheck "wildcard-import" "Wildcard Import" .bestPractices .low
      "from module import *" wildcardImports,
   .ofCheck "mutable-default-argument" "Mutable Default Argument" .bestPractices .medium
      "Parameter default is a list, dict or set shared across calls" mutableDefaults]

end CodeGrade
