import CodeGrade.Rule.Basic
import CodeGrade.Text.LowerCase

/-!
# The rule on names

Functions are named in `snake_case` and classes in `CapWords`.

## Main definitions

* `isSnakeCase`, `isCapWords`: the two conventions.
* `toSnakeCase`: a function's name as the convention has it.
-/

namespace CodeGrade

/-- The name without its leading underscores, of which there may be two. -/
def withoutMarks? (name : List Char) : Option (List Char) :=
  let rest := name.dropWhile (· == '_')
  if name.length ≤ rest.length + 2 then some rest else none

/-- Whether a name consists of small letters, digits and underscores, and starts with a letter
after up to two underscores. -/
def isSnakeCase (name : List Char) : Bool :=
  (withoutMarks? name).any fun rest =>
    rest.head?.any Text.isSmall &&
      rest.all fun c => Text.isSmall c || Text.isDigit c || c == '_'

/-- Whether a name consists of letters and digits, and starts with a capital after up to two
underscores. -/
def isCapWords (name : List Char) : Bool :=
  (withoutMarks? name).any fun rest =>
    rest.head?.any Text.isCapital && rest.all Text.isAlphanumeric

/-- Whether a name has two underscores on both sides. -/
def isDunder (name : List Char) : Bool :=
  5 ≤ name.length && name.all Text.isWordChar && ['_', '_'].isPrefixOf name &&
    ['_', '_'].isSuffixOf name

/-- The names that test frameworks prescribe. -/
def frameworkHooks : List String :=
  ["setUp", "tearDown", "setUpClass", "tearDownClass", "setUpModule", "tearDownModule", "asyncSetUp",
    "asyncTearDown", "addCleanup"]

/-- Separates a capital from the small letter or digit before it. -/
def splitHumps : List Char → List Char
  | a :: b :: rest =>
    if (Text.isSmall a || Text.isDigit a) && Text.isCapital b then
      a :: '_' :: splitHumps (b :: rest)
    else a :: splitHumps (b :: rest)
  | text => text

/-- Separates the last of several capitals from those before it, if a small letter follows. -/
def splitAcronyms : List Char → List Char
  | a :: b :: c :: rest =>
    if Text.isCapital a && Text.isCapital b && Text.isSmall c then
      a :: '_' :: splitAcronyms (b :: c :: rest)
    else a :: splitAcronyms (b :: c :: rest)
  | text => text

/-- A name with its words separated by underscores, in small letters. -/
def toSnakeCase (name : List Char) : List Char := Text.toLower (splitAcronyms (splitHumps name))

/-- Whether a function may have the name. -/
def isFunctionName (name : List Char) : Bool :=
  isSnakeCase name || isDunder name || frameworkHooks.any (·.toList = name)

/-- Functions and classes whose names break the conventions. -/
def misnamedElements (c : Context) : List Match :=
  c.outline.elements.toList.filterMap fun e =>
    let name := String.ofList e.name
    match e.kind with
    | .function =>
      if isFunctionName e.name then none
      else
        let better := String.ofList (toSnakeCase e.name)
        some {
          line := e.startLine
          message := s!"Function '{name}' should use snake_case"
          suggestion := some s!"Rename to '{better}'" }
    | .classDef =>
      if isCapWords e.name then none
      else some { line := e.startLine, message := s!"Class '{name}' should use CapWords" }

/-- The rule on names. -/
def namingRule : Rule :=
  .ofCheck "naming-convention" "Naming Convention" .maintainability .low
    "Function not in snake_case or class not in CapWords" misnamedElements

end CodeGrade
