import CodeGrade.Source.Header

/-!
# Parameter lists

The parameters of a function, read from the masked code of its header.

## Main definitions

* `Parameter`: a parameter's name, annotation and default.
* `splitArguments`: the pieces of a bracketed list and what follows its closing bracket.
* `Parameter.read?`: the parameter that a piece describes.
* `functionHeader?`, `className?`: the name in a definition's header.
-/

namespace CodeGrade

/-- A parameter of a function. The default is masked code. -/
structure Parameter where
  name : List Char
  annotated : Bool
  defaultValue : Option (List Char)
  deriving DecidableEq, Repr

/-- The pieces between the commas of a bracketed list, and what follows its closing bracket. The
text starts after the opening bracket; `depth` counts the brackets open inside the list, and
`current` holds the characters of the current piece, last one first. -/
def splitArguments (depth : Nat) (current : List Char) :
    List Char → Option (List (List Char) × List Char)
  | [] => none
  | c :: rest =>
    if isOpener c then splitArguments (depth + 1) (c :: current) rest
    else if isCloser c then
      match depth with
      | 0 => some ([current.reverse], rest)
      | depth + 1 => splitArguments depth (c :: current) rest
    else if c = ',' ∧ depth = 0 then
      (splitArguments 0 [] rest).map fun (pieces, rest) => (current.reverse :: pieces, rest)
    else splitArguments depth (c :: current) rest

/-- The text before and after the first `target` outside all brackets; `depth` counts the brackets
open before the text. -/
def splitTopFrom (target : Char) (depth : Int) : List Char → Option (List Char × List Char)
  | [] => none
  | c :: rest =>
    let go (depth : Int) := (splitTopFrom target depth rest).map fun (l, r) => (c :: l, r)
    if isOpener c then go (depth + 1)
    else if isCloser c then go (depth - 1)
    else if c = target ∧ depth = 0 then some ([], rest)
    else go depth

/-- The text before and after the first `target` outside all brackets. -/
def splitTop (target : Char) (text : List Char) : Option (List Char × List Char) :=
  splitTopFrom target 0 text

/-- The text without the one or two stars at its start. -/
def dropStars : List Char → List Char
  | '*' :: '*' :: rest => rest
  | '*' :: rest => rest
  | text => text

/-- The parameter that a piece of a parameter list describes. Empty pieces and the markers `*` and
`/` describe none. -/
def Parameter.read? (piece : List Char) : Option Parameter :=
  let text := Text.trim piece
  if text = [] ∨ text = ['*'] ∨ text = ['/'] then none
  else
    let (left, default?) :=
      match splitTop '=' text with
      | some (left, right) => (left, some (Text.trim right))
      | none => (text, none)
    let (name, annotated) :=
      match splitTop ':' left with
      | some (name, _) => (name, true)
      | none => (left, false)
    some ⟨Text.trim (dropStars name), annotated, default?⟩

/-- What follows the blanks at the start of a text, of which there must be one. -/
def afterBlanks? (text : List Char) : Option (List Char) :=
  if text.head?.any Text.isBlank then some (Text.trimStart text) else none

/-- What follows a list in square brackets, which ends at the first closing one. A text without
the list is left as it is. -/
def afterTypeParameters? (text : List Char) : Option (List Char) :=
  match text with
  | '[' :: rest =>
    match rest.dropWhile (· ≠ ']') with
    | _ :: rest => some (Text.trimStart rest)
    | [] => none
  | text => some text

/-- The name of a function and what follows the opening bracket of its parameter list. -/
def functionHeader? (code : List Char) : Option (List Char × List Char) := do
  let code ←
    match Text.afterString? "async" code with
    | some rest => afterBlanks? rest
    | none => some code
  let rest ← Text.afterString? "def" code
  let rest ← afterBlanks? rest
  let (name, rest) ← Text.nameAt? rest
  let rest ← afterTypeParameters? (Text.trimStart rest)
  let rest ← Text.after? ['('] rest
  some (name, rest)

/-- The name of a class. -/
def className? (code : List Char) : Option (List Char) := do
  let rest ← Text.afterString? "class" code
  let rest ← afterBlanks? rest
  let (name, _) ← Text.nameAt? rest
  some name

end CodeGrade
