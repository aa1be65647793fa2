import CodeGrade.Source.Metrics
import CodeGrade.Source.Parameter

/-!
# The outline of a source unit

Statements are nested by their indentation: a header whose body does not stand on its own line
opens a block, which holds the statements below it that are indented further. Functions and classes
become the elements of the outline.

## Main definitions

* `Element`: a function or a class.
* `LogicalLine`: a statement with its place in the outline.
* `Builder`, `Builder.step`: the outline of the statements read so far.
* `Outline`, `Outline.ofUnit`: the outline of a source unit.
-/

namespace CodeGrade

/-- The sorts of elements. -/
inductive ElementKind where
  | function
  | classDef
  deriving DecidableEq, Repr

/-- The name of a sort of elements. -/
def ElementKind.name : ElementKind → String
  | .function => "function"
  | .classDef => "class"

/-- A function or a class. `depth` counts the elements around it, and `parent` is the place of the
innermost of them in the list of elements. -/
structure Element where
  name : List Char
  kind : ElementKind
  startLine : Nat
  endLine : Nat
  depth : Nat
  hasDocstring : Bool
  hasTypeHints : Bool
  params : List Parameter
  decorators : List (List Char)
  parent : Option Nat
  isMethod : Bool
  deriving DecidableEq, Repr

/-- The number of lines of an element. -/
def Element.length (element : Element) : Nat := element.endLine - element.startLine + 1

/-- Whether the element is a function. -/
def Element.isFunction (element : Element) : Bool := element.kind = .function

/-- Whether the element is a class. -/
def Element.isClass (element : Element) : Bool := element.kind = .classDef

/-- A statement with its place in the outline: the keyword if it is a header, whether a block
starts below it, the headers around it (outermost first) and the innermost element whose body
holds it. -/
structure LogicalLine where
  index : Nat
  startLine : Nat
  endLine : Nat
  indent : Nat
  code : List Char
  keyword : Option Keyword
  opensBlock : Bool
  parents : List Nat
  owner : Option Nat
  deriving DecidableEq, Repr

/-- A comment and the line on which it stands. -/
structure Comment where
  line : Nat
  text : List Char
  deriving DecidableEq, Repr

/-- An open block: the indentation and the place of its header, and the element it is the body of,
if any. -/
structure Frame where
  indent : Nat
  index : Nat
  element : Option Nat
  deriving DecidableEq, Repr

/-- Where a new element stands. -/
structure Placement where
  depth : Nat
  parent : Option Nat
  inClass : Bool
  decorators : List (List Char)
  deriving DecidableEq, Repr

/-- Whether a parameter's annotation counts as a type hint of the function: that of `self` and
`cls` does not. -/
def Parameter.isHinted (p : Parameter) : Bool :=
  p.annotated && p.name != "self".toList && p.name != "cls".toList

/-- The element that a header defines. -/
def Element.ofHeader (statement : Statement) (header : Header) (place : Placement) :
    Except Fault Element :=
  let definition (name : List Char) (kind : ElementKind) (hasTypeHints : Bool)
      (params : List Parameter) : Element :=
    { name, kind, hasTypeHints, params
      startLine := statement.startLine
      endLine := statement.endLine
      depth := place.depth
      hasDocstring := isStringStatement header.inlineBody
      decorators := place.decorators
      parent := place.parent
      isMethod := place.inClass && kind = .function }
  let class? := if header.keyword = .classKw then className? statement.code else none
  match class? with
  | some name => .ok (definition name .classDef false [])
  | none =>
    match functionHeader? statement.code with
    | none => .error ⟨statement.startLine, .malformedHeader⟩
    | some (name, list) =>
      match splitArguments 0 [] list with
      | none => .error ⟨statement.startLine, .openParameters⟩
      | some (pieces, rest) =>
        let params := pieces.filterMap Parameter.read?
        let untilColon := rest.take (header.colon - (statement.code.length - rest.length))
        let hinted := Text.contains ['-', '>'] untilColon || params.any Parameter.isHinted
        .ok (definition name .function hinted params)

/-- The outline of the statements read so far: the elements, the logical lines, the open blocks
(innermost first), the decorators for the next definition, the header whose block must start with
the next statement, and the element whose docstring it may be. -/
structure Builder where
  elements : Array Element
  lines : Array LogicalLine
  frames : List Frame
  decorators : List (List Char)
  awaiting : Option LogicalLine
  documenting : Option Nat

namespace Builder

/-- Nothing has been read. -/
def empty : Builder := ⟨#[], #[], [], [], none, none⟩

/-- The fault of a header whose block is missing, if one is awaited and the next statement, with
the given indentation, does not start it. -/
def missingBlock? (awaiting : Option LogicalLine) (indent : Option Nat) : Option Fault :=
  awaiting.bind fun header =>
    if indent.any (header.indent < ·) then none else some ⟨header.startLine, .missingBlock⟩

/-- The blocks that stay open at a statement with the given indentation. -/
def enclosing (frames : List Frame) (indent : Nat) : List Frame :=
  frames.dropWhile fun frame => indent ≤ frame.indent

/-- The elements whose bodies hold a statement inside the given blocks, innermost first. -/
def owners (frames : List Frame) : List Nat := frames.filterMap (·.element)

/-- Lets the elements around a statement end no earlier than it does. -/
def stretch (elements : Array Element) (owners : List Nat) (endLine : Nat) : Array Element :=
  owners.foldl (fun elements i => elements.modify i fun e => { e with endLine }) elements

/-- Notes whether the first statement of an element's body is its docstring. -/
def document (elements : Array Element) (documenting : Option Nat) (code : List Char) :
    Array Element :=
  match documenting with
  | some i => elements.modify i fun e => { e with hasDocstring := isStringStatement code }
  | none => elements

/-- The decorators for the definition after a statement. -/
def nextDecorators (decorators : List (List Char)) (code : List Char) : List (List Char) :=
  match code with
  | '@' :: rest => decorators ++ [Text.trim rest]
  | _ => []

/-- The logical line of a statement inside the given blocks. -/
def logicalLine (index : Nat) (frames : List Frame) (statement : Statement)
    (header : Option Header) : LogicalLine where
  index
  startLine := statement.startLine
  endLine := statement.endLine
  indent := statement.indent
  code := statement.code
  keyword := header.map (·.keyword)
  opensBlock := header.any (·.inlineBody.isEmpty)
  parents := (frames.map (·.index)).reverse
  owner := (owners frames).head?

/-- Adds the element that a header defines, if it defines one; with the element's place. -/
def define (elements : Array Element) (frames : List Frame) (decorators : List (List Char))
    (statement : Statement) (header : Option Header) :
    Except Fault (Array Element × Option Nat) :=
  match header.filter (·.keyword.isDefinition) with
  | none => .ok (elements, none)
  | some header => do
    let owner := (owners frames).head?
    let parent := owner.bind (elements[·]?)
    let element ← Element.ofHeader statement header
      { depth := (owners frames).length
        parent := owner
        inClass := parent.any (·.isClass)
        decorators }
    .ok (elements.push element, some elements.size)

/-- Adds a statement to the outline. -/
def step (b : Builder) (statement : Statement) : Except Fault Builder :=
  match missingBlock? b.awaiting (some statement.indent) with
  | some fault => .error fault
  | none => do
    let frames := enclosing b.frames statement.indent
    let elements := document (stretch b.elements (owners frames) statement.endLine)
      b.documenting statement.code
    let header ← Header.read statement
    let line := logicalLine b.lines.size frames statement header
    let (elements, element) ← define elements frames b.decorators statement header
    .ok {
      elements
      lines := b.lines.push line
      frames := if line.opensBlock then ⟨statement.indent, line.index, element⟩ :: frames else frames
      decorators := nextDecorators b.decorators statement.code
      awaiting := if line.opensBlock then some line else none
      documenting := if line.opensBlock then element else none }

/-- Adds statements to the outline, in order. -/
def steps (b : Builder) : List Statement → Except Fault Builder
  | [] =>
    match missingBlock? b.awaiting none with
    | some fault => .error fault
    | none => .ok b
  | statement :: rest => do
    let b ← b.step statement
    b.steps rest

end Builder

/-- The outline of a source unit: its elements in order of their headers, its statements, its
comments and its metrics. -/
structure Outline where
  elements : Array Element
  lines : Array LogicalLine
  comments : List Comment
  metrics : Metrics

/-- The comments of masked lines. -/
def commentsOf (lines : List MaskedLine) : List Comment :=
  lines.filterMap fun line => line.comment.map fun text => ⟨line.number, text⟩

/-- The outline of a source unit. -/
def Outline.ofUnit (unit : SourceUnit) : Except Fault Outline := do
  let masked ← mask unit
  let b ← Builder.empty.steps (joinLines masked)
  let elements := b.elements.toList
  let lengths := (elements.filter (·.isFunction)).map (·.length)
  .ok {
    elements := b.elements
    lines := b.lines
    comments := commentsOf masked
    metrics := (Metrics.ofLines unit.lines).withElements lengths (elements.countP (·.isClass)) }

end CodeGrade
