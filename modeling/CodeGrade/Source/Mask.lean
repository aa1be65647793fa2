import CodeGrade.Source.Fault
import CodeGrade.Source.Unit

/-!
# Masked lines

A line is masked by leaving out what its string literals contain and by setting its comment apart.
String literals and brackets may stay open from one line to the next, so the lines of a unit are
masked in order, each from where the one before it left off.

## Main definitions

* `Bracket`, `Delimiter`: brackets and the marks around a string literal.
* `MaskedLine`: a line without string contents and comment.
* `scanLine`: masks the characters of one line.
* `mask`: masks the lines of a unit.
-/

namespace CodeGrade

/-- The three sorts of brackets. -/
inductive Bracket where
  | round
  | square
  | curly
  deriving DecidableEq, Repr

namespace Bracket

/-- The opening bracket. -/
def opener : Bracket → Char
  | round => '('
  | square => '['
  | curly => '\x7b'

/-- The closing bracket. -/
def closer : Bracket → Char
  | round => ')'
  | square => ']'
  | curly => '\x7d'

/-- The sort of an opening bracket. -/
def ofOpener? (c : Char) : Option Bracket :=
  if c = '(' then some round else if c = '[' then some square
  else if c = '\x7b' then some curly else none

/-- The sort of a closing bracket. -/
def ofCloser? (c : Char) : Option Bracket :=
  if c = ')' then some round else if c = ']' then some square
  else if c = '\x7d' then some curly else none

end Bracket

/-- Whether the character is an opening bracket. -/
def isOpener (c : Char) : Bool := (Bracket.ofOpener? c).isSome

/-- Whether the character is a closing bracket. -/
def isCloser (c : Char) : Bool := (Bracket.ofCloser? c).isSome

/-- The apostrophe. -/
def apostrophe : Char := '\x27'

/-- Whether the character is a quotation mark. -/
def isQuote (c : Char) : Bool := c = '"' || c = apostrophe

/-- What encloses a string literal: a quotation mark, written once or three times. -/
structure Delimiter where
  mark : Char
  triple : Bool
  deriving DecidableEq, Repr

/-- The delimiter as it is written. -/
def Delimiter.text (d : Delimiter) : List Char :=
  if d.triple then [d.mark, d.mark, d.mark] else [d.mark]

/-- A string literal that has begun: its delimiter and the line of its beginning. -/
structure OpenString where
  delimiter : Delimiter
  line : Nat
  deriving DecidableEq, Repr

/-- A bracket that has been opened, and the line of it. -/
structure OpenBracket where
  bracket : Bracket
  line : Nat
  deriving DecidableEq, Repr

/-- What is open between two lines: a string literal perhaps, and brackets, innermost first. -/
structure Carry where
  string : Option OpenString
  brackets : List OpenBracket
  deriving DecidableEq, Repr

/-- Nothing is open. -/
def Carry.empty : Carry := ⟨none, []⟩

/-- What masking one line gives: the code, the comment, what is open after the line, and whether
the line ends in a backslash, inside a string literal (`escaped`) or outside (`joined`). -/
structure ScannedLine where
  code : List Char
  comment : Option (List Char)
  carry : Carry
  escaped : Bool
  joined : Bool
  deriving DecidableEq, Repr

/-- Puts code in front of what the rest of a line gives. -/
def emit (code : List Char) : Except Fault ScannedLine → Except Fault ScannedLine :=
  Except.map fun scanned => { scanned with code := code ++ scanned.code }

/-- Masks the characters of line `number`, from what is open before them. Inside a string literal
a backslash takes the next character with it. -/
def scanLine (number : Nat) (string : Option OpenString) (brackets : List OpenBracket) :
    List Char → Except Fault ScannedLine
  | [] => .ok ⟨[], none, ⟨string, brackets⟩, false, false⟩
  | c :: rest =>
    match string with
    | some literal =>
      if c = '\\' then
        match rest with
        | [] => .ok ⟨[], none, ⟨some literal, brackets⟩, true, false⟩
        | _ :: rest => scanLine number (some literal) brackets rest
      else if c = literal.delimiter.mark then
        if literal.delimiter.triple then
          match rest with
          | c₂ :: c₃ :: rest₃ =>
            if c₂ = c ∧ c₃ = c then
              emit [c, c, c] (scanLine number none brackets rest₃)
            else scanLine number (some literal) brackets (c₂ :: c₃ :: rest₃)
          | [c₂] => scanLine number (some literal) brackets [c₂]
          | [] => .ok ⟨[], none, ⟨some literal, brackets⟩, false, false⟩
        else emit [c] (scanLine number none brackets rest)
      else scanLine number (some literal) brackets rest
    | none =>
      if c = '#' then .ok ⟨[], some (c :: rest), ⟨none, brackets⟩, false, false⟩
      else if isQuote c then
        match rest with
        | c₂ :: c₃ :: rest₃ =>
          if c₂ = c ∧ c₃ = c then
            emit [c, c, c] (scanLine number (some ⟨⟨c, true⟩, number⟩) brackets rest₃)
          else
            emit [c] (scanLine number (some ⟨⟨c, false⟩, number⟩) brackets (c₂ :: c₃ :: rest₃))
        | [c₂] => emit [c] (scanLine number (some ⟨⟨c, false⟩, number⟩) brackets [c₂])
        | [] => .ok ⟨[c], none, ⟨some ⟨⟨c, false⟩, number⟩, brackets⟩, false, false⟩
      else if c = '\\' ∧ rest = [] then .ok ⟨[], none, ⟨none, brackets⟩, false, true⟩
      else
        match Bracket.ofOpener? c, Bracket.ofCloser? c with
        | some bracket, _ => emit [c] (scanLine number none (⟨bracket, number⟩ :: brackets) rest)
        | none, some bracket =>
          match brackets with
          | top :: outer =>
            if top.bracket = bracket then emit [c] (scanLine number none outer rest)
            else .error ⟨number, .unmatched c⟩
          | [] => .error ⟨number, .unmatched c⟩
        | none, none => emit [c] (scanLine number none brackets rest)

/-- A line without the contents of its string literals and without its comment. It `continues` if
a string literal or a bracket is open after it, or if a backslash joins the next line to it. -/
structure MaskedLine where
  number : Nat
  raw : List Char
  code : List Char
  comment : Option (List Char)
  continues : Bool
  deriving DecidableEq, Repr

/-- Whether the character stands for bytes that could not be decoded. -/
def isUndecodable (c : Char) : Bool := c.toNat = 0 || c.toNat = 0xFFFD

/-- Masks one line. A string literal in single marks must end on its line, unless a backslash
takes the line's end with it. -/
def maskLine (number : Nat) (carry : Carry) (raw : List Char) : Except Fault (MaskedLine × Carry) :=
  if raw.any isUndecodable then .error ⟨number, .undecodable⟩
  else do
    let scanned ← scanLine number carry.string carry.brackets raw
    let continues := scanned.carry.string.isSome || !scanned.carry.brackets.isEmpty || scanned.joined
    let line : MaskedLine := ⟨number, raw, scanned.code, scanned.comment, continues⟩
    match scanned.carry.string with
    | some literal =>
      if literal.delimiter.triple || scanned.escaped then .ok (line, scanned.carry)
      else .error ⟨literal.line, .openString⟩
    | none => .ok (line, scanned.carry)

/-- The fault of what is still open at the end of a unit: the string literal, or else the
outermost bracket. -/
def Carry.fault? (carry : Carry) : Option Fault :=
  match carry.string with
  | some literal => some ⟨literal.line, .openString⟩
  | none => carry.brackets.getLast?.map fun b => ⟨b.line, .neverClosed b.bracket.opener⟩

/-- Masks lines, the first of which has the given number, from what is open before them. -/
def maskFrom (number : Nat) (carry : Carry) : List (List Char) → Except Fault (List MaskedLine)
  | [] =>
    match carry.fault? with
    | some fault => .error fault
    | none => .ok []
  | raw :: rest => do
    let (line, carry) ← maskLine number carry raw
    let lines ← maskFrom (number + 1) carry rest
    .ok (line :: lines)

/-- Masks the lines of a unit. -/
def mask (unit : SourceUnit) : Except Fault (List MaskedLine) := maskFrom 1 .empty unit.lines

end CodeGrade
