import CodeGrade.Source.Keyword

/-!
# Faults of a source text

Why a text cannot be taken apart into statements, and on which line.

## Main definitions

* `Fault.Cause`: the causes.
* `Fault`: a cause on a line.
* `Fault.reason`, `Fault.message`: the wording.
-/

namespace CodeGrade

/-- Why a source text cannot be taken apart. -/
inductive Fault.Cause where
  /-- A character that stands for undecodable bytes. -/
  | undecodable
  /-- A closing bracket without its opening one. -/
  | unmatched (closer : Char)
  /-- A string literal that does not end. -/
  | openString
  /-- An opening bracket without its closing one. -/
  | neverClosed (opener : Char)
  /-- A block header without an indented statement below it. -/
  | missingBlock
  /-- A definition without the colon of its header. -/
  | missingColon (keyword : Keyword)
  /-- A definition whose name or parameter list cannot be found. -/
  | malformedHeader
  /-- A parameter list that does not end. -/
  | openParameters
  deriving DecidableEq, Repr

/-- A fault of a source text: its line and cause. -/
structure Fault where
  line : Nat
  cause : Fault.Cause
  deriving DecidableEq, Repr

namespace Fault

/-- The wording of a cause. -/
def Cause.reason : Cause → String
  | undecodable => "source contains undecodable characters"
  | unmatched closer => s!"unmatched '{closer}'"
  | openString => "unterminated string literal"
  | neverClosed opener => s!"'{opener}' was never closed"
  | missingBlock => "expected an indented block"
  | missingColon keyword => s!"expected ':' after {keyword.text} header"
  | malformedHeader => "malformed function header"
  | openParameters => "unterminated parameter list"

/-- The wording of the fault without its line. -/
def reason (fault : Fault) : String := fault.cause.reason

/-- The wording of the fault. -/
def message (fault : Fault) : String := s!"line {fault.line}: {fault.reason}"

end Fault

end CodeGrade
