import CodeGrade.Source.Mask
import CodeGrade.Text.Blank

/-!
# Statements

The masked lines that belong together are joined into statements, with one blank between the code
of two lines.

## Main definitions

* `Statement`: the code of one or more lines.
* `joinLines`: the statements of a list of masked lines.
-/

namespace CodeGrade

/-- A statement: the lines it spans, the indentation of its first line, and its code. -/
structure Statement where
  startLine : Nat
  endLine : Nat
  indent : Nat
  code : List Char
  deriving DecidableEq, Repr

/-- The statement that is open after a line, given the one that was open before it. A line without
code starts no statement. -/
def Statement.extend (current : Option Statement) (line : MaskedLine) : Option Statement :=
  let code := Text.trim line.code
  match current with
  | some statement =>
    let joined := if code.isEmpty then statement.code else statement.code ++ ' ' :: code
    some { statement with endLine := line.number, code := joined }
  | none =>
    if code.isEmpty then none
    else some ⟨line.number, line.number, indentWidth line.raw, code⟩

/-- Joins lines into statements; `current` is the statement that is open before them. A statement
that is still open after the last line is not among them. -/
def joinFrom (current : Option Statement) : List MaskedLine → List Statement
  | [] => []
  | line :: rest =>
    match Statement.extend current line with
    | some statement =>
      if line.continues then joinFrom (some statement) rest else statement :: joinFrom none rest
    | none => joinFrom none rest

/-- The statements of a list of masked lines. -/
def joinLines (lines : List MaskedLine) : List Statement := joinFrom none lines

end CodeGrade
