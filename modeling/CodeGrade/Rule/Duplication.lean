import CodeGrade.Rule.Basic
import CodeGrade.Text.Units

/-!
# Duplicated lines

Lines of some length that occur more than twice in a unit. Comments do not count, nor does the
indentation.
-/

namespace CodeGrade

/-- Lines up to this length may be repeated. -/
def duplicateMinLength : Nat := 20

/-- Lines may occur this often. -/
def duplicateMaxOccurrences : Nat := 2

/-- Whether a line without the blanks around it counts as a duplicate when it is repeated. -/
def countsAsDuplicate (text : List Char) : Bool :=
  duplicateMinLength < Text.unitLength text && text.head? != some '#'

/-- A text that counts: the line of its first occurrence, and how often it occurs. -/
structure Repetition where
  text : List Char
  first : Nat
  count : Nat
  deriving DecidableEq, Repr

/-- Notes that a text occurs on a line. A text that has not occurred before comes last. -/
def noteOccurrence (text : List Char) (line : Nat) : List Repetition → List Repetition
  | [] => [⟨text, line, 1⟩]
  | entry :: rest =>
    if entry.text = text then { entry with count := entry.count + 1 } :: rest
    else entry :: noteOccurrence text line rest

/-- Notes the texts of lines, the first of which has the given number, after those in `seen`. Blanks
around a text do not matter. -/
def repetitionsFrom (number : Nat) (seen : List Repetition) : List (List Char) → List Repetition
  | [] => seen
  | line :: rest =>
    let text := Text.trim line
    let seen := if countsAsDuplicate text then noteOccurrence text number seen else seen
    repetitionsFrom (number + 1) seen rest

/-- The texts that occur too often, in the order of their first occurrences. -/
def repeatedLines (lines : List (List Char)) : List Repetition :=
  (repetitionsFrom 1 [] lines).filter fun entry => duplicateMaxOccurrences < entry.count

/-- One match for all lines that are repeated too often, on the first of them. -/
def duplicateLines (c : Context) : List Match :=
  let repeated := repeatedLines c.unit.lines
  match repeated with
  | [] => []
  | entry :: _ =>
    let shown := String.ofList entry.text
    let count := entry.count
    let kinds := repeated.length
    [{ line := entry.first
       message := s!"{kinds} line(s) repeated more than {duplicateMaxOccurrences} times, " ++
         s!"e.g. '{shown}' ({count}x)"
       evidence := some shown
       suggestion := some "Extract the repeated logic into a function" }]

/-- The rules on duplication. -/
def duplicationRules : List Rule :=
  [.ofCheck "duplicate-lines" "Code Duplication" .structural .medium
    "The same non-trivial line appears more than twice" duplicateLines]

end CodeGrade
