/-!
# Lengths and order in 16-bit units

Lengths that a reader sees are counted in UTF-16 units, so a character beyond the basic plane
counts twice, and paths are sorted by their units.

## Main definitions

* `Text.unitLength`: the number of units of a text.
* `Text.unitsLe`: the order of texts by their units.
-/

namespace CodeGrade.Text

/-- The UTF-16 units of a character. -/
def unitsOf (c : Char) : List Nat :=
  let n := c.toNat
  if n < 0x10000 then [n]
  else [0xD800 + (n - 0x10000) / 0x400, 0xDC00 + (n - 0x10000) % 0x400]

/-- The number of UTF-16 units of a character. -/
def unitWidth (c : Char) : Nat := if c.toNat < 0x10000 then 1 else 2

/-- The number of UTF-16 units of a text. -/
def unitLength (text : List Char) : Nat := text.foldl (fun n c => n + unitWidth c) 0

/-- Lexicographic order of two lists of numbers. -/
def lexLe : List Nat → List Nat → Bool
  | [], _ => true
  | _ :: _, [] => false
  | a :: as, b :: bs => if a < b then true else if b < a then false else lexLe as bs

/-- Whether `a` comes no later than `b` in the order of UTF-16 units. -/
def unitsLe (a b : List Char) : Bool := lexLe (a.flatMap unitsOf) (b.flatMap unitsOf)

end CodeGrade.Text
