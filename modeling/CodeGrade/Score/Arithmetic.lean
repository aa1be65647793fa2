import CodeGrade.Decimal.Binary64

/-!
# The arithmetic of scores

Scores are computed with whatever numbers there are: binary64 numbers when the program runs, exact
rationals when the meaning of a score is at stake. The functions on scores use these operations
and no others.

## Main definitions

* `Arithmetic`: the operations.
* `Arithmetic.countLimit`: where counting with binary64 numbers ends.
* `roundScore`: rounding to hundredths.
-/

namespace CodeGrade

/-- The operations that scores are computed with. `round` takes a number to the nearest integer,
halves going up. -/
class Arithmetic (α : Type) extends Add α, Sub α, Mul α, Div α where
  ofInt : Int → α
  lt : α → α → Bool
  le : α → α → Bool
  round : α → α

namespace Arithmetic

/-- The largest number that counting by ones reaches in binary64 numbers, `2 ^ 53`: the next whole
number is none of them. -/
def countLimit : Int := 9007199254740992

instance : Arithmetic Float where
  ofInt n := Float.ofInt (if n < countLimit then n else countLimit)
  lt a b := a < b
  le a b := a ≤ b
  round := Decimal.roundHalfUp

instance : Arithmetic Rat where
  ofInt n := n
  lt a b := a < b
  le a b := a ≤ b
  round a := (a + 1 / 2).floor

variable {α : Type} [Arithmetic α]

/-- The number kept between two bounds. -/
def clamp (low high x : α) : α :=
  if lt x low then low else if lt high x then high else x

/-- The smaller of two numbers. -/
def smaller (a b : α) : α := if lt b a then b else a

/-- The larger of two numbers. -/
def larger (a b : α) : α := if lt a b then b else a

end Arithmetic

/-- The number rounded to hundredths. -/
def roundScore {α : Type} [Arithmetic α] (x : α) : α :=
  Arithmetic.round (x * Arithmetic.ofInt 100) / Arithmetic.ofInt 100

end CodeGrade
