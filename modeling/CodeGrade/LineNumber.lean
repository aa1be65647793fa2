import CodeGrade.Decimal.Format

/-!
# Line numbers

The line that an issue is reported on. Zero stands for the whole file. Checks that are written
outside this library may report any number, so a line number is not always a line: the evaluation
of rules rejects those that are not.

## Main definitions

* `LineNumber`: a number reported as a line.
* `LineNumber.le`: their order.
* `LineNumber.within`: whether the number is a line of a text, or zero.
-/

namespace CodeGrade

/-- A number reported as a line. -/
inductive LineNumber where
  | exact (value : Rat)
  | infinite (negative : Bool)
  | notANumber
  deriving DecidableEq, Repr

namespace LineNumber

/-- The line with a given number. -/
def ofNat (n : Nat) : LineNumber := .exact n

instance : Coe Nat LineNumber := ⟨ofNat⟩

/-- The order of line numbers. What is not a number cannot be compared. -/
def le : LineNumber → LineNumber → Bool
  | exact a, exact b => a ≤ b
  | infinite negative, exact _ => negative
  | exact _, infinite negative => !negative
  | infinite a, infinite b => a || !b
  | notANumber, _ | _, notANumber => false

/-- Whether the first number is smaller than the second. -/
def lt (a b : LineNumber) : Bool := le a b && !le b a

/-- The number as floating point. -/
def toFloat : LineNumber → Float
  | exact value => (Decimal.Binary64.ofRat value).toFloat
  | infinite negative => (Decimal.Binary64.infinite negative).toFloat
  | notANumber => Decimal.Binary64.notANumber.toFloat

/-- The number that a floating-point number is. -/
def ofFloat (x : Float) : LineNumber :=
  let parts := Decimal.Binary64.ofFloat x
  match parts, parts.value? with
  | _, some value => .exact value
  | .infinite negative, none => .infinite negative
  | _, none => .notANumber

/-- The text of a line number. -/
def text : LineNumber → String
  | exact value =>
    if value.den = 1 ∧ value.num.natAbs < Nat.pow 2 53 then toString value.num
    else Decimal.text (toFloat (.exact value))
  | infinite negative => if negative then "-Infinity" else "Infinity"
  | notANumber => "NaN"

/-- Whether the number is zero or a line of a text with `lineCount` lines. -/
def within (lineCount : Nat) : LineNumber → Bool
  | exact value => value.den = 1 && 0 ≤ value && value ≤ (lineCount : Rat)
  | infinite _ | notANumber => false

/-- Whether the number points to a line rather than to the whole file. -/
def isPositive (n : LineNumber) : Bool := lt (ofNat 0) n

end LineNumber

end CodeGrade
