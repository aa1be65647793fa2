/-!
# Exact values of binary64 numbers

A binary64 number is taken apart into sign, mantissa and exponent, so that rounding and printing
can be done in exact integer arithmetic.

## Main definitions

* `Decimal.Binary64`: a number as sign, mantissa and exponent.
* `Decimal.Binary64.ofFloat`, `Decimal.Binary64.toFloat`: the parts of a floating-point number.
* `Decimal.Binary64.value?`, `Decimal.Binary64.ofRat`: the exact value of a finite number.
* `Decimal.roundHalfUp`: the nearest integer, halves going up.
-/

namespace CodeGrade.Decimal

/-- A binary64 number. The finite ones are `± mantissa * 2 ^ exponent`. -/
inductive Binary64 where
  | finite (negative : Bool) (mantissa : Nat) (exponent : Int)
  | infinite (negative : Bool)
  | notANumber
  deriving DecidableEq, Repr

namespace Binary64

/-- The parts of a floating-point number. -/
def ofFloat (x : Float) : Binary64 :=
  let bits := x.toBits.toNat
  let negative := bits / Nat.pow 2 63 == 1
  let exponent : Nat := bits / Nat.pow 2 52 % 2048
  let fraction := bits % Nat.pow 2 52
  if exponent == 2047 then
    if fraction == 0 then .infinite negative else .notANumber
  else if exponent == 0 then .finite negative fraction (-1074)
  else .finite negative (fraction + Nat.pow 2 52) ((exponent : Int) - 1075)

/-- The factor `2 ^ exponent` as a numerator and a denominator. -/
def scale (exponent : Int) : Nat × Nat := (Nat.pow 2 exponent.toNat, Nat.pow 2 (-exponent).toNat)

/-- The exact value of a finite number. -/
def value? : Binary64 → Option Rat
  | finite negative mantissa exponent =>
    let (numerator, denominator) := scale exponent
    let magnitude : Rat := mkRat (mantissa * numerator : Nat) denominator
    some (if negative then -magnitude else magnitude)
  | _ => none

/-- The finite number with an exact value. A value that has none is cut to the next one towards
zero. -/
def ofRat (q : Rat) : Binary64 :=
  let size := q.num.natAbs
  let place : Int := -(Nat.log2 q.den)
  let exponent : Int := max (place + Nat.log2 size - 52) (-1074)
  let mantissa := size * Nat.pow 2 (place - exponent).toNat / Nat.pow 2 (exponent - place).toNat
  .finite (q.num < 0) mantissa (if mantissa == 0 then -1074 else exponent)

/-- The floating-point number with the given parts. -/
def toFloat : Binary64 → Float
  | finite negative mantissa exponent =>
    let magnitude :=
      if mantissa < Nat.pow 2 52 then mantissa
      else (exponent + 1075).toNat * Nat.pow 2 52 + (mantissa - Nat.pow 2 52)
    Float.ofBits (UInt64.ofNat (if negative then Nat.pow 2 63 + magnitude else magnitude))
  | infinite negative => if negative then -(1.0 / 0.0) else 1.0 / 0.0
  | notANumber => 0.0 / 0.0

end Binary64

/-- The floating-point number that is larger than every other. -/
def infinity : Float := 1.0 / 0.0

/-- Whether the number is neither infinite nor undefined. -/
def isFinite (x : Float) : Bool :=
  match Binary64.ofFloat x with
  | .finite .. => true
  | _ => false

/-- Whether the number is an integer. -/
def isInteger (x : Float) : Bool :=
  match Binary64.ofFloat x with
  | .finite _ mantissa exponent =>
    let (_, denominator) := Binary64.scale exponent
    mantissa % denominator == 0
  | _ => false

/-- The integer nearest to the number, of two equally near ones the larger. -/
def nearestInt? (x : Float) : Option Int :=
  match Binary64.ofFloat x with
  | .finite negative mantissa exponent =>
    let (numerator, denominator) := Binary64.scale exponent
    let signed : Int := if negative then -(mantissa * numerator : Nat) else (mantissa * numerator : Nat)
    some ((2 * signed + denominator) / (2 * denominator))
  | _ => none

/-- The natural number that a number is. -/
def nat? (x : Float) : Option Nat :=
  match Binary64.ofFloat x with
  | .finite negative mantissa exponent =>
    let (numerator, denominator) := Binary64.scale exponent
    if mantissa % denominator == 0 && (!negative || mantissa == 0) then
      some (mantissa / denominator * numerator)
    else none
  | _ => none

/-- The number rounded to the nearest integer, halves going up. Infinite and undefined numbers
stay as they are. -/
def roundHalfUp (x : Float) : Float :=
  match nearestInt? x with
  | some n => Float.ofInt n
  | none => x

end CodeGrade.Decimal
