import CodeGrade.Decimal.Binary64

/-!
# Shortest decimal digits

The fewest decimal digits that read back as a given binary64 number, and of those the ones nearest
to it. For each number of digits the two neighbours of the number on that decimal grid are tested
against the interval of reals that round to the number.

## Main definitions

* `Decimal.Digits`: a decimal number as an integer and a power of ten.
* `Decimal.shortest`: the shortest digits of a positive binary64 number.
-/

namespace CodeGrade.Decimal

/-- The decimal number `digits * 10 ^ exponent`. -/
structure Digits where
  digits : Nat
  exponent : Int
  deriving DecidableEq, Repr

/-- Moves up to `fuel` trailing zeros of the digits into the exponent. -/
def Digits.strip : (fuel : Nat) → Digits → Digits
  | 0, d => d
  | fuel + 1, d =>
    if d.digits != 0 && d.digits % 10 == 0 then strip fuel ⟨d.digits / 10, d.exponent + 1⟩ else d

/-- The reals that round to `mantissa * 2 ^ exponent`, in units of `numerator / denominator`, a
quarter of the last place: the number itself, the ends of the interval, and whether the ends
belong to it. -/
structure RoundingInterval where
  middle : Nat
  low : Nat
  high : Nat
  closed : Bool
  numerator : Nat
  denominator : Nat

/-- The rounding interval of a positive number. Below a power of two the numbers lie twice as
close. -/
def roundingInterval (mantissa : Nat) (exponent : Int) : RoundingInterval :=
  let (numerator, denominator) := Binary64.scale (exponent - 2)
  let below := if mantissa == Nat.pow 2 52 && exponent > -1074 then 1 else 2
  { middle := 4 * mantissa
    low := 4 * mantissa - below
    high := 4 * mantissa + 2
    closed := mantissa % 2 == 0
    numerator
    denominator }

/-- Whether `d * 10 ^ place` lies in the interval. -/
def RoundingInterval.contains (i : RoundingInterval) (d : Nat) (place : Int) : Bool :=
  let point := d * Nat.pow 10 place.toNat * i.denominator
  let unit := i.numerator * Nat.pow 10 (-place).toNat
  if i.closed then i.low * unit ≤ point && point ≤ i.high * unit
  else i.low * unit < point && point < i.high * unit

/-- The largest `d` with `d * 10 ^ place` no larger than the number. -/
def RoundingInterval.floor (i : RoundingInterval) (place : Int) : Nat :=
  i.middle * i.numerator * Nat.pow 10 (-place).toNat / (i.denominator * Nat.pow 10 place.toNat)

/-- Whether `(d + 1) * 10 ^ place` is nearer to the number than `d * 10 ^ place`, or as near and
even. -/
def RoundingInterval.prefersUpper (i : RoundingInterval) (d : Nat) (place : Int) : Bool :=
  let twice := 2 * i.middle * i.numerator * Nat.pow 10 (-place).toNat
  let halfway := (2 * d + 1) * Nat.pow 10 place.toNat * i.denominator
  halfway < twice || (halfway == twice && d % 2 == 1)

/-- The digits on the grid of `10 ^ place` that read back as the number, if there are any. -/
def RoundingInterval.onGrid? (i : RoundingInterval) (place : Int) : Option Digits :=
  let d := i.floor place
  match i.contains d place, i.contains (d + 1) place with
  | true, true => some ⟨if i.prefersUpper d place then d + 1 else d, place⟩
  | true, false => some ⟨d, place⟩
  | false, true => some ⟨d + 1, place⟩
  | false, false => none

/-- The first grid, from that of `10 ^ place` on to finer ones, with digits that read back. -/
def RoundingInterval.search (i : RoundingInterval) : (fuel : Nat) → (place : Int) → Digits
  | 0, place => ⟨i.floor place, place⟩
  | fuel + 1, place =>
    match i.onGrid? place with
    | some d => d
    | none => search i fuel (place - 1)

/-- The least `s ≤ fuel + start` with `10 ^ s` times the number at least one. -/
def RoundingInterval.leadingZeros (i : RoundingInterval) : (fuel start : Nat) → Nat
  | 0, start => start
  | fuel + 1, start =>
    if i.floor (-start) == 0 then leadingZeros i fuel (start + 1) else start

/-- The place of the first digit of the number. -/
def RoundingInterval.firstPlace (i : RoundingInterval) : Int :=
  let whole := i.floor 0
  if whole == 0 then -(i.leadingZeros 330 1)
  else ((Nat.toDigits 10 whole).length : Int) - 1

/-- The shortest digits that read back as `mantissa * 2 ^ exponent`, for a positive
mantissa. Seventeen digits always suffice. -/
def shortest (mantissa : Nat) (exponent : Int) : Digits :=
  let interval := roundingInterval mantissa exponent
  (interval.search 17 interval.firstPlace).strip 20

end CodeGrade.Decimal
