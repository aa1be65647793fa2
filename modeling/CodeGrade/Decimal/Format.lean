import CodeGrade.Decimal.Shortest

/-!
# Numbers as text

Two ways to write a number: with the fewest digits that read back, and with a fixed number of
places.

## Main definitions

* `Decimal.text`: the shortest text that reads back, positional for magnitudes from `10 ^ (-7)`
  up to `10 ^ 21`.
* `Decimal.fixed`: the text with a fixed number of places, rounded from the exact value, a tie
  going away from zero.
-/

namespace CodeGrade.Decimal

/-- `n` zeros. -/
def zeros (n : Nat) : String := String.ofList (List.replicate n '0')

/-- Writes digits positionally while the point stands no more than twenty-one places after the
first digit and no more than six zeros precede it, and with an exponent otherwise. -/
def Digits.text (d : Digits) : String :=
  let digits := Nat.toDigits 10 d.digits
  let count := digits.length
  let point : Int := count + d.exponent
  if count ≤ point && point ≤ 21 then
    String.ofList digits ++ zeros (point - count).toNat
  else if 0 < point && point ≤ 21 then
    String.ofList (digits.take point.toNat) ++ "." ++ String.ofList (digits.drop point.toNat)
  else if -6 < point && point ≤ 0 then
    "0." ++ zeros (-point).toNat ++ String.ofList digits
  else
    let exponent := point - 1
    let power := (if exponent < 0 then "e-" else "e+") ++ toString exponent.natAbs
    match digits with
    | [first] => String.ofList [first] ++ power
    | first :: rest => String.ofList (first :: '.' :: rest) ++ power
    | [] => power

/-- The shortest text that reads back as the number. Zero has no sign. -/
def text (x : Float) : String :=
  match Binary64.ofFloat x with
  | .notANumber => "NaN"
  | .infinite negative => if negative then "-Infinity" else "Infinity"
  | .finite negative mantissa exponent =>
    if mantissa == 0 then "0"
    else (if negative then "-" else "") ++ (shortest mantissa exponent).text

/-- The text of a natural number; beyond `2 ^ 53` that of the nearest binary64 number. -/
def natText (n : Nat) : String := if n < Nat.pow 2 53 then toString n else text (Float.ofNat n)

/-- Writes `n / 10 ^ places` with `places` digits after the point. -/
def placed (n places : Nat) : String :=
  let digits := Nat.toDigits 10 n
  let padded := List.replicate (places + 1 - digits.length) '0' ++ digits
  let whole := padded.length - places
  if places == 0 then String.ofList padded
  else String.ofList (padded.take whole) ++ "." ++ String.ofList (padded.drop whole)

/-- The number with a fixed number of places. A number below zero keeps its sign even if no digit
remains; numbers from `10 ^ 21` on are written in full. -/
def fixed (places : Nat) (x : Float) : String :=
  match Binary64.ofFloat x with
  | .finite negative mantissa exponent =>
    let (numerator, denominator) := Binary64.scale exponent
    if mantissa * numerator ≥ Nat.pow 10 21 * denominator then text x
    else
      let scaled := (2 * mantissa * numerator * Nat.pow 10 places + denominator) / (2 * denominator)
      (if negative && mantissa != 0 then "-" else "") ++ placed scaled places
  | _ => text x

end CodeGrade.Decimal
