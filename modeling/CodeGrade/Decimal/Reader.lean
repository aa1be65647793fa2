import CodeGrade.Decimal.Binary64
import CodeGrade.Text.Search

/-!
# Reading numbers

The number that a decimal literal denotes is the nearest binary64 number. Beyond the largest
finite number that is infinity.

## Main definitions

* `Decimal.Literal`: the parts of a decimal literal.
* `Decimal.Literal.value`: the number it denotes.
* `Decimal.number?`: the number that a user wrote, with the forms of an option value.
-/

namespace CodeGrade.Decimal

/-- The decimal literal `± mantissa * 10 ^ exponent`. -/
structure Literal where
  negative : Bool
  mantissa : Nat
  exponent : Int

/-- The binary64 number nearest to the literal. Literals far outside the range of finite numbers
are decided by their size alone. -/
def Literal.value (l : Literal) : Float :=
  let size : Int := (Nat.toDigits 10 l.mantissa).length + l.exponent
  let magnitude : Float :=
    if l.mantissa == 0 || size < -340 then 0.0
    else if size > 310 then infinity
    else Float.ofScientific l.mantissa (l.exponent < 0) l.exponent.natAbs
  if l.negative then -magnitude else magnitude

/-- The value of a digit in some base, letters counting from ten. -/
def digitValue? (c : Char) : Option Nat :=
  if Text.isDigit c then some (c.toNat - '0'.toNat)
  else if Text.isSmall c then some (c.toNat - 'a'.toNat + 10)
  else if Text.isCapital c then some (c.toNat - 'A'.toNat + 10)
  else none

/-- The value of a list of digits in a base, if all of them are digits of that base. -/
def inBase? (base : Nat) (digits : List Char) : Option Nat :=
  digits.foldlM (fun n c => do
    let d ← digitValue? c
    if d < base then some (n * base + d) else none) 0

/-- The value of a list of decimal digits. -/
def digitsValue (digits : List Char) : Nat := (inBase? 10 digits).getD 0

/-- Reads an exponent part, which may be missing; `none` if it has no digits. -/
def exponentPart? (text : List Char) : Option (Int × List Char) :=
  match text with
  | c :: rest =>
    if c == 'e' || c == 'E' then
      let (negative, rest) :=
        match rest with
        | '-' :: rest => (true, rest)
        | '+' :: rest => (false, rest)
        | _ => (false, rest)
      let digits := rest.takeWhile Text.isDigit
      if digits.isEmpty then none
      else
        let size : Int := digitsValue digits
        some (if negative then -size else size, rest.dropWhile Text.isDigit)
    else some (0, text)
  | [] => some (0, [])

/-- The literal with the given digits before and after its point. -/
def Literal.ofDigits (negative : Bool) (whole fraction : List Char) (exponent : Int) : Literal :=
  ⟨negative, digitsValue (whole ++ fraction), exponent - fraction.length⟩

/-- Reads an unsigned decimal literal that takes up the whole text. The point may stand first or
last, but not alone. -/
def unsignedDecimal? (negative : Bool) (text : List Char) : Option Literal := do
  let whole := text.takeWhile Text.isDigit
  let rest := text.dropWhile Text.isDigit
  let (fraction, rest) :=
    match rest with
    | '.' :: rest => (rest.takeWhile Text.isDigit, rest.dropWhile Text.isDigit)
    | _ => ([], rest)
  if whole.isEmpty && fraction.isEmpty then none
  else
    let (exponent, rest) ← exponentPart? rest
    if rest.isEmpty then some (Literal.ofDigits negative whole fraction exponent) else none

/-- Reads an integer of another base, if the text has its mark. -/
def basedInteger? (text : List Char) : Option (Option Nat) :=
  match text with
  | '0' :: mark :: digits =>
    let base? : Option Nat :=
      if mark == 'x' || mark == 'X' then some 16
      else if mark == 'o' || mark == 'O' then some 8
      else if mark == 'b' || mark == 'B' then some 2
      else none
    base?.map fun base => if digits.isEmpty then none else inBase? base digits
  | _ => none

/-- The finite number that a user wrote. Blanks around it do not count, an empty text is zero, and
besides decimal literals the integers marked `0x`, `0o` and `0b` are read. -/
def number? (text : List Char) : Option Float :=
  let text := Text.trim text
  let value? : Option Float :=
    match basedInteger? text with
    | some integer? => integer?.map fun n => (⟨false, n, 0⟩ : Literal).value
    | none =>
      match text with
      | [] => some 0.0
      | '+' :: rest => (unsignedDecimal? false rest).map Literal.value
      | '-' :: rest => (unsignedDecimal? true rest).map Literal.value
      | _ => (unsignedDecimal? false text).map Literal.value
  value?.filter isFinite

end CodeGrade.Decimal
