import CodeGrade.Decimal.Format

/-!
# Score bars

A score as a bar of twenty cells, with the share in percent.

## Main definitions

* `scoreBar`: the bar of a score, or why there is none.
-/

namespace CodeGrade

/-- Why a bar cannot be drawn. -/
inductive BarFault where
  /-- A part of the bar would have a negative or infinite number of cells. -/
  | invalidCount (count : Float)
  /-- A part of the bar would have more cells than a text can hold. -/
  | tooLong

/-- The wording of a bar's fault. -/
def BarFault.message : BarFault → String
  | invalidCount count => "Invalid count value: " ++ Decimal.text count
  | tooLong => "Invalid string length"

/-- The greatest number of characters of a text. -/
def maxTextLength : Nat := Nat.pow 2 29 - 24

/-- A cell repeated `count` times. No cells are drawn for an undefined number of them. -/
def cells (cell : Char) (count : Float) : Except BarFault (List Char) :=
  match Decimal.Binary64.ofFloat count with
  | .notANumber => .ok []
  | .infinite _ => .error (.invalidCount count)
  | .finite .. =>
    if count < 0.0 then .error (.invalidCount count)
    else
      let n := (Decimal.nat? count).getD 0
      if n > maxTextLength then .error .tooLong else .ok (List.replicate n cell)

/-- The bar of a score out of `max`: the full cells, the empty ones, and the percentage. -/
def scoreBar (score max : Float) : Except BarFault String := do
  let share := score / max
  let filled := Decimal.roundHalfUp (share * 20.0)
  let empty := 20.0 - filled
  -- A bar with more cells than it has room for fails on its empty part, which is cheaper to find.
  let full ← if empty < 0.0 && filled ≤ Float.ofNat maxTextLength then .ok [] else cells '█' filled
  let rest ← cells '░' empty
  .ok ("`" ++ String.ofList (full ++ rest) ++ "` " ++ Decimal.fixed 0 (share * 100.0) ++ "%")

end CodeGrade
