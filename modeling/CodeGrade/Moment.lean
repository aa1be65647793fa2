/-!
# Moments

A moment as text: the date, the time of day and the milliseconds, in universal time.

## Main definitions

* `Moment`: a moment.
* `Moment.text`, `Moment.clock`: the moment, and its time of day, as text.
-/

namespace CodeGrade

/-- A moment, counted in milliseconds from the start of 1970. -/
structure Moment where
  milliseconds : Nat
  deriving DecidableEq, Repr

namespace Moment

/-- A number with at least the given count of digits. -/
def padded (width n : Nat) : String :=
  let digits := Nat.toDigits 10 n
  String.ofList (List.replicate (width - digits.length) '0' ++ digits)

/-- The year, month and day of the date that lies the given number of days after the start of 1970.
Years are counted from March on, so that the leap day is the last one of its year. -/
def date (days : Nat) : Nat × Nat × Nat :=
  let shifted := days + 719468
  let era := shifted / 146097
  let dayOfEra := shifted % 146097
  let yearOfEra := (dayOfEra - dayOfEra / 1460 + dayOfEra / 36524 - dayOfEra / 146096) / 365
  let dayOfYear := dayOfEra - (365 * yearOfEra + yearOfEra / 4 - yearOfEra / 100)
  let monthFromMarch := (5 * dayOfYear + 2) / 153
  let day := dayOfYear - (153 * monthFromMarch + 2) / 5 + 1
  let month := if monthFromMarch < 10 then monthFromMarch + 3 else monthFromMarch - 9
  (era * 400 + yearOfEra + if month ≤ 2 then 1 else 0, month, day)

/-- The time of day. -/
def clock (m : Moment) : String :=
  let seconds := m.milliseconds / 1000 % 86400
  padded 2 (seconds / 3600) ++ ":" ++ padded 2 (seconds / 60 % 60) ++ ":" ++
    padded 2 (seconds % 60) ++ "." ++ padded 3 (m.milliseconds % 1000)

/-- The date and the time of day. -/
def text (m : Moment) : String :=
  let (year, month, day) := date (m.milliseconds / 86400000)
  padded 4 year ++ "-" ++ padded 2 month ++ "-" ++ padded 2 day ++ "T" ++ m.clock ++ "Z"

end Moment

end CodeGrade
