import CodeGrade.Text.Units

/-!
# Suggestions for misspelt words

The words that are closest to a misspelt one, if they are close enough.

## Main definitions

* `editDistance`: how many edits lead from one word to another.
* `suggestion`: what to suggest for a word.
-/

namespace CodeGrade

/-- The next row of the table of distances: those of the prefixes of `word` to a prefix of the
candidate that ends with `c`, preceded by `before`. The rows above are `previous` and, one further
up, `older`; `left` is the distance to the left of the next entry. -/
def distanceRow {α : Type} [DecidableEq α] (c : α) (before : Option α) (left : Nat)
    (last : Option α) : (word : List α) → (previous : List Nat) → (older : List Nat) → List Nat
  | [], _, _ => []
  | w :: word, diagonal :: above :: previous, older =>
    let basic := min (min (above + 1) (left + 1)) (diagonal + if w = c then 0 else 1)
    let swapped :=
      match older with
      | corner :: _ => if last.isSome && last = some c && before = some w then min basic (corner + 1)
        else basic
      | [] => basic
    swapped :: distanceRow c before swapped (some w) word (above :: previous)
      (if last.isSome then older.drop 1 else older)
  | _ :: _, _, _ => []

/-- The distances of the prefixes of `word` to the candidate's remaining prefixes; gives the last
row. -/
def distanceRows {α : Type} [DecidableEq α] (word : List α) (before : Option α) (index : Nat) :
    (candidate : List α) → (previous : List Nat) → (older : List Nat) → List Nat
  | [], previous, _ => previous
  | c :: candidate, previous, older =>
    let row := (index + 1) :: distanceRow c before (index + 1) none word previous older
    distanceRows word (some c) (index + 1) candidate row previous

/-- How many insertions, deletions, replacements and swaps of neighbours lead from one word to
another, no part being edited twice. -/
def editDistance {α : Type} [DecidableEq α] (word candidate : List α) : Nat :=
  ((distanceRows word none 0 candidate (List.range (word.length + 1)) []).getLast?).getD 0

/-- The greatest distance of a suggestion. -/
def maxEditDistance : Nat := 3

/-- The distance of a candidate that is close enough: words whose lengths differ too much are not
compared, and more than two fifths of the longer word must stay. -/
def closeness? {α : Type} [DecidableEq α] (word candidate : List α) : Option Nat :=
  let length := max word.length candidate.length
  let distance :=
    if max (word.length - candidate.length) (candidate.length - word.length) > maxEditDistance then
      length
    else editDistance word candidate
  if candidate.length ≤ 1 || distance > maxEditDistance then none
  else if 10 * (length - distance) > 4 * length then some distance
  else none

/-- The candidates that are closest to a word in 16-bit units, sorted. -/
def closest (word : List Char) (candidates : List (List Char)) : List (List Char) :=
  let close := candidates.eraseDups.filterMap fun candidate =>
    (closeness? (word.flatMap Text.unitsOf) (candidate.flatMap Text.unitsOf)).map (·, candidate)
  let best := close.foldl (fun best (distance, _) => min best distance) maxEditDistance
  ((close.filter fun (distance, _) => distance = best).map (·.2)).mergeSort fun a b =>
    String.ofList a ≤ String.ofList b

/-- What to suggest for a word: a line of its own, or nothing. Two dashes before the word stand
before the suggestions too. -/
def suggestion (word : String) (candidates : List String) : String :=
  let isOption := ['-', '-'].isPrefixOf word.toList
  let bare (text : String) := if isOption then text.toList.drop 2 else text.toList
  let found := (closest (bare word) (candidates.map bare)).map fun candidate =>
    if isOption then "--" ++ String.ofList candidate else String.ofList candidate
  match found with
  | [] => ""
  | [only] => s!"\n(Did you mean {only}?)"
  | several =>
    let shown := ", ".intercalate several
    s!"\n(Did you mean one of {shown}?)"

end CodeGrade
