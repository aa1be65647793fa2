/-!
# Ranges of code points

Sets of characters as lists of closed ranges of code points.

## Main definitions

* `Text.inRanges`: whether a code point lies in one of the ranges.
* `Text.areApart`: whether the ranges ascend, with gaps between them.
-/

namespace CodeGrade.Text

/-- Whether a code point lies in one of the ranges. -/
def inRanges (ranges : List (Nat × Nat)) (n : Nat) : Bool :=
  ranges.any fun (first, last) => first ≤ n && n ≤ last

/-- Whether the ranges ascend, with gaps between them. -/
def areApart : List (Nat × Nat) → Bool
  | [] => true
  | [(first, last)] => first ≤ last
  | (first, last) :: (next, stop) :: rest =>
    first ≤ last && last + 1 < next && areApart ((next, stop) :: rest)

/-- How many code points the ranges hold. -/
def rangesSize (ranges : List (Nat × Nat)) : Nat :=
  ranges.foldl (fun size (first, last) => size + (last + 1 - first)) 0

end CodeGrade.Text
