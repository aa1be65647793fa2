import CodeGrade.Text.Units
import Mathlib

/-!
# The order of texts by their units

Texts are compared by their UTF-16 units, the first difference deciding. A text can be told from its
units, so two texts that come no later than each other are equal, and the order is linear.

## Main definitions

* `Text.units`: the units of a text.
-/

namespace CodeGrade.Text

/-- The UTF-16 units of a text. -/
def units (text : String) : List ℕ := text.toList.flatMap unitsOf

end CodeGrade.Text
