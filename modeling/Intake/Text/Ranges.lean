/-!
Sets of characters given by ranges of code points.
-/

set_option autoImplicit false
set_option relaxedAutoImplicit false

namespace Intake.Text

/-- Whether a code point lies in one of the ranges, whose ends belong to them. -/
def inRanges (ranges : List (Nat × Nat)) (point : Nat) : Bool :=
  ranges.any fun (first, last) => first ≤ point && point ≤ last

end Intake.Text
