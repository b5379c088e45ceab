import Intake.Binary64
import Intake.Decimal.Places
import Intake.Decimal.Shortest

/-!
The two written forms of a binary number: the shortest decimal that reads back as the same number,
and the value rounded to two decimal places.
-/

set_option autoImplicit false
set_option relaxedAutoImplicit false

namespace Intake.Binary64

open Decimal

/-- The absolute value of a finite number other than zero, with the set of numbers that round to
it: below a power of two the gap is half of the gap above it. -/
def cell (x : Binary64) : Cell :=
  ⟨x.significand, x.exponent, x.fraction == 0 && 1 < x.exponentField⟩

/-- A decimal with its leading digit at `10 ^ lead`: in positional notation for `-5 ≤ lead ≤ 15`,
with an exponent beyond, and never looking like a whole number. -/
def decimalText (digits : List Char) (lead : Int) : List Char :=
  if -5 ≤ lead ∧ lead ≤ 15 then
    if lead < 0 then
      '0' :: '.' :: List.replicate (-lead - 1).toNat '0' ++ digits
    else
      let whole := lead.toNat + 1
      let fraction := digits.drop whole
      (digits.take whole ++ List.replicate (whole - digits.length) '0') ++
        '.' :: (if fraction.isEmpty then ['0'] else fraction)
  else
    let sign := if lead < 0 then '-' else '+'
    (match digits with
      | first :: second :: rest => first :: '.' :: second :: rest
      | short => short) ++ 'e' :: sign :: digitChars lead.natAbs

/-- The sign of a number that is not a NaN. -/
def signText (x : Binary64) : List Char := if x.isNegative then ['-'] else []

def shortestText (x : Binary64) : List Char :=
  x.signText ++
    if x.significand = 0 then ['0', '.', '0']
    else
      let shortest := x.cell.shortest
      let digits := digitChars shortest.digits
      decimalText digits (shortest.exponent + (digits.length - 1 : Nat))

/-- The value rounded to two places, the sign kept also of what rounds to zero. -/
def twoPlacesText (x : Binary64) : List Char :=
  if x.isNaN then "NaN".toList
  else if x.isInfinite then x.signText ++ "inf".toList
  else x.signText ++ twoPlaces (hundredths x.significand x.exponent)

end Intake.Binary64
