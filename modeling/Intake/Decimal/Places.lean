import Intake.Decimal.Shortest

/-!
Fixed-point text: an exact quotient rounded to two decimal places, a half going to the even
neighbour.
-/

set_option autoImplicit false
set_option relaxedAutoImplicit false

namespace Intake.Decimal

/-- The whole number nearest to `num / den`, the even one of two. -/
def roundDiv (num den : Nat) : Nat :=
  let quotient := num / den
  let rest := 2 * (num % den)
  if rest < den then quotient else if den < rest then quotient + 1 else quotient + quotient % 2

/-- The rounded quotient is at most half a unit away. -/
theorem roundDiv_near (num : Nat) {den : Nat} (h : 0 < den) :
    2 * num ≤ (2 * roundDiv num den + 1) * den ∧ 2 * roundDiv num den * den ≤ 2 * num + den := by
  have parts := Nat.div_add_mod num den
  have small := Nat.mod_lt num h
  rw [Nat.mul_comm] at parts
  simp only [roundDiv, Nat.add_mul, Nat.mul_assoc]
  split
  · omega
  · split
    · simp only [Nat.add_mul]
      omega
    · rcases Nat.mod_two_eq_zero_or_one (num / den) with even | odd
      · simp only [even, Nat.add_zero]
        omega
      · simp only [odd, Nat.add_mul]
        omega

/-- A half goes to the even neighbour. -/
theorem roundDiv_even {num den : Nat} (h : 2 * (num % den) = den) : roundDiv num den % 2 = 0 := by
  simp only [roundDiv, h, Nat.lt_irrefl, if_false]
  omega

/-- The number `m · 2 ^ q` in hundredths. -/
def hundredths (m : Nat) (q : Int) : Nat :=
  roundDiv (100 * m * Nat.pow 2 q.toNat) (Nat.pow 2 (-q).toNat)

/-- A number of hundredths with its two places written out. -/
def twoPlaces (n : Nat) : List Char :=
  let part := n % 100
  digitChars (n / 100) ++ '.' :: digitChars (part / 10) ++ digitChars (part % 10)

example : roundDiv 5 2 = 2 ∧ roundDiv 7 2 = 4 ∧ roundDiv 8 3 = 3 := by decide

example : twoPlaces (hundredths 1 (-3)) = ['0', '.', '1', '2'] := by decide

end Intake.Decimal
