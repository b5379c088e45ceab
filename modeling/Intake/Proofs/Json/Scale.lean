import Intake.Json.Reader.Numeral
import Intake.Proofs.Binary64.Powers
import Intake.Proofs.Decimal.Shortest

/-!
The scaling of gathered digits. Dividing by powers of ten always stays in range; multiplying does so
for decimals of 17 digits that do not exceed `17976931348623157 · 10 ^ 292`, the shortest decimal of
the largest finite number. The margin is narrow: with the next digit in the last place the product
is an infinity.
-/

set_option autoImplicit false
set_option relaxedAutoImplicit false

namespace Intake.Json

open Binary64
open Decimal (largestDecimal)

variable {x : Binary64}

/-! ### Downwards -/

theorem isFinite_scaleDownBy (hx : x.isFinite = true) {last : Nat} (le : last ≤ 308)
    (steps : Nat) : (scaleDownBy x last steps).isFinite = true := by
  induction steps generalizing x with
  | zero => exact isFinite_div_tenPow hx le
  | succ steps ih =>
    rw [scaleDownBy]
    split
    · exact hx
    · exact ih (isFinite_div_tenPow hx le_rfl)

theorem isFinite_scaleDown (hx : x.isFinite = true) (n : Nat) :
    (scaleDown x n).isFinite = true := by
  refine isFinite_scaleDownBy hx ?_ _
  have := Nat.div_add_mod' (n - 1) largestPower
  have := Nat.mod_lt (n - 1) (show 0 < largestPower by decide)
  rw [largestPower] at *
  omega

/-! ### Upwards -/

-- Facts about fixed large numbers stand alone, where no other step tries to compute with them.
private theorem moderate_lt :
    7 * 2 ^ 54 * unitSteps * (1 * 2 ^ 967 * unitSteps) < overflowSteps * unitSteps := by
  decide +kernel

private theorem tenPow_moderate_le : 10 ^ 291 ≤ 1 * 2 ^ 967 := by
  decide +kernel

private theorem atMargin_lt :
    17976931348623156 * unitSteps * (tenPow 292).stepCount < overflowSteps * unitSteps := by
  decide +kernel

private theorem beyondMargin_lt :
    1797693134862315 * 10 ^ 293 * unitSteps * (2 ^ 53 + 1) < overflowSteps * 2 ^ 53 := by
  decide +kernel

/-- The largest shortest decimal is rounded down before it is scaled. -/
private theorem stepCount_margin :
    (Binary64.ofFloat (UInt64.toFloat 17976931348623157)).stepCount =
      17976931348623156 * unitSteps := by
  decide +kernel

private theorem scaleUp_moderate {c : UInt64} {k : Nat} (short : c.toNat ≤ 7 * 2 ^ 54)
    (le : k ≤ 291) :
    (Binary64.ofFloat c.toFloat).stepCount * (tenPow k).stepCount < overflowSteps * unitSteps := by
  have digits := (isRounded_natural c).2.le_unitSteps (m := 7) (by decide) short
  have small : 10 ^ k ≤ 1 * 2 ^ 967 :=
    (pow_le_pow_right₀ (by decide) le).trans tenPow_moderate_le
  have power := (isRounded_tenPow (k := k) (by omega)).2.le_unitSteps (by decide) small
  exact (Nat.mul_le_mul digits power).trans_lt moderate_lt

private theorem scaleUp_atMargin {c : UInt64} (most : c.toNat ≤ 17976931348623157) :
    (Binary64.ofFloat c.toFloat).stepCount * (tenPow 292).stepCount <
      overflowSteps * unitSteps := by
  have digits : (Binary64.ofFloat c.toFloat).stepCount ≤ 17976931348623156 * unitSteps := by
    rcases most.lt_or_eq with less | margin
    · exact (isRounded_natural c).2.le_unitSteps (m := 8988465674311578) (k := 1) (by decide)
        (by omega)
    · obtain rfl : c = 17976931348623157 := UInt64.toNat_inj.1 margin
      exact stepCount_margin.le
  exact (Nat.mul_le_mul_right _ digits).trans_lt atMargin_lt

private theorem scaleUp_beyondMargin {c : UInt64} {j : Nat} (le : 293 + j ≤ 308)
    (most : c.toNat * 10 ^ j ≤ 1797693134862315) :
    (Binary64.ofFloat c.toFloat).stepCount * (tenPow (293 + j)).stepCount <
      overflowSteps * unitSteps := by
  have small : c.toNat ≤ 1797693134862315 :=
    (Nat.le_mul_of_pos_right _ (Nat.pow_pos (by decide))).trans most
  have digits : (Binary64.ofFloat c.toFloat).stepCount ≤ c.toNat * 2 ^ 0 * unitSteps :=
    (isRounded_natural c).2.le_unitSteps (by omega) (by omega)
  have normal : 1 * 2 ^ 52 ≤ 10 ^ (293 + j) * unitSteps := by
    rw [Nat.one_mul, unitSteps_eq]
    exact (pow_le_pow_right₀ (by decide) (by decide)).trans
      (Nat.le_mul_of_pos_left _ (Nat.pow_pos (by decide)))
  have power := (isRounded_tenPow le).2.mul_le normal
  rw [Nat.pow_zero, Nat.mul_one] at digits
  rw [Nat.mul_one] at power
  refine Nat.lt_of_mul_lt_mul_right (a := 2 ^ 53) ?_
  generalize (Binary64.ofFloat c.toFloat).stepCount = n at *
  generalize (tenPow (293 + j)).stepCount = t at *
  calc n * t * 2 ^ 53 ≤ c.toNat * unitSteps * (t * 2 ^ 53) := by
        rw [Nat.mul_assoc]
        exact Nat.mul_le_mul_right _ digits
    _ ≤ c.toNat * unitSteps * (10 ^ (293 + j) * unitSteps * (2 ^ 53 + 1)) :=
        Nat.mul_le_mul_left _ power
    _ = c.toNat * 10 ^ j * 10 ^ 293 * unitSteps * (2 ^ 53 + 1) * unitSteps := by
        rw [pow_add]
        ac_rfl
    _ ≤ 1797693134862315 * 10 ^ 293 * unitSteps * (2 ^ 53 + 1) * unitSteps := by
        gcongr
    _ < overflowSteps * 2 ^ 53 * unitSteps :=
        Nat.mul_lt_mul_of_pos_right beyondMargin_lt unitSteps_pos
    _ = overflowSteps * unitSteps * 2 ^ 53 := Nat.mul_right_comm _ _ _

/-- A shortest decimal stays finite when it is scaled up. -/
theorem isFinite_scaleUp {c : UInt64} {k : Nat} (short : c.toNat ≤ 7 * 2 ^ 54) (le : k ≤ 308)
    (most : c.toNat * 10 ^ k ≤ largestDecimal) :
    (scaleUp (.ofFloat c.toFloat) k).isFinite = true := by
  rw [scaleUp, if_pos (show k ≤ largestPower from le)]
  refine (isRounded_mul (isRounded_natural c).1 (isRounded_tenPow le).1 ?_).1
  rcases lt_trichotomy k 292 with less | rfl | more
  · exact scaleUp_moderate short (by omega)
  · exact scaleUp_atMargin (Nat.le_of_mul_le_mul_right most (by positivity))
  · obtain ⟨j, rfl⟩ := Nat.exists_eq_add_of_le (show 293 ≤ k by omega)
    have tens : c.toNat * 10 ^ j * 10 ≤ 17976931348623157 := by
      refine Nat.le_of_mul_le_mul_right (c := 10 ^ 292) ?_ (by positivity)
      calc c.toNat * 10 ^ j * 10 * 10 ^ 292 = c.toNat * 10 ^ (293 + j) := by
            rw [Nat.add_comm 293, pow_add, pow_succ 10 292]
            ac_rfl
        _ ≤ 17976931348623157 * 10 ^ 292 := most
    exact scaleUp_beyondMargin le (by omega)

theorem isFinite_scale_of_neg (c : UInt64) {e : Int} (neg : e < 0) :
    (scale c e).isFinite = true := by
  rw [scale, if_neg (by omega)]
  exact isFinite_scaleDown (isRounded_natural c).1 _

theorem isFinite_scale {c : UInt64} {e : Int} (short : c.toNat ≤ 7 * 2 ^ 54) (le : e ≤ 308)
    (most : c.toNat * 10 ^ e.toNat ≤ largestDecimal) : (scale c e).isFinite = true := by
  rw [scale]
  split
  · exact isFinite_scaleUp short (by omega) most
  · exact isFinite_scaleDown (isRounded_natural c).1 _

end Intake.Json
