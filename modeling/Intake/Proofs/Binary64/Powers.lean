import Intake.Proofs.Binary64.Products

/-!
Whole numbers and powers of ten as numbers of the binary format: both are rounded from their exact
values. A power of ten is not smaller than one, so what it divides stays finite.
-/

set_option autoImplicit false
set_option relaxedAutoImplicit false

namespace Intake.Binary64

open Float.Model (UnpackedFloat totalExponent)
open Float.Model.UnpackedFloat
open Float.Model.Format (binary64)

variable {x : Binary64} {n k : Nat}

-- Facts about fixed large numbers stand alone, where no other step tries to compute with them.
private theorem two_pow_mul_unitSteps_le : 2 ^ 1023 * unitSteps ≤ overflowSteps := by
  decide +kernel

private theorem largest_stepCount_lt : (2 ^ 53 - 1) * 2 ^ 2045 < overflowSteps := by
  decide +kernel

private theorem largest_tenPow_lt : 10 ^ 308 * unitSteps < overflowSteps := by
  decide +kernel

theorem mul_unitSteps_lt (h : n < 2 ^ 1023) : n * unitSteps < overflowSteps :=
  (Nat.mul_lt_mul_of_pos_right h unitSteps_pos).trans_le two_pow_mul_unitSteps_le

theorem stepCount_lt_overflowSteps (h : x.isFinite = true) : x.stepCount < overflowSteps := by
  rcases Nat.eq_zero_or_pos x.significand with zero | pos
  · rw [stepCount, zero, Nat.zero_mul]
    exact (Nat.zero_le _).trans_lt largest_stepCount_lt
  · have small : x.significand ≤ 2 ^ 53 - 1 := Nat.le_sub_one_of_lt (isStored_of_pos pos).lt
    have fits : (x.exponent + 1074).toNat ≤ 2045 := by
      have := exponent_le h
      omega
    calc x.stepCount = x.significand * 2 ^ (x.exponent + 1074).toNat := rfl
      _ ≤ (2 ^ 53 - 1) * 2 ^ 2045 := by gcongr; decide
      _ < overflowSteps := largest_stepCount_lt

/-- A number that is its own count. -/
theorem isRounded_stepCount (h : x.isFinite = true) : IsRounded x.stepCount 1 x :=
  ⟨h, (stands_parts h).rounds⟩

/-- A whole number is not rounded beyond one that 53 bits can hold. -/
theorem Rounds.le_unitSteps {m v : Nat} (h : Rounds (n * unitSteps) 1 v) (held : m < 2 ^ 53)
    (le : n ≤ m * 2 ^ k) : v ≤ m * 2 ^ k * unitSteps := by
  have same : m * 2 ^ k * unitSteps = m * 2 ^ (k + 1074) := by
    rw [unitSteps_eq, Nat.mul_assoc, ← pow_add]
  rw [same]
  refine h.le held ?_
  rw [Nat.mul_one, ← same]
  exact Nat.mul_le_mul_right unitSteps le

/-! ### Whole numbers -/

theorem isRounded_natural (n : UInt64) :
    IsRounded (n.toNat * unitSteps) 1 (.ofFloat n.toFloat) := by
  have whole : Binary64.ofFloat n.toFloat =
      ofParts (UnpackedFloat.normalize binary64 n.toNat 0 .positive) := rfl
  obtain ⟨s, v, -, rounds, stands⟩ := isNearest_normalize (e := 0) n.toNat (by decide) .positive
  have unit : (0 + 1074 : Int).toNat = 1074 := rfl
  have abs : ((n.toNat : Int) * (2 ^ (0 + 1074 : Int).toNat : Nat)).natAbs =
      n.toNat * unitSteps := by
    rw [← Int.natCast_mul, Int.natAbs_natCast, unit, unitSteps_eq]
  rw [abs] at rounds
  rw [whole]
  refine isRounded_ofParts rounds stands ?_
  rw [Nat.mul_one]
  exact mul_unitSteps_lt (n.toNat_lt.trans_le (pow_le_pow_right₀ (by decide) (by decide)))

/-! ### Powers of ten -/

theorem tenPow_mul_unitSteps_lt (h : k ≤ 308) : 10 ^ k * unitSteps < overflowSteps := by
  calc 10 ^ k * unitSteps ≤ 10 ^ 308 * unitSteps := by gcongr; decide
    _ < overflowSteps := largest_tenPow_lt

/-- The powers of ten that 53 bits hold. -/
private theorem stepCount_tenPow_of_le (h : k ≤ 22) :
    (tenPow k).isFinite = true ∧ (tenPow k).stepCount = 10 ^ k * unitSteps := by
  have all : ∀ k < 23, (tenPow k).isFinite = true ∧ (tenPow k).stepCount = 10 ^ k * unitSteps := by
    decide +kernel
  exact all k (by omega)

private theorem tenPow_of_lt (h : 22 < k) (le : k ≤ 308) :
    tenPow k =
      ofParts (roundWithAccuracy binary64 .positive (2 ^ 53 * 10 ^ k) (-53) .exact) := by
  have slow : tenPow k = ofParts (UnpackedFloat.ofScientific binary64 1 k) := by
    rw [tenPow, Float.ofScientific, dif_neg (by omega)]
    rfl
  rw [slow, UnpackedFloat.ofScientific, dif_neg (by decide), if_neg, if_neg, if_pos (by omega)]
  · rfl
  · change ¬ (k : Int) < -((2 ^ 11 : Int) + (1 : Nat).log2)
    omega
  · change ¬ (k : Int) > 2 ^ 11
    omega

theorem isRounded_tenPow (h : k ≤ 308) : IsRounded (10 ^ k * unitSteps) 1 (tenPow k) := by
  rcases Nat.lt_or_ge 22 k with large | small
  · obtain ⟨v, rounds, stands⟩ := stands_roundWithAccuracy_exact .positive (e := -53)
      (m := 2 ^ 53 * 10 ^ k) (.inl (by have := Nat.pow_pos (n := k) (show 0 < 10 by decide); omega))
    rw [tenPow_of_lt large h]
    refine isRounded_ofParts (rounds.congr Nat.one_pos ?_) stands ?_
    · have exponents : (-53 + 1074 : Int).toNat = 1021 ∧ (-1074 - -53 : Int).toNat = 0 :=
        ⟨rfl, rfl⟩
      rw [exponents.1, exponents.2, Nat.mul_one, Nat.pow_zero, Nat.mul_one, unitSteps_eq,
        Nat.mul_comm (2 ^ 53), Nat.mul_assoc, ← pow_add]
    · rw [Nat.mul_one]
      exact tenPow_mul_unitSteps_lt h
  · obtain ⟨finite, count⟩ := stepCount_tenPow_of_le small
    exact count ▸ isRounded_stepCount finite

/-- A power of ten is not smaller than one. -/
theorem unitSteps_le_tenPow (h : k ≤ 308) : unitSteps ≤ (tenPow k).stepCount := by
  have one : 2 ^ 1074 * 1 ≤ 10 ^ k * unitSteps := by
    rw [← unitSteps_eq, Nat.mul_one]
    exact Nat.le_mul_of_pos_left unitSteps (by positivity)
  rw [unitSteps_eq]
  exact (isRounded_tenPow h).2.two_pow_le 1074 one

theorem isFinite_div_tenPow (hx : x.isFinite = true) (h : k ≤ 308) :
    (x / tenPow k).isFinite = true := by
  have unit := unitSteps_le_tenPow h
  have countPos : 0 < (tenPow k).stepCount := Nat.lt_of_lt_of_le unitSteps_pos unit
  have pos : 0 < (tenPow k).significand := Nat.pos_of_mul_pos_right countPos
  have less : x.stepCount * unitSteps < overflowSteps * (tenPow k).stepCount :=
    Nat.mul_lt_mul_of_lt_of_le (stepCount_lt_overflowSteps hx) unit countPos
  exact (isRounded_div hx (isRounded_tenPow h).1 pos less).1

end Intake.Binary64
