import Intake.Binary64
import Mathlib

/-!
The total order on bit patterns. It compares the bits as signed numbers, once those after the sign
are inverted in a negative pattern; two patterns of which neither precedes the other are the same.
-/

set_option autoImplicit false
set_option relaxedAutoImplicit false

namespace Intake.Binary64

/-- The bits as a signed number, all but the sign inverted where the sign is set. The shifts spread
the sign over the 63 bits after it. -/
def signedKey (x : Binary64) : Int :=
  (x.bits.toBitVec ^^^ (x.bits.toBitVec.sshiftRight 63 >>> 1)).toInt

/-- The bits of `x` come before those of `y` in the total order. -/
def Precedes (x y : Binary64) : Prop := x.signedKey < y.signedKey

instance (x y : Binary64) : Decidable (x.Precedes y) :=
  inferInstanceAs (Decidable (x.signedKey < y.signedKey))

private theorem spread_sign (b : BitVec 64) :
    b.sshiftRight 63 >>> 1 = if b.msb then 0x7FFFFFFFFFFFFFFF#64 else 0#64 := by
  have bound : b.toNat < 2 ^ 64 := b.isLt
  cases sign : b.msb with
  | true =>
    have large : 2 ^ 63 ≤ b.toNat := by
      rwa [BitVec.msb_eq_decide, decide_eq_true_eq] at sign
    have emptied : ~~~b >>> 63 = 0#64 := by
      apply BitVec.eq_of_toNat_eq
      rw [BitVec.toNat_ushiftRight, BitVec.toNat_not, Nat.shiftRight_eq_div_pow]
      exact Nat.div_eq_of_lt (by omega)
    rw [BitVec.sshiftRight_eq_of_msb_true sign, emptied]
    decide
  | false =>
    have small : b.toNat < 2 ^ 63 := by
      rwa [BitVec.msb_eq_decide, decide_eq_false_iff_not, Nat.not_le] at sign
    have emptied : b >>> 63 = 0#64 := by
      apply BitVec.eq_of_toNat_eq
      rw [BitVec.toNat_ushiftRight, Nat.shiftRight_eq_div_pow]
      exact Nat.div_eq_of_lt small
    rw [BitVec.sshiftRight_eq_of_msb_false sign, emptied]
    decide

/-- Inverting all bits but the sign is inverting all bits of the pattern with the sign cleared. -/
private theorem toNat_xor_of_negative (b : BitVec 64) (large : 2 ^ 63 ≤ b.toNat) :
    (b ^^^ 0x7FFFFFFFFFFFFFFF#64).toNat = 2 ^ 64 - 1 - b.toNat % 2 ^ 63 := by
  have bound : b.toNat < 2 ^ 64 := b.isLt
  have split : b ^^^ 0x7FFFFFFFFFFFFFFF#64 = ~~~(b ^^^ 0x8000000000000000#64) := by
    rw [BitVec.not_xor_right]
    rfl
  have sign : (b ^^^ 0x8000000000000000#64).toNat / 2 ^ 63 = 0 := by
    rw [BitVec.toNat_xor, Nat.xor_div_two_pow, show b.toNat / 2 ^ 63 = 1 by omega]
    rfl
  have rest : (b ^^^ 0x8000000000000000#64).toNat % 2 ^ 63 = b.toNat % 2 ^ 63 := by
    rw [BitVec.toNat_xor, Nat.xor_mod_two_pow]
    exact Nat.xor_zero _
  rw [split, BitVec.toNat_not]
  omega

/-- The place in the total order is the signed number that the standard compares. -/
theorem place_eq_signedKey (x : Binary64) : x.place = x.signedKey := by
  have bound : x.bits.toBitVec.toNat < 2 ^ 64 := x.bits.toBitVec.isLt
  have sign : x.bits.toBitVec.msb = decide (0x8000000000000000 ≤ x.bits.toBitVec.toNat) :=
    BitVec.msb_eq_decide _
  rw [signedKey, spread_sign, place, isNegative, magnitude, ← UInt64.toNat_toBitVec, sign,
    BitVec.toInt_eq_toNat_cond]
  by_cases large : 0x8000000000000000 ≤ x.bits.toBitVec.toNat
  · simp only [large, decide_true, if_true, toNat_xor_of_negative _ large]
    omega
  · simp only [large, decide_false, Bool.false_eq_true, if_false, BitVec.xor_zero]
    omega

theorem signedKey_injective : Function.Injective signedKey := by
  intro x y same
  rw [← place_eq_signedKey, ← place_eq_signedKey] at same
  exact place_injective same

/-- Two bit patterns are the same, or one of them precedes the other. -/
theorem precedes_trichotomy (x y : Binary64) : x.Precedes y ∨ x = y ∨ y.Precedes x :=
  (lt_trichotomy x.signedKey y.signedKey).imp_right (Or.imp_left (signedKey_injective ·))

theorem totalLe_iff_not_precedes {x y : Binary64} : x.totalLe y = true ↔ ¬ y.Precedes x := by
  rw [totalLe, decide_eq_true_eq, place_eq_signedKey, place_eq_signedKey, Precedes, not_lt]

theorem totalLe_refl (x : Binary64) : x.totalLe x = true := decide_eq_true le_rfl

theorem totalLe_trans (x y z : Binary64) (first : x.totalLe y = true)
    (second : y.totalLe z = true) : x.totalLe z = true := by
  simp only [totalLe, decide_eq_true_eq] at *
  exact first.trans second

theorem totalLe_total (x y : Binary64) : (x.totalLe y || y.totalLe x) = true := by
  simp only [totalLe, Bool.or_eq_true, decide_eq_true_eq]
  exact le_total x.place y.place

theorem totalLe_antisymm {x y : Binary64} (first : x.totalLe y = true)
    (second : y.totalLe x = true) : x = y := by
  simp only [totalLe, decide_eq_true_eq] at *
  exact place_injective (le_antisymm first second)

end Intake.Binary64
