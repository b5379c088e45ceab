import Intake.Decimal.Places
import Intake.Proofs.Binary64.Parts

/-!
Rounding of exact results. Magnitudes are counted in steps of `2 ^ -1074`, the least positive
number, of which every finite number is a whole count. An exact quotient of counts goes to the
nearest count that 53 bits can hold, of two the even one; so it never passes a count that 53 bits
can hold.
-/

set_option autoImplicit false
set_option relaxedAutoImplicit false

namespace Intake.Decimal

variable {n d u c : Nat}

theorem le_roundDiv (pos : 0 < d) (h : u * d ≤ n) : u ≤ roundDiv n d := by
  have floor : u ≤ n / d := (Nat.le_div_iff_mul_le pos).2 h
  rw [roundDiv]
  split
  · exact floor
  · split
    · exact floor.trans (Nat.le_succ _)
    · exact floor.trans (Nat.le_add_right _ _)

theorem roundDiv_le (pos : 0 < d) (h : n ≤ u * d) : roundDiv n d ≤ u := by
  have parts := Nat.div_add_mod' n d
  have floor : n / d ≤ u := Nat.div_le_of_le_mul (Nat.mul_comm u d ▸ h)
  -- a rest that is not zero leaves room for the next whole number
  have next : n % d ≠ 0 → n / d + 1 ≤ u := by
    intro rest
    refine Nat.lt_of_mul_lt_mul_right (a := d) ?_
    omega
  rw [roundDiv]
  split
  · exact floor
  · split
    · exact next (by omega)
    · have := next (by omega)
      omega

theorem roundDiv_mul_mul (pos : 0 < c) : roundDiv (n * c) (d * c) = roundDiv n d := by
  have rest : 2 * (n % d * c) = 2 * (n % d) * c := (Nat.mul_assoc _ _ _).symm
  simp only [roundDiv, Nat.mul_div_mul_right _ _ pos, Nat.mul_mod_mul_right, rest,
    Nat.mul_lt_mul_right pos]

/-- An even number is reached from the middle below it. -/
theorem even_le_roundDiv_iff (pos : 0 < c) (even : u % 2 = 0) :
    u ≤ roundDiv n (2 * c) ↔ (2 * u - 1) * c ≤ n := by
  obtain ⟨upper, lower⟩ := roundDiv_near n (Nat.mul_pos Nat.two_pos pos)
  constructor
  · intro le
    have reached : 2 * u * c ≤ 2 * roundDiv n (2 * c) * c := by gcongr
    rw [Nat.sub_mul]
    have : 2 * roundDiv n (2 * c) * (2 * c) = 2 * (2 * roundDiv n (2 * c) * c) := by ring
    omega
  · intro le
    by_contra short
    -- then `n` is the middle itself, from which the even neighbour is reached
    have within : (2 * u - 1) * c ≤ (2 * roundDiv n (2 * c) + 1) * c := by
      have : (2 * roundDiv n (2 * c) + 1) * (2 * c) =
          2 * ((2 * roundDiv n (2 * c) + 1) * c) := by ring
      omega
    have odd : 2 * u - 1 = 2 * roundDiv n (2 * c) + 1 := by
      have := Nat.le_of_mul_le_mul_right within pos
      omega
    have middle : n = c + 2 * c * roundDiv n (2 * c) := by
      rw [odd] at le
      linarith
    have rest : n % (2 * c) = c := by
      rw [middle, Nat.add_mul_mod_self_left]
      exact Nat.mod_eq_of_lt (by omega)
    have half : 2 * (n % (2 * c)) = 2 * c := by rw [rest]
    have := roundDiv_even half
    omega

end Intake.Decimal

namespace Intake.Binary64

open Float.Model (UnpackedFloat totalExponent)
open Float.Model.UnpackedFloat
open Float.Model.Format (binary64)
open Decimal (roundDiv)

/-- `v` is the count nearest to `n / d` of those that 53 bits can hold, with as many factors two as
that takes, and the even one of two. -/
def Rounds (n d v : Nat) : Prop :=
  ∃ j, n < d * 2 ^ (j + 53) ∧ (j = 0 ∨ d * 2 ^ (j + 52) ≤ n) ∧ v = roundDiv n (d * 2 ^ j) * 2 ^ j

variable {n d v m k : Nat}

theorem Rounds.pos (h : Rounds n d v) : 0 < d := by
  obtain ⟨j, lt, _⟩ := h
  exact Nat.pos_of_mul_pos_right (Nat.zero_lt_of_lt lt)

/-- What is below a count that 53 bits can hold is not rounded beyond it. -/
theorem Rounds.le (h : Rounds n d v) (held : m < 2 ^ 53) (le : n ≤ m * 2 ^ k * d) :
    v ≤ m * 2 ^ k := by
  have pos := h.pos
  obtain ⟨j, lt, full, rfl⟩ := h
  have fine : j ≤ k := by
    rcases full with rfl | full
    · exact Nat.zero_le k
    have bits : d * 2 ^ (j + 52) < d * 2 ^ (k + 53) := by
      calc d * 2 ^ (j + 52) ≤ m * 2 ^ k * d := full.trans le
        _ < 2 ^ 53 * 2 ^ k * d := by gcongr
        _ = d * 2 ^ (k + 53) := by ring
    have := (Nat.pow_lt_pow_iff_right (by decide)).1 (Nat.lt_of_mul_lt_mul_left bits)
    omega
  obtain ⟨i, rfl⟩ := Nat.exists_eq_add_of_le fine
  have whole : n ≤ m * 2 ^ i * (d * 2 ^ j) := by
    calc n ≤ m * 2 ^ (j + i) * d := le
      _ = m * 2 ^ i * (d * 2 ^ j) := by ring
  calc roundDiv n (d * 2 ^ j) * 2 ^ j ≤ m * 2 ^ i * 2 ^ j := by
        gcongr
        exact Decimal.roundDiv_le (by positivity) whole
    _ = m * 2 ^ (j + i) := by ring

/-- What is above a count that 53 bits can hold is not rounded below it. -/
theorem Rounds.ge (h : Rounds n d v) (held : m < 2 ^ 53) (le : m * 2 ^ k * d ≤ n) :
    m * 2 ^ k ≤ v := by
  have pos := h.pos
  obtain ⟨j, lt, full, rfl⟩ := h
  rcases Nat.lt_or_ge k j with coarse | fine
  · -- a unit that is too coarse for `m` comes with a larger result
    have filled : 2 ^ 52 ≤ roundDiv n (d * 2 ^ j) := by
      refine Decimal.le_roundDiv (by positivity) ?_
      calc 2 ^ 52 * (d * 2 ^ j) = d * 2 ^ (j + 52) := by ring
        _ ≤ n := full.resolve_left (by omega)
    calc m * 2 ^ k ≤ 2 ^ 53 * 2 ^ k := by gcongr
      _ = 2 ^ (k + 1) * 2 ^ 52 := by ring
      _ ≤ 2 ^ j * 2 ^ 52 := by
        gcongr
        · decide
        · exact coarse
      _ = 2 ^ 52 * 2 ^ j := Nat.mul_comm _ _
      _ ≤ roundDiv n (d * 2 ^ j) * 2 ^ j := by gcongr
  · obtain ⟨i, rfl⟩ := Nat.exists_eq_add_of_le fine
    have whole : m * 2 ^ i * (d * 2 ^ j) ≤ n := by
      calc m * 2 ^ i * (d * 2 ^ j) = m * 2 ^ (j + i) * d := by ring
        _ ≤ n := le
    calc m * 2 ^ (j + i) = m * 2 ^ i * 2 ^ j := by ring
      _ ≤ roundDiv n (d * 2 ^ j) * 2 ^ j := by
        gcongr
        exact Decimal.le_roundDiv (by positivity) whole

theorem Rounds.of_mul (c : Nat) (pos : 0 < c) (h : Rounds (n * c) (d * c) v) : Rounds n d v := by
  obtain ⟨j, lt, full, rfl⟩ := h
  have scaled : ∀ i, d * c * 2 ^ i = d * 2 ^ i * c := fun i => Nat.mul_right_comm d c (2 ^ i)
  rw [scaled] at lt full
  refine ⟨j, Nat.lt_of_mul_lt_mul_right lt, ?_, ?_⟩
  · exact full.imp_right fun le => Nat.le_of_mul_le_mul_right le pos
  · rw [scaled, Decimal.roundDiv_mul_mul pos]

/-- A power of two is reached from half a unit of the 53 bits below it. -/
theorem Rounds.two_pow_le_iff (h : Rounds n 1 v) (t : Nat) :
    2 ^ (t + 54) ≤ v ↔ (2 ^ 54 - 1) * 2 ^ t ≤ n := by
  have below : 2 ^ (t + 53) ≤ (2 ^ 54 - 1) * 2 ^ t := by
    calc 2 ^ (t + 53) = 2 ^ 53 * 2 ^ t := by ring
      _ ≤ (2 ^ 54 - 1) * 2 ^ t := Nat.mul_le_mul_right _ (by decide)
  have above : (2 ^ 54 - 1) * 2 ^ t ≤ 2 ^ (t + 54) := by
    calc (2 ^ 54 - 1) * 2 ^ t ≤ 2 ^ 54 * 2 ^ t := Nat.mul_le_mul_right _ (by decide)
      _ = 2 ^ (t + 54) := by ring
  obtain ⟨j, lt, full, eq⟩ := id h
  rw [Nat.one_mul] at lt full eq
  rcases lt_trichotomy j (t + 1) with fine | rfl | coarse
  · have small : n < 2 ^ (t + 53) := lt.trans_le (Nat.pow_le_pow_right (by decide) (by omega))
    have rounded : v ≤ 1 * 2 ^ (t + 53) := h.le (by decide) (by omega)
    have apart : 2 ^ (t + 53) < 2 ^ (t + 54) := Nat.pow_lt_pow_right (by decide) (by omega)
    omega
  · have units : 2 ^ (t + 54) = 2 ^ 53 * 2 ^ (t + 1) := by ring
    rw [eq, units, Nat.mul_le_mul_right_iff (Nat.two_pow_pos _), pow_succ' 2 t,
      Decimal.even_le_roundDiv_iff (Nat.two_pow_pos t) (by decide)]
    exact Iff.rfl
  · have large : 2 ^ (t + 54) ≤ n :=
      (Nat.pow_le_pow_right (by decide) (by omega)).trans (full.resolve_left (by omega))
    have rounded : 1 * 2 ^ (t + 54) ≤ v := h.ge (by decide) (by omega)
    omega

/-! ### Significands on their way to 53 bits -/

/-- The whole part of `n / d`, with the two bits that tell how the rest compares with a half. -/
def quotient (n d : Nat) : ExtendedMantissa :=
  ⟨n / d, decide (d ≤ 2 * (n % d)), decide (n % d ≠ 0 ∧ 2 * (n % d) ≠ d)⟩

theorem ofMantissaAndAccuracy_eq_quotient (n : Nat) (pos : 0 < d) :
    .ofMantissaAndAccuracy (n / d) (accuracyOfFraction (n % d) d) = quotient n d := by
  rw [accuracyOfFraction, quotient]
  by_cases whole : n % d = 0
  · simp [whole, pos.ne', ExtendedMantissa.ofMantissaAndAccuracy]
  · rw [if_neg whole]
    rcases lt_trichotomy (2 * (n % d)) d with less | half | more
    · rw [Nat.compare_eq_lt.2 less]
      simp [ExtendedMantissa.ofMantissaAndAccuracy, whole, less, less.ne]
    · rw [Nat.compare_eq_eq.2 half]
      simp [ExtendedMantissa.ofMantissaAndAccuracy, half]
    · rw [Nat.compare_eq_gt.2 more]
      simp [ExtendedMantissa.ofMantissaAndAccuracy, whole, more.le, more.ne']

theorem shiftRightOne_quotient (n : Nat) (pos : 0 < d) :
    (quotient n d).shiftRightOne = quotient n (d * 2) := by
  have small : n % d < d := Nat.mod_lt n pos
  have rest : n % (d * 2) = n % d + d * (n / d % 2) := Nat.mod_mul
  rw [quotient, quotient, ExtendedMantissa.shiftRightOne, Nat.div_div_eq_div_mul, rest,
    ExtendedMantissa.mk.injEq]
  refine ⟨rfl, ?_, ?_⟩ <;> rw [Bool.eq_iff_iff] <;>
    rcases Nat.mod_two_eq_zero_or_one (n / d) with bit | bit
  all_goals
    simp only [bit, bne_iff_ne, Bool.or_eq_true, decide_eq_true_eq, Nat.mul_zero, Nat.mul_one]
    omega

theorem shiftRight_quotient (n : Nat) (pos : 0 < d) (k : Nat) :
    quotient n d >>> k = quotient n (d * 2 ^ k) := by
  change k.repeat ExtendedMantissa.shiftRightOne (quotient n d) = _
  induction k with
  | zero => rw [Nat.pow_zero, Nat.mul_one]; rfl
  | succ k ih =>
    rw [Nat.repeat, ih, shiftRightOne_quotient n (by positivity), Nat.mul_assoc, ← Nat.pow_succ]

private theorem roundedMantissa_ofMantissaAndAccuracy (m : Nat) (a : Accuracy) :
    (ExtendedMantissa.ofMantissaAndAccuracy m a).roundedMantissa = a.roundToNearestEven m := by
  cases a with
  | exact => rfl
  | inexact order => cases order <;> rfl

theorem roundedMantissa_quotient (n : Nat) (pos : 0 < d) :
    (quotient n d).roundedMantissa = roundDiv n d := by
  rw [← ofMantissaAndAccuracy_eq_quotient n pos, roundedMantissa_ofMantissaAndAccuracy,
    accuracyOfFraction, roundDiv]
  by_cases whole : n % d = 0
  · simp only [whole, if_true, Nat.mul_zero, pos, Accuracy.roundToNearestEven]
  · rw [if_neg whole]
    rcases lt_trichotomy (2 * (n % d)) d with less | half | more
    · rw [Nat.compare_eq_lt.2 less, if_pos less, Accuracy.roundToNearestEven]
    · rw [Nat.compare_eq_eq.2 half, if_neg half.not_lt, if_neg half.not_gt,
        Accuracy.roundToNearestEven]
    · rw [Nat.compare_eq_gt.2 more, if_neg more.not_gt, if_pos more, Accuracy.roundToNearestEven]

/-! ### Parts and their counts -/

/-- Parts of a sign that stand for a count of steps. -/
inductive Stands (s : Sign) : Nat → UnpackedFloat → Prop
  | zero : Stands s 0 (.zero s)
  | finite {m : Nat} {e : Int} (stored : IsStored m e) :
      Stands s (m * 2 ^ (e + 1074).toNat) (.finite s m e stored.pos)

theorem targetExponent_eq (m : Nat) (e : Int) :
    binary64.targetExponent (totalExponent m e) = max (m.log2 + e - 52) (-1074) := by
  change max ((m.log2 : Int) + 1 + e - 53) (-1074) = _
  omega

/-- A significand that the 53 bits hold is not shifted. -/
theorem shiftToTargetExponent_of_lt {m : Nat} {e : Int} (lt : m < 2 ^ 53) (least : -1074 ≤ e) :
    shiftToTargetExponent binary64 m e .exact = (⟨m, false, false⟩, e) := by
  have log : m.log2 ≤ 52 := by
    rcases Nat.eq_zero_or_pos m with rfl | pos
    · decide
    · have := (Nat.log2_lt pos.ne').2 lt
      omega
  have none : (max ((m.log2 : Int) + e - 52) (-1074) - e).toNat = 0 := by omega
  rw [shiftToTargetExponent, targetExponent_eq, shiftToExponent]
  simp only [none]
  rw [Int.natCast_zero, Int.add_zero]
  rfl

/-- A significand that was rounded up to 54 bits is halved. -/
theorem shiftToTargetExponent_two_pow {e : Int} (least : -1074 ≤ e) :
    shiftToTargetExponent binary64 (2 ^ 53) e .exact = (⟨2 ^ 52, false, false⟩, e + 1) := by
  have one : (max (((2 ^ 53 : Nat).log2 : Int) + e - 52) (-1074) - e).toNat = 1 := by
    rw [Nat.log2_two_pow]
    omega
  rw [shiftToTargetExponent, targetExponent_eq, shiftToExponent]
  simp only [one]
  rfl

/-- After the first shift a significand has 53 bits, or 54 if it was rounded up to a power of
two. -/
private theorem roundWithAccuracy_eq (s : Sign) {n d : Nat} (pos : 0 < d) {e : Int} {k : Nat}
    (target : binary64.targetExponent (totalExponent (n / d) e) = e + k) :
    roundWithAccuracy binary64 s (n / d) e (accuracyOfFraction (n % d) d) =
      let (last, lastExponent) :=
        shiftToTargetExponent binary64 (roundDiv n (d * 2 ^ k)) (e + k) .exact
      if h : last.mantissa = 0 then .zero s
      else .finite s last.mantissa lastExponent (Nat.pos_of_ne_zero h) := by
  have amount : (e + k - e).toNat = k := by omega
  have first : shiftToTargetExponent binary64 (n / d) e (accuracyOfFraction (n % d) d) =
      (quotient n (d * 2 ^ k), e + k) := by
    rw [shiftToTargetExponent, target, shiftToExponent]
    simp only [amount]
    rw [ofMantissaAndAccuracy_eq_quotient n pos, shiftRight_quotient n pos]
  rw [roundWithAccuracy, first]
  dsimp only
  rw [roundedMantissa_quotient n (by positivity)]

/-- Rounding a quotient of counts gives parts that stand for the rounded count. -/
theorem stands_roundWithAccuracy (s : Sign) {n d : Nat} (pos : 0 < d) {e : Int} (least : -1074 ≤ e)
    (le : e ≤ binary64.targetExponent (totalExponent (n / d) e)) (whole : n / d ≠ 0 ∨ e = -1074) :
    ∃ v, Rounds (n * 2 ^ (e + 1074).toNat) d v ∧
      Stands s v (roundWithAccuracy binary64 s (n / d) e (accuracyOfFraction (n % d) d)) := by
  obtain ⟨k, target⟩ := Int.le.dest le
  have log := (targetExponent_eq (n / d) e).symm.trans target.symm
  have bits : n < d * 2 ^ (k + 53) := by
    have short : n / d < 2 ^ (k + 53) :=
      Nat.lt_log2_self.trans_le (Nat.pow_le_pow_right (by decide) (by omega))
    rw [Nat.mul_comm]
    exact (Nat.div_lt_iff_lt_mul pos).1 short
  have filled : e + k = -1074 ∨ d * 2 ^ (k + 52) ≤ n := by
    refine or_iff_not_imp_left.2 fun normal => ?_
    have nonzero : n / d ≠ 0 := by
      rcases whole with nonzero | rfl
      · exact nonzero
      · intro zero
        rw [zero, Nat.log2_zero] at log
        omega
    have long : 2 ^ (k + 52) ≤ n / d := by
      rw [show k + 52 = (n / d).log2 by omega]
      exact Nat.log2_self_le nonzero
    rw [Nat.mul_comm]
    exact (Nat.le_div_iff_mul_le pos).1 long
  generalize unit : (e + 1074).toNat = i
  have units : i + k = (e + k + 1074).toNat := by omega
  have rounds : Rounds (n * 2 ^ i) d (roundDiv n (d * 2 ^ k) * 2 ^ (i + k)) := by
    refine ⟨i + k, ?_, filled.imp (fun _ => by omega) fun le => ?_, ?_⟩
    · calc n * 2 ^ i < d * 2 ^ (k + 53) * 2 ^ i := by gcongr
        _ = d * 2 ^ (i + k + 53) := by ring
    · calc d * 2 ^ (i + k + 52) = d * 2 ^ (k + 52) * 2 ^ i := by ring
        _ ≤ n * 2 ^ i := by gcongr
    · rw [show d * 2 ^ (i + k) = d * 2 ^ k * 2 ^ i by ring,
        Decimal.roundDiv_mul_mul (Nat.two_pow_pos i)]
  refine ⟨_, rounds, ?_⟩
  have most : roundDiv n (d * 2 ^ k) ≤ 2 ^ 53 := by
    refine Decimal.roundDiv_le (by positivity) ?_
    calc n ≤ d * 2 ^ (k + 53) := bits.le
      _ = 2 ^ 53 * (d * 2 ^ k) := by ring
  have full : 2 ^ 52 ≤ roundDiv n (d * 2 ^ k) ∨ e + k = -1074 := by
    refine filled.symm.imp_left fun le => Decimal.le_roundDiv (by positivity) ?_
    calc 2 ^ 52 * (d * 2 ^ k) = d * 2 ^ (k + 52) := by ring
      _ ≤ n := le
  rw [roundWithAccuracy_eq s pos target.symm, units]
  rcases most.lt_or_eq with lt | top
  · rw [shiftToTargetExponent_of_lt lt (by omega)]
    dsimp only
    split
    next zero =>
      rw [zero, Nat.zero_mul]
      exact .zero
    next nonzero => exact .finite ⟨Nat.pos_of_ne_zero nonzero, lt, by omega, full⟩
  · rw [top, shiftToTargetExponent_two_pow (by omega)]
    have carried : 2 ^ 53 * 2 ^ (e + k + 1074).toNat = 2 ^ 52 * 2 ^ (e + k + 1 + 1074).toNat := by
      rw [show (e + k + 1 + 1074).toNat = (e + k + 1074).toNat + 1 by omega]
      ring
    rw [carried]
    exact .finite ⟨by decide, by decide, by omega, .inl le_rfl⟩

/-- Below the least exponent a unit is shifted out first. -/
theorem roundWithAccuracy_two_pow (s : Sign) {n d : Nat} (pos : 0 < d) {e : Int} {r : Nat}
    (below : e + r = -1074) :
    roundWithAccuracy binary64 s (n / d) e (accuracyOfFraction (n % d) d) =
      roundWithAccuracy binary64 s (n / (d * 2 ^ r)) (-1074)
        (accuracyOfFraction (n % (d * 2 ^ r)) (d * 2 ^ r)) := by
  have shorter : (n / (d * 2 ^ r)).log2 = (n / d).log2 - r := by
    rw [← Nat.div_div_eq_div_mul, Nat.log2_eq_log_two, Nat.log_div_base_pow, Nat.log2_eq_log_two]
  obtain ⟨k, target⟩ : ∃ k : Nat,
      binary64.targetExponent (totalExponent (n / (d * 2 ^ r)) (-1074)) = -1074 + k :=
    ⟨(binary64.targetExponent (totalExponent (n / (d * 2 ^ r)) (-1074)) + 1074).toNat, by
      rw [targetExponent_eq]
      omega⟩
  have whole : binary64.targetExponent (totalExponent (n / d) e) = e + (r + k : Nat) := by
    rw [targetExponent_eq] at target ⊢
    omega
  have sum : e + (r + k : Nat) = -1074 + k := by omega
  rw [roundWithAccuracy_eq s pos whole, roundWithAccuracy_eq s (by positivity) target, sum,
    Nat.mul_assoc, ← Nat.pow_add]

/-- Rounding a quotient of any exponent gives parts that stand for the rounded count. -/
theorem stands_roundWithAccuracy_of_le (s : Sign) {n d : Nat} (pos : 0 < d) {e : Int}
    (le : e ≤ binary64.targetExponent (totalExponent (n / d) e)) (whole : n / d ≠ 0 ∨ e ≤ -1074) :
    ∃ v, Rounds (n * 2 ^ (e + 1074).toNat) (d * 2 ^ (-1074 - e).toNat) v ∧
      Stands s v (roundWithAccuracy binary64 s (n / d) e (accuracyOfFraction (n % d) d)) := by
  rcases lt_or_ge e (-1074) with below | least
  · have shifted : e + ((-1074 - e).toNat : Nat) = -1074 := by omega
    have none : (e + 1074).toNat = (-1074 + 1074 : Int).toNat := by omega
    rw [none, roundWithAccuracy_two_pow s pos shifted]
    refine stands_roundWithAccuracy s (by positivity) le_rfl ?_ (.inr rfl)
    rw [targetExponent_eq]
    exact le_max_right _ _
  · have none : (-1074 - e).toNat = 0 := by omega
    rw [none, Nat.pow_zero, Nat.mul_one]
    exact stands_roundWithAccuracy s pos least le (whole.imp_right fun most => by omega)

end Intake.Binary64
