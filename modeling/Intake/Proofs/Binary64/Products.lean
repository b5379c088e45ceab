import Intake.Proofs.Binary64.Midpoint

/-!
Products and quotients of finite numbers. Each is the exact result, rounded, unless that reaches
half a unit beyond the largest finite number. What is not smaller than one divides a finite number
to a finite number.
-/

set_option autoImplicit false
set_option relaxedAutoImplicit false

namespace Intake.Decimal

variable {n d u c : Nat}

theorem roundDiv_lt_of_even (pos : 0 < c) (even : u % 2 = 0) (h : n < (2 * u - 1) * c) :
    roundDiv n (2 * c) < u :=
  Nat.not_le.1 (mt (even_le_roundDiv_iff pos even).1 (Nat.not_le.2 h))

end Intake.Decimal

namespace Intake.Binary64

open Float.Model (UnpackedFloat totalExponent)
open Float.Model.UnpackedFloat
open Float.Model.Format (binary64)
open Decimal (roundDiv)

variable {x y : Binary64} {s : Sign} {n n' d d' v m t : Nat} {e : Int} {p : UnpackedFloat}

/-! ### Rounded quotients -/

/-- Equal quotients are rounded to the same count. -/
theorem Rounds.congr (h : Rounds n d v) (pos : 0 < d') (same : n * d' = n' * d) :
    Rounds n' d' v := by
  have scaled : Rounds (n * d') (d * d') v := by
    obtain ⟨j, lt, full, rfl⟩ := h
    have unit : ∀ i, d * d' * 2 ^ i = d * 2 ^ i * d' := fun i => Nat.mul_right_comm d d' (2 ^ i)
    refine ⟨j, ?_, full.imp_right fun le => ?_, ?_⟩
    · rw [unit]
      exact Nat.mul_lt_mul_of_pos_right lt pos
    · rw [unit]
      exact Nat.mul_le_mul_right d' le
    · rw [unit, Decimal.roundDiv_mul_mul pos]
  rw [same, Nat.mul_comm d d'] at scaled
  exact scaled.of_mul d h.pos

/-- Half a unit below a power of two is not reached, and so neither is the power of two. -/
theorem Rounds.lt_two_pow (h : Rounds n d v) (lt : n < (2 ^ 54 - 1) * 2 ^ t * d) :
    v < 2 ^ (t + 54) := by
  have pos := h.pos
  obtain ⟨j, short, full, eq⟩ := id h
  rcases lt_trichotomy j (t + 1) with fine | rfl | coarse
  · have small : n ≤ 1 * 2 ^ (t + 53) * d := by
      calc n ≤ d * 2 ^ (j + 53) := short.le
        _ ≤ d * 2 ^ (t + 53) := by
          gcongr
          · decide
          · omega
        _ = 1 * 2 ^ (t + 53) * d := by ring
    calc v ≤ 1 * 2 ^ (t + 53) := h.le (by decide) small
      _ < 2 ^ (t + 54) := by
        rw [Nat.one_mul]
        exact Nat.pow_lt_pow_right (by decide) (by omega)
  · have unit : d * 2 ^ (t + 1) = 2 * (d * 2 ^ t) := by ring
    have below : n < (2 * 2 ^ 53 - 1) * (d * 2 ^ t) := by
      calc n < (2 ^ 54 - 1) * 2 ^ t * d := lt
        _ = (2 * 2 ^ 53 - 1) * (d * 2 ^ t) := by ring
    have less := Decimal.roundDiv_lt_of_even (by positivity) (by decide) below
    calc v = roundDiv n (2 * (d * 2 ^ t)) * 2 ^ (t + 1) := by rw [eq, unit]
      _ < 2 ^ 53 * 2 ^ (t + 1) := Nat.mul_lt_mul_of_pos_right less (Nat.two_pow_pos _)
      _ = 2 ^ (t + 54) := by ring
  · have large : (2 ^ 54 - 1) * 2 ^ t * d ≤ n := by
      calc (2 ^ 54 - 1) * 2 ^ t * d ≤ 2 ^ 54 * 2 ^ t * d := by
            gcongr
            decide
        _ = d * 2 ^ (t + 54) := by ring
        _ ≤ d * 2 ^ (j + 52) :=
          Nat.mul_le_mul_left d (Nat.pow_le_pow_right (by decide) (by omega))
        _ ≤ n := full.resolve_left (by omega)
    omega

/-- A power of two is not rounded below itself. -/
theorem Rounds.two_pow_le (h : Rounds n d v) (k : Nat) (le : 2 ^ k * d ≤ n) : 2 ^ k ≤ v := by
  have least := h.ge (m := 1) (k := k) (by decide) (by rwa [Nat.one_mul])
  rwa [Nat.one_mul] at least

/-- Rounding adds at most the fraction `2 ^ -53`, where the least positive number is far away. -/
theorem Rounds.mul_le (h : Rounds n d v) (normal : d * 2 ^ 52 ≤ n) :
    v * d * 2 ^ 53 ≤ n * (2 ^ 53 + 1) := by
  have pos := h.pos
  obtain ⟨j, short, full, rfl⟩ := h
  have divisorPos : 0 < d * 2 ^ j := by positivity
  obtain ⟨-, near⟩ := Decimal.roundDiv_near n divisorPos
  have unit : d * 2 ^ j * 2 ^ 52 ≤ n := by
    rcases full with rfl | full
    · rwa [Nat.pow_zero, Nat.mul_one]
    · calc d * 2 ^ j * 2 ^ 52 = d * 2 ^ (j + 52) := by ring
        _ ≤ n := full
  calc roundDiv n (d * 2 ^ j) * 2 ^ j * d * 2 ^ 53 =
        2 * roundDiv n (d * 2 ^ j) * (d * 2 ^ j) * 2 ^ 52 := by ring
    _ ≤ (2 * n + d * 2 ^ j) * 2 ^ 52 := by gcongr
    _ = n * 2 ^ 53 + d * 2 ^ j * 2 ^ 52 := by ring
    _ ≤ n * 2 ^ 53 + n := by gcongr
    _ = n * (2 ^ 53 + 1) := by ring

/-! ### Rounded numbers -/

/-- The number one in steps of `2 ^ -1074`. It is not unfolded, so that nothing computes with it. -/
@[irreducible] def unitSteps : Nat := 2 ^ 1074

theorem unitSteps_eq : unitSteps = 2 ^ 1074 := by
  unfold unitSteps
  rfl

theorem unitSteps_pos : 0 < unitSteps := by
  rw [unitSteps_eq]
  exact pow_pos Nat.two_pos 1074

/-- A finite number whose absolute value is the quotient `n / d` of counts, rounded. -/
def IsRounded (n d : Nat) (x : Binary64) : Prop := x.isFinite = true ∧ Rounds n d x.stepCount

theorem isRounded_ofParts (rounds : Rounds n d v) (stands : Stands s v p)
    (lt : n < overflowSteps * d) : IsRounded n d (ofParts p) := by
  have below : v < countLimit := rounds.lt_two_pow lt
  obtain ⟨finite, -, count⟩ := (stands.ofParts below).steps_eq
  exact ⟨finite, count ▸ rounds⟩

/-- A significand of enough bits is rounded as the product that it is. -/
theorem stands_roundWithAccuracy_exact (s : Sign) (full : 2 ^ 52 ≤ m ∨ e ≤ -1074) :
    ∃ v, Rounds (m * 2 ^ (e + 1074).toNat) (2 ^ (-1074 - e).toNat) v ∧
      Stands s v (roundWithAccuracy binary64 s m e .exact) := by
  have wide : 2 ^ 52 ≤ m → 52 ≤ m.log2 := fun le => (Nat.le_log2 (by omega)).2 le
  obtain ⟨v, rounds, stands⟩ := stands_roundWithAccuracy_of_le s (n := m) (e := e) Nat.one_pos
    (by rw [Nat.div_one, targetExponent_eq]; omega) (by rw [Nat.div_one]; omega)
  rw [Nat.div_one, Nat.mod_one] at stands
  rw [Nat.one_mul] at rounds
  exact ⟨v, rounds, stands⟩

/-! ### Products -/

/-- The steps of a product, as numerator and denominator. -/
private theorem product_cross {m n a b c r z : Nat} (sum : a + z = b + c + r) :
    m * n * 2 ^ a * 2 ^ z = m * 2 ^ b * (n * 2 ^ c) * 2 ^ r := by
  calc m * n * 2 ^ a * 2 ^ z = m * n * 2 ^ (a + z) := by ring
    _ = m * n * 2 ^ (b + c + r) := by rw [sum]
    _ = m * 2 ^ b * (n * 2 ^ c) * 2 ^ r := by ring

/-- The product of two finite numbers is their exact product, rounded. -/
theorem stands_mul (hx : x.isFinite = true) (hy : y.isFinite = true) :
    ∃ s v, Rounds (x.stepCount * y.stepCount) unitSteps v ∧
      Stands s v (.mul binary64 x.parts y.parts) := by
  have zero : Rounds 0 unitSteps 0 := rounds_zero unitSteps_pos
  rcases Nat.eq_zero_or_pos x.significand with xZero | xPos
  · refine ⟨x.sign * y.sign, 0, ?_, ?_⟩
    · rwa [stepCount, xZero, Nat.zero_mul, Nat.zero_mul]
    · rw [parts_of_zero xZero]
      rcases Nat.eq_zero_or_pos y.significand with yZero | yPos
      · rw [parts_of_zero yZero]
        exact .zero
      · rw [parts_of_isFinite hy yPos]
        exact .zero
  rcases Nat.eq_zero_or_pos y.significand with yZero | yPos
  · refine ⟨x.sign * y.sign, 0, ?_, ?_⟩
    · rwa [stepCount, stepCount, yZero, Nat.zero_mul, Nat.mul_zero]
    · rw [parts_of_isFinite hx xPos, parts_of_zero yZero]
      exact .zero
  have xStored := isStored_of_pos xPos
  have yStored := isStored_of_pos yPos
  have full : 2 ^ 52 ≤ x.significand * y.significand ∨ x.exponent + y.exponent ≤ -1074 := by
    rcases xStored.full with filled | least
    · exact .inl (filled.trans (Nat.le_mul_of_pos_right _ yPos))
    · rcases yStored.full with filled | least'
      · exact .inl (filled.trans (Nat.le_mul_of_pos_left _ xPos))
      · omega
  obtain ⟨v, rounds, stands⟩ := stands_roundWithAccuracy_exact (x.sign * y.sign) full
  refine ⟨x.sign * y.sign, v, rounds.congr unitSteps_pos ?_, ?_⟩
  · have := xStored.least
    have := yStored.least
    rw [unitSteps_eq]
    exact product_cross (by omega)
  · rw [parts_of_isFinite hx xPos, parts_of_isFinite hy yPos]
    exact stands

theorem isRounded_mul (hx : x.isFinite = true) (hy : y.isFinite = true)
    (lt : x.stepCount * y.stepCount < overflowSteps * unitSteps) :
    IsRounded (x.stepCount * y.stepCount) unitSteps (x * y) := by
  obtain ⟨s, v, rounds, stands⟩ := stands_mul hx hy
  rw [mul_eq]
  exact isRounded_ofParts rounds stands lt

/-! ### Quotients -/

private theorem quotient_cross {m n a b c k r z : Nat} (sum : k + a + c = b + z + r) :
    m * 2 ^ k * 2 ^ a * (n * 2 ^ c) = m * 2 ^ b * 2 ^ z * (n * 2 ^ r) := by
  calc m * 2 ^ k * 2 ^ a * (n * 2 ^ c) = m * n * 2 ^ (k + a + c) := by ring
    _ = m * n * 2 ^ (b + z + r) := by rw [sum]
    _ = m * 2 ^ b * 2 ^ z * (n * 2 ^ r) := by ring

/-- A quotient is taken with enough bits, or down to the least exponent. -/
private theorem divCore_eq {f : Int} (hm : IsStored m e) (hn : IsStored n f) :
    ∃ (t : Int) (k : Nat), divCore binary64 m e n f =
        (m * 2 ^ k / n, t, accuracyOfFraction (m * 2 ^ k % n) n) ∧
      t + k = e - f ∧ (t ≤ -1074 ∨ 2 ^ 52 ≤ m * 2 ^ k / n) := by
  have mLog : m.log2 ≤ 52 := Nat.lt_succ_iff.1 ((Nat.log2_lt hm.pos.ne').2 hm.lt)
  generalize target : min (e - f)
    (binary64.targetExponent (totalExponent m e - totalExponent n f)) = t
  have bits : t = min (e - f) (max (m.log2 + e - (n.log2 + f) - 53) (-1074)) := by
    rw [← target]
    change min (e - f) (max ((m.log2 : Int) + 1 + e - (n.log2 + 1 + f) - 53) (-1074)) = _
    omega
  refine ⟨t, (e - f - t).toNat, ?_, by omega, ?_⟩
  · rw [divCore, target, ← Nat.shiftLeft_eq]
  · refine or_iff_not_imp_left.2 fun large => ?_
    -- the shift fills the quotient up to 53 bits, whatever the lengths of the two
    have filled : m.log2 + (e - f - t).toNat = n.log2 + 53 := by omega
    rw [Nat.le_div_iff_mul_le hn.pos]
    calc 2 ^ 52 * n ≤ 2 ^ 52 * 2 ^ (n.log2 + 1) := Nat.mul_le_mul_left _ Nat.lt_log2_self.le
      _ = 2 ^ m.log2 * 2 ^ (e - f - t).toNat := by rw [← pow_add, ← pow_add, filled]; congr 1; omega
      _ ≤ m * 2 ^ (e - f - t).toNat := Nat.mul_le_mul_right _ (Nat.log2_self_le hm.pos.ne')

/-- The quotient of two finite numbers is their exact quotient, rounded. -/
theorem stands_div (hx : x.isFinite = true) (hy : y.isFinite = true) (pos : 0 < y.significand) :
    ∃ s v, Rounds (x.stepCount * unitSteps) y.stepCount v ∧
      Stands s v (.div binary64 x.parts y.parts) := by
  have yStored := isStored_of_pos pos
  refine ⟨x.sign / y.sign, ?_⟩
  rcases Nat.eq_zero_or_pos x.significand with zero | xPos
  · refine ⟨0, ?_, ?_⟩
    · rw [stepCount, zero, Nat.zero_mul, Nat.zero_mul]
      exact rounds_zero yStored.count_pos
    · rw [parts_of_zero zero, parts_of_isFinite hy pos]
      exact .zero
  have xStored := isStored_of_pos xPos
  obtain ⟨t, k, core, sum, kind⟩ := divCore_eq xStored yStored
  generalize quot : x.significand * 2 ^ k / y.significand = q at kind
  have wide : 2 ^ 52 ≤ q → 52 ≤ q.log2 := fun le => (Nat.le_log2 (by omega)).2 le
  obtain ⟨v, rounds, stands⟩ := stands_roundWithAccuracy_of_le (x.sign / y.sign)
    (n := x.significand * 2 ^ k) pos (e := t)
    (by rw [quot, targetExponent_eq]; omega) (by rw [quot]; omega)
  refine ⟨v, rounds.congr yStored.count_pos ?_, ?_⟩
  · have := xStored.least
    have := yStored.least
    rw [unitSteps_eq]
    exact quotient_cross (by omega)
  · rw [parts_of_isFinite hx xPos, parts_of_isFinite hy pos, UnpackedFloat.div, core]
    exact stands

theorem isRounded_div (hx : x.isFinite = true) (hy : y.isFinite = true) (pos : 0 < y.significand)
    (lt : x.stepCount * unitSteps < overflowSteps * y.stepCount) :
    IsRounded (x.stepCount * unitSteps) y.stepCount (x / y) := by
  obtain ⟨s, v, rounds, stands⟩ := stands_div hx hy pos
  rw [div_eq]
  exact isRounded_ofParts rounds stands lt

end Intake.Binary64
