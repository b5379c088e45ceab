import Intake.Proofs.Binary64.Steps

/-!
Half the sum of two finite numbers. The sum of two is their exact sum, rounded, unless that reaches
half a unit beyond the largest finite number; then it is an infinity, and so is its half. Otherwise
half the sum is finite and lies between the two.
-/

set_option autoImplicit false
set_option relaxedAutoImplicit false

namespace Intake.Binary64

open Float.Model (UnpackedFloat totalExponent)
open Float.Model.UnpackedFloat
open Float.Model.Format (binary64)

variable {x y : Binary64} {s : Sign} {n c : Int} {d m : Nat} {e : Int} {p : UnpackedFloat}

/-- Parts that stand for the quotient `n / d`, rounded, with the sign of `n`. -/
def IsNearest (n : Int) (d : Nat) (p : UnpackedFloat) : Prop :=
  ∃ s v, n = s.apply n.natAbs ∧ Rounds n.natAbs d v ∧ Stands s v p

theorem isNearest_apply {v : Nat} (rounds : Rounds m d v) (stands : Stands s v p) :
    IsNearest (s.apply m) d p := by
  have abs : (s.apply m).natAbs = m := by
    cases s <;> simp [Sign.apply]
  exact ⟨s, v, by rw [abs], by rwa [abs], stands⟩

theorem isNearest_zero (pos : 0 < d) (s : Sign) : IsNearest 0 d (.zero s) := by
  have zero : s.apply ((0 : Nat) : Int) = 0 := by
    cases s <;> rfl
  exact zero ▸ isNearest_apply (rounds_zero pos) .zero

theorem isNearest_parts (h : x.isFinite = true) : IsNearest x.steps 1 x.parts := by
  have stands := stands_parts h
  rw [steps_eq]
  exact isNearest_apply stands.rounds stands

theorem steps_of_zero (h : x.significand = 0) : x.steps = 0 := by
  rw [steps_eq, stepCount, h, Nat.zero_mul]
  cases x.sign <;> rfl

/-! ### Sums -/

theorem apply_mul (s : Sign) (a b : Int) : s.apply (a * b) = s.apply a * b := by
  cases s
  · exact (Int.neg_mul a b).symm
  · rfl

theorem isNearest_round (s : Sign) (pos : 0 < m) (least : -1074 ≤ e) :
    IsNearest (s.apply m * (2 ^ (e + 1074).toNat : Nat)) 1 (.round binary64 s m e) := by
  obtain ⟨v, rounds, stands⟩ := stands_round s pos least
  rw [← apply_mul, ← Int.natCast_mul]
  exact isNearest_apply rounds stands

theorem isNearest_normalize (n : Int) (least : -1074 ≤ e) (t : Sign) :
    IsNearest (n * (2 ^ (e + 1074).toNat : Nat)) 1 (.normalize binary64 n e t) := by
  unfold UnpackedFloat.normalize
  rcases lt_trichotomy n 0 with neg | rfl | pos
  · have nearest := isNearest_round .negative (m := (-n).toNat) (by omega) least
    rw [Int.compare_eq_lt.2 neg]
    rwa [Int.toNat_of_nonneg (by omega), Sign.apply, Int.neg_neg] at nearest
  · rw [Int.compare_eq_eq.2 rfl, Int.zero_mul]
    exact isNearest_zero Nat.one_pos t
  · have nearest := isNearest_round .positive (m := n.toNat) (by omega) least
    rw [Int.compare_eq_gt.2 pos]
    rwa [Int.toNat_of_nonneg (by omega), Sign.apply] at nearest

/-- A significand brought to a smaller exponent is as many steps. -/
theorem apply_shiftLeft_mul {k : Int} (least : -1074 ≤ k) (le : k ≤ e) :
    s.apply (m <<< (e - k).toNat : Nat) * (2 ^ (k + 1074).toNat : Nat) =
      s.apply (m * 2 ^ (e + 1074).toNat : Nat) := by
  rw [← apply_mul, ← Int.natCast_mul, Nat.shiftLeft_eq, Nat.mul_assoc, ← pow_add,
    show (e - k).toNat + (k + 1074).toNat = (e + 1074).toNat by omega]

/-- The sum of two finite numbers is their exact sum, rounded. -/
theorem isNearest_add (hx : x.isFinite = true) (hy : y.isFinite = true) :
    IsNearest (x.steps + y.steps) 1 (.add binary64 x.parts y.parts) := by
  rcases Nat.eq_zero_or_pos x.significand with xZero | xPos
  · rw [steps_of_zero xZero, Int.zero_add, parts_of_zero xZero]
    rcases Nat.eq_zero_or_pos y.significand with yZero | yPos
    · rw [steps_of_zero yZero, parts_of_zero yZero, UnpackedFloat.add]
      split
      · exact isNearest_zero Nat.one_pos _
      · exact isNearest_zero Nat.one_pos _
    · have nearest := isNearest_parts hy
      rwa [parts_of_isFinite hy yPos] at nearest ⊢
  · rcases Nat.eq_zero_or_pos y.significand with yZero | yPos
    · have nearest := isNearest_parts hx
      rw [steps_of_zero yZero, Int.add_zero, parts_of_zero yZero]
      rwa [parts_of_isFinite hx xPos] at nearest ⊢
    · have xLeast := (isStored_of_pos xPos).least
      have yLeast := (isStored_of_pos yPos).least
      have least : -1074 ≤ min x.exponent y.exponent := by omega
      rw [parts_of_isFinite hx xPos, parts_of_isFinite hy yPos, steps_eq, steps_eq, stepCount,
        stepCount, ← apply_shiftLeft_mul least (Int.min_le_left _ _),
        ← apply_shiftLeft_mul least (Int.min_le_right _ _), ← Int.add_mul]
      exact isNearest_normalize _ least _

/-! ### Halves -/

/-- The quotient by two is taken with two more bits than the significand has, or down to the least
exponent. -/
private theorem divCore_two (h : IsStored m e) :
    ∃ (t : Int) (k : Nat), divCore binary64 m e (2 ^ 52) (-51) =
        (m * 2 ^ k / 2 ^ 52, t, accuracyOfFraction (m * 2 ^ k % 2 ^ 52) (2 ^ 52)) ∧
      t + k = e + 51 ∧ -1074 ≤ t ∧ (t = -1074 ∨ k = 53 ∧ 2 ^ 52 ≤ m) := by
  have least := h.least
  have log : m.log2 ≤ 52 := Nat.lt_succ_iff.1 ((Nat.log2_lt h.pos.ne').2 h.lt)
  generalize target : min (e - -51)
    (binary64.targetExponent (totalExponent m e - totalExponent (2 ^ 52) (-51))) = t
  have bits : t = min (e + 51) (max (m.log2 + e - 54) (-1074)) := by
    have width : totalExponent (2 ^ 52) (-51) = 2 := by decide
    rw [← target, width]
    change min (e - -51) (max ((m.log2 : Int) + 1 + e - 2 - 53) (-1074)) = _
    omega
  refine ⟨t, (e - -51 - t).toNat, ?_, by omega, by omega, ?_⟩
  · rw [divCore, target, ← Nat.shiftLeft_eq]
  · rcases h.full with filled | small
    · have : 52 ≤ m.log2 := (Nat.le_log2 h.pos.ne').2 filled
      omega
    · omega

private theorem parts_two : two.parts = .finite .positive (2 ^ 52) (-51) (by decide) := rfl

/-- Half of a finite number is its exact half, rounded. -/
theorem isNearest_half (h : x.isFinite = true) :
    IsNearest x.steps 2 (.div binary64 x.parts two.parts) := by
  have same : ∀ s : Sign, s / .positive = s := by
    intro s
    cases s <;> rfl
  rw [parts_two]
  rcases Nat.eq_zero_or_pos x.significand with zero | pos
  · rw [steps_of_zero zero, parts_of_zero zero, UnpackedFloat.div, same]
    exact isNearest_zero Nat.two_pos _
  have stored := isStored_of_pos pos
  obtain ⟨t, k, core, sum, least, kind⟩ := divCore_two stored
  have fits : t ≤ binary64.targetExponent (totalExponent (x.significand * 2 ^ k / 2 ^ 52) t) ∧
      (x.significand * 2 ^ k / 2 ^ 52 ≠ 0 ∨ t = -1074) := by
    rw [targetExponent_eq]
    rcases kind with rfl | ⟨rfl, filled⟩
    · exact ⟨le_max_right _ _, .inr rfl⟩
    · have wide : 2 ^ 53 ≤ x.significand * 2 ^ 53 / 2 ^ 52 := by omega
      have : 53 ≤ (x.significand * 2 ^ 53 / 2 ^ 52).log2 := (Nat.le_log2 (by omega)).2 wide
      omega
  obtain ⟨v, rounds, stands⟩ :=
    stands_roundWithAccuracy x.sign (by decide) least fits.1 fits.2
  have scaled : x.significand * 2 ^ k * 2 ^ (t + 1074).toNat = x.stepCount * 2 ^ 51 := by
    have := stored.least
    rw [stepCount, Nat.mul_assoc, Nat.mul_assoc, ← pow_add, ← pow_add,
      show k + (t + 1074).toNat = (x.exponent + 1074).toNat + 51 by omega]
  rw [scaled] at rounds
  rw [parts_of_isFinite h pos, UnpackedFloat.div, same, core, steps_eq]
  exact isNearest_apply (Rounds.of_mul (2 ^ 51) (by decide) rounds) stands

/-! ### Bounds -/

/-- A count that 53 bits can hold. -/
def IsHeld (c : Int) : Prop := ∃ m k, m < 2 ^ 53 ∧ c.natAbs = m * 2 ^ k

theorem isHeld_steps (x : Binary64) : IsHeld x.steps := by
  rcases Nat.eq_zero_or_pos x.significand with zero | pos
  · exact ⟨0, 0, by decide, by rw [steps_of_zero zero]; rfl⟩
  · exact ⟨_, _, (isStored_of_pos pos).lt, natAbs_steps x⟩

theorem IsHeld.mul_two (h : IsHeld c) : IsHeld (c * 2) := by
  obtain ⟨m, k, lt, eq⟩ := h
  refine ⟨m, k + 1, lt, ?_⟩
  rw [Int.natAbs_mul, eq, pow_succ, ← Nat.mul_assoc]
  rfl

theorem IsNearest.isFinite (h : IsNearest n d x.parts) : x.isFinite = true := by
  obtain ⟨s, v, _, _, stands⟩ := h
  exact stands.steps_eq.1

/-- Rounding does not pass a count that 53 bits can hold, neither upwards nor downwards. -/
theorem IsNearest.bounds (h : IsNearest n d x.parts) (held : IsHeld c) :
    (n ≤ c * d → x.steps ≤ c) ∧ (c * d ≤ n → c ≤ x.steps) := by
  obtain ⟨s, v, whole, rounds, stands⟩ := h
  obtain ⟨_, sign, count⟩ := stands.steps_eq
  obtain ⟨m, k, lt, abs⟩ := held
  have pos := rounds.pos
  have upper : n.natAbs ≤ m * 2 ^ k * d → v ≤ m * 2 ^ k := rounds.le lt
  have lower : m * 2 ^ k * d ≤ n.natAbs → m * 2 ^ k ≤ v := rounds.ge lt
  -- a bound whose sign is not that of `n` is passed by zero only, and zero is not rounded
  have least : n.natAbs ≤ 0 → v ≤ 0 := by
    have := rounds.le (m := 0) (k := 0) (by decide)
    omega
  have none : m * 2 ^ k * d = 0 → m * 2 ^ k = 0 := fun zero =>
    (Nat.mul_eq_zero.1 zero).resolve_right pos.ne'
  have product : c = (m * 2 ^ k : Nat) ∧ c * d = (m * 2 ^ k * d : Nat) ∨
      c = -(m * 2 ^ k : Nat) ∧ c * d = -(m * 2 ^ k * d : Nat) := by
    rcases Int.natAbs_eq c with same | same <;> rw [abs] at same
    · exact .inl ⟨same, by rw [same, Int.natCast_mul (_ * _)]⟩
    · exact .inr ⟨same, by rw [same, Int.natCast_mul (_ * _), Int.neg_mul]⟩
  generalize m * 2 ^ k * d = bound at *
  generalize m * 2 ^ k = limit at *
  rw [steps_eq, sign, count]
  cases s <;> rw [Sign.apply] at whole ⊢ <;> omega

/-! ### The middle of two numbers -/

theorem stepCount_lt (h : x.isFinite = true) : x.stepCount < countLimit := by
  rcases Nat.eq_zero_or_pos x.significand with zero | pos
  · rw [stepCount, zero, Nat.zero_mul]
    exact countLimit_pos
  · have le := exponent_le h
    exact ((isStored_of_pos pos).lt_two_pow_iff 2044).2 (by omega)

/-- The sum of two finite numbers is their exact sum, rounded, if that is less than half a unit
beyond the largest finite number. -/
theorem isNearest_parts_add (hx : x.isFinite = true) (hy : y.isFinite = true)
    (lt : (x.steps + y.steps).natAbs < overflowSteps) :
    IsNearest (x.steps + y.steps) 1 (x + y).parts := by
  obtain ⟨s, v, whole, rounds, stands⟩ := isNearest_add hx hy
  have below : v < countLimit := Nat.not_le.1 (mt (rounds.two_pow_le_iff 2044).1 (Nat.not_le.2 lt))
  rw [add_eq]
  exact ⟨s, v, whole, rounds, stands.ofParts below⟩

theorem parts_add_of_overflow (hx : x.isFinite = true) (hy : y.isFinite = true)
    (le : overflowSteps ≤ (x.steps + y.steps).natAbs) : ∃ s, (x + y).parts = .infinity s := by
  obtain ⟨s, v, _, rounds, stands⟩ := isNearest_add hx hy
  rw [add_eq]
  exact ⟨s, stands.parts_ofParts_of_le ((rounds.two_pow_le_iff 2044).2 le)⟩

/-- Half of a finite number is not larger than the number, so it is finite. -/
theorem isNearest_parts_half (h : x.isFinite = true) : IsNearest x.steps 2 (x / two).parts := by
  obtain ⟨s, v, whole, rounds, stands⟩ := isNearest_half h
  obtain ⟨m, k, lt, held⟩ := isHeld_steps x
  have below : v < countLimit := by
    calc v ≤ m * 2 ^ k := rounds.le lt (by omega)
      _ = x.stepCount := held.symm.trans (natAbs_steps x)
      _ < countLimit := stepCount_lt h
  rw [div_eq]
  exact ⟨s, v, whole, rounds, stands.ofParts below⟩

/-- Half the sum of two finite numbers lies between them, if the sum does not overflow. -/
theorem half_add_between (hx : x.isFinite = true) (hy : y.isFinite = true)
    (lt : (x.steps + y.steps).natAbs < overflowSteps) :
    ((x + y) / two).isFinite = true ∧ min x.steps y.steps ≤ ((x + y) / two).steps ∧
      ((x + y) / two).steps ≤ max x.steps y.steps := by
  have sum := isNearest_parts_add hx hy lt
  have half := isNearest_parts_half sum.isFinite
  have between : ∀ z : Binary64,
      (x.steps + y.steps ≤ z.steps * 2 → ((x + y) / two).steps ≤ z.steps) ∧
      (z.steps * 2 ≤ x.steps + y.steps → z.steps ≤ ((x + y) / two).steps) := by
    intro z
    have ofSum := sum.bounds (isHeld_steps z).mul_two
    have ofHalf := half.bounds (isHeld_steps z)
    rw [Nat.cast_one, Int.mul_one] at ofSum
    exact ⟨fun le => ofHalf.1 (ofSum.1 le), fun le => ofHalf.2 (ofSum.2 le)⟩
  have ofX := between x
  have ofY := between y
  exact ⟨half.isFinite, by omega, by omega⟩

theorem isInfinite_half_add (hx : x.isFinite = true) (hy : y.isFinite = true)
    (le : overflowSteps ≤ (x.steps + y.steps).natAbs) : ((x + y) / two).isInfinite = true := by
  obtain ⟨s, sum⟩ := parts_add_of_overflow hx hy le
  refine isInfinite_of_parts (s := s / .positive) ?_
  rw [div_eq, sum, parts_two]
  exact parts_ofParts_of_not_isFinite rfl

end Intake.Binary64
