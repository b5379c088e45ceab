import Intake.Proofs.Binary64.Rounding

/-!
Finite numbers as whole counts of steps of `2 ^ -1074`: their order is that of the counts, parts
that stand for a count below that of `2 ^ 1024` are stored as they are and others as an infinity,
and a whole number of units is rounded to such parts.
-/

set_option autoImplicit false
set_option relaxedAutoImplicit false

namespace Intake.Binary64

open Float.Model (UnpackedFloat totalExponent)
open Float.Model.UnpackedFloat
open Float.Model.Format (binary64)

variable {x y : Binary64} {s t : Sign} {m n v w : Nat} {e f : Int} {p q : UnpackedFloat}

/-- The absolute value of a finite number in steps of `2 ^ -1074`. -/
def stepCount (x : Binary64) : Nat := x.significand * 2 ^ (x.exponent + 1074).toNat

/-- A finite number in steps of `2 ^ -1074`, the least positive number. -/
def steps (x : Binary64) : Int := if x.isNegative then -(x.stepCount : Int) else x.stepCount

/-- The count of steps that no finite number reaches, `2 ^ 1024`. -/
def countLimit : Nat := 2 ^ (2044 + 54)

/-- The least count of steps that is rounded up to `2 ^ 1024`: half a unit below it. -/
def overflowSteps : Nat := (2 ^ 54 - 1) * 2 ^ 2044

theorem countLimit_pos : 0 < countLimit := by
  rw [countLimit]
  positivity

theorem steps_eq (x : Binary64) : x.steps = x.sign.apply x.stepCount := by
  rw [steps, sign]
  split <;> rfl

theorem natAbs_steps (x : Binary64) : x.steps.natAbs = x.stepCount := by
  rw [steps]
  split <;> omega

/-! ### Stored numbers -/

theorem isStored_of_pos (pos : 0 < x.significand) : IsStored x.significand x.exponent := by
  have fraction := x.fraction_lt
  refine ⟨pos, ?_, ?_, ?_⟩ <;> simp only [significand, exponent] <;> split <;> omega

theorem IsStored.count_pos (h : IsStored m e) : 0 < m * 2 ^ (e + 1074).toNat :=
  Nat.mul_pos h.pos (Nat.two_pow_pos _)

theorem IsStored.count_lt (h : IsStored m e) :
    m * 2 ^ (e + 1074).toNat < 2 ^ 53 * 2 ^ (e + 1074).toNat :=
  Nat.mul_lt_mul_of_pos_right h.lt (Nat.two_pow_pos _)

theorem exponent_le (h : x.isFinite = true) : x.exponent ≤ 971 := by
  have field := x.exponentField_lt
  rw [isFinite, bne_iff_ne] at h
  rw [exponent]
  split <;> omega

theorem stands_parts (h : x.isFinite = true) : Stands x.sign x.stepCount x.parts := by
  rcases Nat.eq_zero_or_pos x.significand with zero | pos
  · rw [parts_of_zero zero, stepCount, zero, Nat.zero_mul]
    exact .zero
  · rw [parts_of_isFinite h pos]
    exact .finite (isStored_of_pos pos)

theorem Stands.unique (first : Stands s v p) (second : Stands t w p) : s = t ∧ v = w := by
  cases first <;> cases second <;> exact ⟨rfl, rfl⟩

/-- A number is finite if its parts stand for a count, and that is its count. -/
theorem Stands.steps_eq (h : Stands s v x.parts) :
    x.isFinite = true ∧ x.sign = s ∧ x.stepCount = v := by
  have finite : x.isFinite = true := by
    rw [← isFinite_parts]
    generalize x.parts = p at h
    cases h <;> rfl
  exact ⟨finite, (stands_parts finite).unique h⟩

/-- The exponent of a stored number fits if its count is below the powers of two that overflow. -/
theorem IsStored.lt_two_pow_iff (h : IsStored m e) (k : Nat) :
    m * 2 ^ (e + 1074).toNat < 2 ^ (k + 54) ↔ e + 1074 ≤ k + 1 := by
  constructor
  · intro lt
    by_contra large
    have filled : 2 ^ 52 ≤ m := h.full.resolve_right (by omega)
    have least : 2 ^ (k + 54) ≤ m * 2 ^ (e + 1074).toNat := by
      calc 2 ^ (k + 54) = 2 ^ 52 * 2 ^ (k + 2) := by ring
        _ ≤ m * 2 ^ (e + 1074).toNat := by
          gcongr
          · decide
          · omega
    omega
  · intro fits
    calc m * 2 ^ (e + 1074).toNat < 2 ^ 53 * 2 ^ (e + 1074).toNat := h.count_lt
      _ ≤ 2 ^ 53 * 2 ^ (k + 1) := by
          gcongr
          · decide
          · omega
      _ = 2 ^ (k + 54) := by ring

/-- Parts below the limit are stored as they are. -/
theorem Stands.ofParts (h : Stands s v p) (lt : v < countLimit) : Stands s v (ofParts p).parts := by
  cases h with
  | zero =>
    rw [parts_ofParts_zero]
    exact .zero
  | finite stored =>
    have fits := (stored.lt_two_pow_iff 2044).1 lt
    rw [parts_ofParts_of_fits stored (by omega)]
    exact .finite stored

theorem Stands.parts_ofParts_of_le (h : Stands s v p) (le : countLimit ≤ v) :
    (Binary64.ofParts p).parts = .infinity s := by
  cases h with
  | zero => exact absurd le (Nat.not_le.2 countLimit_pos)
  | finite stored =>
    have large := mt (stored.lt_two_pow_iff 2044).2 (Nat.not_lt.2 le)
    rw [ofParts_of_overflow stored.pos (by omega), parts_ofParts_of_not_isFinite rfl]

/-! ### Order -/

/-- Of two stored numbers the one with the larger exponent is the larger. -/
theorem IsStored.lt_of_exponent_lt (hm : IsStored m e) (hn : IsStored n f) (lt : e < f) :
    m * 2 ^ (e + 1074).toNat < n * 2 ^ (f + 1074).toNat := by
  have least := hm.least
  have filled : 2 ^ 52 ≤ n := hn.full.resolve_right (by omega)
  calc m * 2 ^ (e + 1074).toNat < 2 ^ 53 * 2 ^ (e + 1074).toNat := hm.count_lt
    _ = 2 ^ 52 * 2 ^ ((e + 1074).toNat + 1) := by ring
    _ ≤ n * 2 ^ (f + 1074).toNat := by
      gcongr
      · decide
      · omega

theorem IsStored.compare_eq (hm : IsStored m e) (hn : IsStored n f) :
    (compare e f).then (compare m n) =
      compare (m * 2 ^ (e + 1074).toNat) (n * 2 ^ (f + 1074).toNat) := by
  rcases lt_trichotomy e f with less | rfl | more
  · rw [Int.compare_eq_lt.2 less, Nat.compare_eq_lt.2 (hm.lt_of_exponent_lt hn less)]
    rfl
  · have unit : 0 < 2 ^ (e + 1074).toNat := by positivity
    rw [Int.compare_eq_eq.2 rfl]
    simp only [Ordering.then, Nat.compare_eq_ite_lt, Nat.mul_lt_mul_right unit]
  · rw [Int.compare_eq_gt.2 more, Nat.compare_eq_gt.2 (hn.lt_of_exponent_lt hm more)]
    rfl

theorem Stands.le_iff (hp : Stands s v p) (hq : Stands t w q) :
    p.le q = true ↔ s.apply v ≤ t.apply w := by
  cases hp with
  | zero =>
    cases hq with
    | zero => cases s <;> cases t <;> decide
    | finite right =>
      have := right.count_pos
      cases s <;> cases t <;>
        simp only [UnpackedFloat.le, UnpackedFloat.compare, Sign.apply, Option.any_some,
          Ordering.isLE_lt, Ordering.isLE_gt, Bool.false_eq_true, true_iff, false_iff] <;> omega
  | finite left =>
    have := left.count_pos
    cases hq with
    | zero =>
      cases s <;> cases t <;>
        simp only [UnpackedFloat.le, UnpackedFloat.compare, Sign.apply, Option.any_some,
          Ordering.isLE_lt, Ordering.isLE_gt, Bool.false_eq_true, true_iff, false_iff] <;> omega
    | finite right =>
      have := right.count_pos
      cases s <;> cases t <;>
        simp only [UnpackedFloat.le, UnpackedFloat.compare, Sign.apply, Option.any_some,
          left.compare_eq right, Nat.compare_swap, Nat.isLE_compare,
          Ordering.isLE_lt, Ordering.isLE_gt, Bool.false_eq_true, true_iff, false_iff] <;> omega

theorem toFloat_le_iff (hx : x.isFinite = true) (hy : y.isFinite = true) :
    x.toFloat ≤ y.toFloat ↔ x.steps ≤ y.steps := by
  have model : x.toFloat ≤ y.toFloat ↔ x.parts.le y.parts = true := by
    rw [← unpack_toFloat x, ← unpack_toFloat y]
    exact decide_eq_true_iff
  rw [model, (stands_parts hx).le_iff (stands_parts hy), steps_eq, steps_eq]

/-! ### Rounding to parts -/

theorem IsStored.rounds (h : IsStored m e) :
    Rounds (m * 2 ^ (e + 1074).toNat) 1 (m * 2 ^ (e + 1074).toNat) := by
  have lt := h.count_lt
  generalize unit : (e + 1074).toNat = i at *
  refine ⟨i, ?_, ?_, ?_⟩
  · calc m * 2 ^ i < 2 ^ 53 * 2 ^ i := lt
      _ = 1 * 2 ^ (i + 53) := by ring
  · refine h.full.symm.imp (fun _ => by have := h.least; omega) fun full => ?_
    calc 1 * 2 ^ (i + 52) = 2 ^ 52 * 2 ^ i := by ring
      _ ≤ m * 2 ^ i := by gcongr
  · have whole := Decimal.roundDiv_mul_mul (n := m) (d := 1) (Nat.two_pow_pos i)
    rw [whole, Decimal.roundDiv, Nat.mod_one, Nat.div_one]
    rfl

theorem rounds_zero {d : Nat} (pos : 0 < d) : Rounds 0 d 0 := by
  refine ⟨0, by positivity, .inl rfl, ?_⟩
  rw [Decimal.roundDiv, Nat.zero_div, Nat.zero_mod, Nat.mul_zero, if_pos (by positivity),
    Nat.zero_mul]

theorem Stands.rounds (h : Stands s v p) : Rounds v 1 v := by
  cases h with
  | zero => exact rounds_zero Nat.one_pos
  | finite stored => exact stored.rounds

private theorem log2_mul_two_pow (pos : 0 < m) (k : Nat) : (m * 2 ^ k).log2 = m.log2 + k := by
  rw [Nat.log2_eq_iff (by positivity)]
  constructor
  · rw [pow_add]
    exact Nat.mul_le_mul_right _ (Nat.log2_self_le pos.ne')
  · rw [Nat.add_right_comm, pow_add]
    exact Nat.mul_lt_mul_of_pos_right Nat.lt_log2_self (Nat.two_pow_pos k)

/-- A whole number of units of `2 ^ e` is rounded. -/
theorem stands_round (s : Sign) (pos : 0 < m) (least : -1074 ≤ e) :
    ∃ v, Rounds (m * 2 ^ (e + 1074).toNat) 1 v ∧ Stands s v (round binary64 s m e) := by
  generalize excess : (e - binary64.targetExponent (totalExponent m e)).toNat = k
  have target := targetExponent_eq m e
  have log := log2_mul_two_pow pos k
  have shifted := targetExponent_eq (m * 2 ^ k) (e - k)
  rw [log] at shifted
  have lower : -1074 ≤ e - k := by omega
  obtain ⟨v, rounds, stands⟩ := stands_roundWithAccuracy s (n := m * 2 ^ k) Nat.one_pos lower
    (by rw [Nat.div_one]; omega) (.inl (by rw [Nat.div_one]; positivity))
  refine ⟨v, ?_, ?_⟩
  · have same : m * 2 ^ k * 2 ^ (e - k + 1074).toNat = m * 2 ^ (e + 1074).toNat := by
      rw [Nat.mul_assoc, ← pow_add, show k + (e - k + 1074).toNat = (e + 1074).toNat by omega]
    rwa [same] at rounds
  · unfold UnpackedFloat.round decreaseExponent
    rw [Nat.div_one, Nat.mod_one] at stands
    dsimp only
    rwa [excess, Nat.shiftLeft_eq]

end Intake.Binary64
