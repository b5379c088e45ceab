import Intake.Proofs.Binary64.Parts

/-!
What arithmetic does with infinities, NaNs and signs. Once a number is infinite or a NaN no addition
brings it back, and an infinity less itself is a NaN. Squares, sums of numbers with a clear sign
bit, their quotients by a count and their roots are NaNs or have a clear sign bit.
-/

set_option autoImplicit false
set_option relaxedAutoImplicit false

namespace Intake.Binary64

open Float.Model (UnpackedFloat)
open Float.Model.UnpackedFloat
open Float.Model.Format (binary64)

variable {x y : Binary64} {s : Sign}

theorem isNaN_ofParts (p : UnpackedFloat) : (ofParts p).isNaN = true ↔ p = .notANumber := by
  have none_iff : ∀ q : UnpackedFloat, q = .notANumber ↔ sign? q = none := by
    intro q
    cases q <;> simp [sign?]
  rw [isNaN_iff, none_iff, none_iff, sign?_parts_ofParts]

/-! ### Infinities and NaNs -/

/-- The infinity of a sign, or a NaN. -/
def LiesBeyond (s : Sign) (x : Binary64) : Prop := x.parts = .infinity s ∨ x.parts = .notANumber

theorem liesBeyond_sign (h : x.isFinite = false) : x.LiesBeyond x.sign := by
  rcases parts_cases x with ⟨_, parts⟩ | ⟨_, parts⟩ | ⟨finite, _⟩ | ⟨finite, _⟩
  · exact .inr parts
  · exact .inl parts
  · cases finite.symm.trans h
  · cases finite.symm.trans h

theorem LiesBeyond.isFinite_eq_false (h : x.LiesBeyond s) : x.isFinite = false := by
  rw [← isFinite_parts]
  rcases h with parts | parts <;> rw [parts] <;> rfl

/-- Only a NaN lies beyond on both sides. -/
theorem isNaN_iff_liesBeyond : x.isNaN = true ↔ ∀ s, x.LiesBeyond s := by
  rw [isNaN_iff]
  constructor
  · intro nan s
    exact .inr nan
  · intro beyond
    rcases beyond .negative with low | nan
    · rcases beyond .positive with high | nan
      · cases low.symm.trans high
      · exact nan
    · exact nan

private theorem liesBeyond_ofParts {p : UnpackedFloat} (h : p = .infinity s ∨ p = .notANumber) :
    (ofParts p).LiesBeyond s := by
  rcases h with rfl | rfl
  · exact .inl (parts_ofParts_of_not_isFinite rfl)
  · exact .inr (parts_ofParts_of_not_isFinite rfl)

theorem LiesBeyond.add_right (h : x.LiesBeyond s) (y : Binary64) : (x + y).LiesBeyond s := by
  rw [add_eq]
  apply liesBeyond_ofParts
  rcases h with parts | parts <;> rw [parts]
  · cases y.parts with
    | infinity t => cases s <;> cases t <;> simp [UnpackedFloat.add]
    | notANumber => exact .inr rfl
    | zero t => exact .inl rfl
    | finite t m e pos => exact .inl rfl
  · exact .inr rfl

theorem LiesBeyond.add_left (h : y.LiesBeyond s) (x : Binary64) : (x + y).LiesBeyond s := by
  rw [add_eq]
  apply liesBeyond_ofParts
  rcases h with parts | parts <;> rw [parts]
  · cases x.parts with
    | infinity t => cases s <;> cases t <;> simp [UnpackedFloat.add]
    | notANumber => exact .inr rfl
    | zero t => exact .inl rfl
    | finite t m e pos => exact .inl rfl
  · cases x.parts <;> exact .inr rfl

theorem LiesBeyond.isNaN_sub (hx : x.LiesBeyond s) (hy : y.LiesBeyond s) :
    (x - y).isNaN = true := by
  rw [sub_eq, isNaN_ofParts]
  rcases hx with left | left <;> rcases hy with right | right <;> rw [left, right]
  · cases s <;> rfl
  all_goals rfl

theorem LiesBeyond.div_of_positive (h : x.LiesBeyond s)
    (positive : sign? y.parts = some .positive) : (x / y).LiesBeyond s := by
  rw [div_eq]
  apply liesBeyond_ofParts
  rcases h with parts | parts <;> rw [parts]
  · cases divisor : y.parts with
    | infinity t => exact .inr rfl
    | notANumber => exact .inr rfl
    | zero t | finite t m e pos =>
      rw [divisor, sign?, Option.some.injEq] at positive
      subst positive
      cases s <;> exact .inl rfl
  · exact .inr rfl

theorem isNaN_mul_self (h : x.isNaN = true) : (x * x).isNaN = true := by
  rw [mul_eq, isNaN_ofParts, isNaN_iff.1 h]
  rfl

theorem isNaN_sqrt (h : x.isNaN = true) : x.sqrt.isNaN = true := by
  rw [sqrt_eq, isNaN_ofParts, isNaN_iff.1 h]
  rfl

/-! ### Signs -/

/-- A NaN, or a number with a clear sign bit. -/
def IsClear (x : Binary64) : Prop := x.parts = .notANumber ∨ sign? x.parts = some .positive

theorem isClear_of_not_isNegative (h : x.isNegative = false) : x.IsClear := by
  rw [IsClear, ← isNaN_iff, sign?_parts, sign, h]
  cases x.isNaN <;> simp

theorem isNegative_eq_false_of_positive (h : sign? x.parts = some .positive) :
    x.isNegative = false := by
  rw [sign?_parts, sign] at h
  cases nan : x.isNaN <;> cases negative : x.isNegative <;> simp_all

private theorem isClear_ofParts {p : UnpackedFloat}
    (h : p = .notANumber ∨ sign? p = some .positive) : (ofParts p).IsClear := by
  rcases h with rfl | positive
  · exact .inl (parts_ofParts_of_not_isFinite rfl)
  · exact .inr ((sign?_parts_ofParts p).trans positive)

private theorem positive_cases {p : UnpackedFloat} (h : sign? p = some .positive) :
    p = .infinity .positive ∨ p = .zero .positive ∨ ∃ m e pos, p = .finite .positive m e pos := by
  cases p with
  | notANumber => cases h
  | infinity t => exact .inl (congrArg _ (Option.some.inj h))
  | zero t => exact .inr (.inl (congrArg _ (Option.some.inj h)))
  | finite t m e pos =>
    cases Option.some.inj h
    exact .inr (.inr ⟨m, e, pos, rfl⟩)

theorem sign?_roundWithAccuracy (s : Sign) (m : Nat) (e : Int) (a : Accuracy) :
    sign? (roundWithAccuracy binary64 s m e a) = some s := by
  rw [roundWithAccuracy]
  dsimp only
  split <;> rfl

theorem sign?_normalize {m : Int} (h : 0 ≤ m) (e : Int) :
    sign? (normalize binary64 m e .positive) = some .positive := by
  unfold UnpackedFloat.normalize
  rcases h.lt_or_eq with pos | zero
  · rw [Int.compare_eq_gt.2 pos]
    exact sign?_roundWithAccuracy _ _ _ _
  · rw [← zero]
    rfl

theorem zero_le_toFloat (h : sign? x.parts = some .positive) : (0 : Float) ≤ x.toFloat := by
  refine decide_eq_true ?_
  change UnpackedFloat.le (.zero .positive) x.toFloat.toModel.unpack = true
  rw [unpack_toFloat]
  rcases positive_cases h with parts | parts | ⟨m, e, pos, parts⟩ <;> rw [parts] <;> rfl

theorem isClear_mul_self (x : Binary64) : (x * x).IsClear := by
  rw [mul_eq]
  apply isClear_ofParts
  have square : ∀ t : Sign, t * t = .positive := by
    intro t
    cases t <;> rfl
  cases x.parts with
  | notANumber => exact .inl rfl
  | infinity t | zero t => exact .inr (congrArg some (square t))
  | finite t m e pos =>
    exact .inr ((sign?_roundWithAccuracy _ _ _ _).trans (congrArg some (square t)))

/-- The negative zero with which a sum begins leaves a clear sign bit as it is. -/
theorem isClear_negativeZero_add (h : y.IsClear) : (negativeZero + y).IsClear := by
  rw [add_eq]
  apply isClear_ofParts
  rcases h with nan | positive
  · rw [nan]
    exact .inl rfl
  · refine .inr ?_
    rcases positive_cases positive with parts | parts | ⟨m, e, pos, parts⟩ <;> rw [parts] <;> rfl

theorem IsClear.add (hx : x.IsClear) (hy : y.IsClear) : (x + y).IsClear := by
  rw [add_eq]
  apply isClear_ofParts
  rcases hx with left | left
  · rw [left]
    exact .inl rfl
  rcases hy with right | right
  · rw [right]
    refine .inl ?_
    cases x.parts <;> rfl
  refine .inr ?_
  rcases positive_cases left with left | left | ⟨m, e, pos, left⟩ <;>
    rcases positive_cases right with right | right | ⟨m', e', pos', right⟩ <;> rw [left, right]
  case inr.inr.inr.inr => exact sign?_normalize (by simp only [Sign.apply]; positivity) _
  all_goals rfl

theorem IsClear.div (hx : x.IsClear) (positive : sign? y.parts = some .positive) :
    (x / y).IsClear := by
  rw [div_eq]
  apply isClear_ofParts
  rcases hx with left | left
  · rw [left]
    exact .inl rfl
  rcases positive_cases left with left | left | ⟨m, e, pos, left⟩ <;> rw [left]
  · rcases positive_cases positive with right | right | ⟨m', e', pos', right⟩ <;> rw [right]
    · exact .inl rfl
    · exact .inr rfl
    · exact .inr rfl
  · rcases positive_cases positive with right | right | ⟨m', e', pos', right⟩ <;> rw [right]
    · exact .inr rfl
    · exact .inl rfl
    · exact .inr rfl
  · rcases positive_cases positive with right | right | ⟨m', e', pos', right⟩ <;> rw [right]
    · exact .inr rfl
    · exact .inr rfl
    · exact .inr (sign?_roundWithAccuracy _ _ _ _)

theorem IsClear.sqrt (h : x.IsClear) : x.sqrt.IsClear := by
  rw [sqrt_eq]
  apply isClear_ofParts
  rcases h with nan | positive
  · rw [nan]
    exact .inl rfl
  rcases positive_cases positive with parts | parts | ⟨m, e, pos, parts⟩ <;> rw [parts]
  case inr.inr => exact .inr (sign?_roundWithAccuracy _ _ _ _)
  all_goals exact .inr rfl

private theorem sign?_mul_finite {p : UnpackedFloat} (h : sign? p = some .positive) {m : Nat}
    {e : Int} (pos : 0 < m) :
    sign? (.mul binary64 p (.finite .positive m e pos)) = some .positive := by
  rcases positive_cases h with rfl | rfl | ⟨m', e', pos', rfl⟩
  · rfl
  · rfl
  · exact sign?_roundWithAccuracy _ _ _ _

private theorem sign?_ofScientific (n : Nat) :
    sign? (.ofScientific binary64 n 0) = some .positive := by
  unfold UnpackedFloat.ofScientific
  split
  · rfl
  split
  · rfl
  split
  · rfl
  rw [if_pos le_rfl]
  exact sign?_mul_finite rfl _

/-- A count is a positive number, the infinity if it is too large for a finite one. -/
theorem sign?_ofNat (n : Nat) : sign? (ofNat n).parts = some .positive := by
  change sign? (parts ⟨(Float.ofScientific n false 0).toBits⟩) = _
  unfold Float.ofScientific
  split
  next small =>
    have whole : sign? (ofParts (.ofNat binary64 n.toUInt64.toNat)).parts = some .positive :=
      (sign?_parts_ofParts _).trans (sign?_normalize (Int.natCast_nonneg _) 0)
    have one : Float.exactlyRepresentablePowersOfTen[0].toModel.unpack =
        .finite .positive 0x10000000000000 (-52) (by decide) := rfl
    refine (sign?_parts_ofParts _).trans ?_
    rw [one]
    exact sign?_mul_finite whole _
  next => exact (sign?_parts_ofParts _).trans (sign?_ofScientific n)

end Intake.Binary64
