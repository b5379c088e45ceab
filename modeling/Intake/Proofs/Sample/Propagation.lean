import Intake.Sample
import Intake.Proofs.Binary64.Special

/-!
How special samples show in the figures. A partial sum that has met an infinity or a NaN never comes
back, so the mean is not finite and the deviation, in which that sample is compared with the mean,
is a NaN. Whatever the samples are, the deviation is a NaN or has a clear sign bit.
-/

set_option autoImplicit false
set_option relaxedAutoImplicit false

namespace Intake.Sample

open Binary64
open Float.Model.UnpackedFloat (Sign)

variable {xs : List Binary64} {x : Binary64} {s : Sign}

theorem mean_ofList (h : xs ≠ []) : (Summary.ofList xs).mean = sum xs / .ofNat xs.length := by
  cases xs with
  | nil => exact absurd rfl h
  | cons x xs => rfl

theorem deviation_ofList (h : xs ≠ []) :
    (Summary.ofList xs).deviation =
      (sum (xs.map (squaredDistance (Summary.ofList xs).mean)) / .ofNat xs.length).sqrt := by
  cases xs with
  | nil => exact absurd rfl h
  | cons x xs => rfl

/-! ### Samples that are not finite -/

/-- What lies beyond in a partial sum, or is added later, is there at the end. -/
private theorem liesBeyond_foldl (xs : List Binary64) (acc : Binary64)
    (h : acc.LiesBeyond s ∨ ∃ x ∈ xs, x.LiesBeyond s) : (xs.foldl (· + ·) acc).LiesBeyond s := by
  induction xs generalizing acc with
  | nil => simpa using h
  | cons y ys ih =>
    apply ih
    rcases h with beyond | ⟨x, mem, beyond⟩
    · exact .inl (beyond.add_right y)
    · rcases List.mem_cons.1 mem with rfl | later
      · exact .inl (beyond.add_left acc)
      · exact .inr ⟨x, later, beyond⟩

theorem liesBeyond_sum (mem : x ∈ xs) (beyond : x.LiesBeyond s) : (sum xs).LiesBeyond s :=
  liesBeyond_foldl xs _ (.inr ⟨x, mem, beyond⟩)

theorem isNaN_sum (mem : x ∈ xs) (nan : x.isNaN = true) : (sum xs).isNaN = true :=
  isNaN_iff_liesBeyond.2 fun s => liesBeyond_sum mem (isNaN_iff_liesBeyond.1 nan s)

/-- Dividing by a count leaves a number beyond where it is. -/
theorem liesBeyond_div_count (h : x.LiesBeyond s) (n : Nat) : (x / .ofNat n).LiesBeyond s :=
  h.div_of_positive (sign?_ofNat n)

theorem isNaN_div_count (h : x.isNaN = true) (n : Nat) : (x / .ofNat n).isNaN = true :=
  isNaN_iff_liesBeyond.2 fun s => liesBeyond_div_count (isNaN_iff_liesBeyond.1 h s) n

theorem liesBeyond_mean (mem : x ∈ xs) (beyond : x.LiesBeyond s) :
    (Summary.ofList xs).mean.LiesBeyond s := by
  rw [mean_ofList (List.ne_nil_of_mem mem)]
  exact liesBeyond_div_count (liesBeyond_sum mem beyond) _

/-- If a sample is not finite, the deviation is a NaN and the mean is not finite, and a NaN if some
sample is one. -/
theorem figures_of_not_isFinite (mem : x ∈ xs) (h : x.isFinite = false) :
    (Summary.ofList xs).deviation.isNaN = true ∧ (Summary.ofList xs).mean.isFinite = false ∧
      ((∃ y ∈ xs, y.isNaN = true) → (Summary.ofList xs).mean.isNaN = true) := by
  have beyond : x.LiesBeyond x.sign := liesBeyond_sign h
  have ofMean := liesBeyond_mean mem beyond
  refine ⟨?_, ofMean.isFinite_eq_false, ?_⟩
  · have distance : (squaredDistance (Summary.ofList xs).mean x).isNaN = true :=
      isNaN_mul_self (beyond.isNaN_sub ofMean)
    have squares := isNaN_sum (List.mem_map_of_mem mem) distance
    rw [deviation_ofList (List.ne_nil_of_mem mem)]
    exact isNaN_sqrt (isNaN_div_count squares _)
  · rintro ⟨y, member, nan⟩
    exact isNaN_iff_liesBeyond.2 fun s => liesBeyond_mean member (isNaN_iff_liesBeyond.1 nan s)

/-- The sum of two large numbers is infinite before the opposite infinity comes. -/
theorem figures_of_not_isFinite_overflow :
    let xs : List Binary64 := [⟨0x7FEFFFFFFFFFFFFF⟩, ⟨0x7FEFFFFFFFFFFFFF⟩, ⟨0xFFF0000000000000⟩]
    ⟨0xFFF0000000000000⟩ ∈ xs ∧ isFinite ⟨0xFFF0000000000000⟩ = false ∧
      (Summary.ofList xs).deviation.isNaN = true ∧ (Summary.ofList xs).mean.isFinite = false ∧
      (Summary.ofList (⟨0xFFF8000000000000⟩ :: xs)).mean.isNaN = true := by
  intro xs
  have mem : ⟨0xFFF0000000000000⟩ ∈ xs := by decide
  obtain ⟨deviation, mean, _⟩ := figures_of_not_isFinite mem (by decide)
  have nan : ⟨0xFFF8000000000000⟩ ∈ (⟨0xFFF8000000000000⟩ : Binary64) :: xs := List.mem_cons_self
  exact ⟨mem, by decide, deviation, mean,
    (figures_of_not_isFinite nan (by decide)).2.2 ⟨_, nan, by decide⟩⟩

/-! ### The sign of the deviation -/

/-- Once something was added the sum is no longer the negative zero. -/
private theorem isClear_foldl (xs : List Binary64) (acc : Binary64) (h : acc.IsClear)
    (clear : ∀ x ∈ xs, x.IsClear) : (xs.foldl (· + ·) acc).IsClear := by
  induction xs generalizing acc with
  | nil => exact h
  | cons y ys ih =>
    rw [List.forall_mem_cons] at clear
    exact ih (acc + y) (h.add clear.1) clear.2

theorem isClear_sum (nonempty : xs ≠ []) (clear : ∀ x ∈ xs, x.IsClear) : (sum xs).IsClear := by
  cases xs with
  | nil => exact absurd rfl nonempty
  | cons y ys =>
    rw [List.forall_mem_cons] at clear
    exact isClear_foldl ys _ (isClear_negativeZero_add clear.1) clear.2

/-- The deviation is a NaN, or not negative: its sign bit is clear, so it is not the negative
zero. -/
theorem deviation_nonnegative (xs : List Binary64) :
    (Summary.ofList xs).deviation.isNaN = true ∨
      (Summary.ofList xs).deviation.isNegative = false ∧
        (Summary.ofList xs).deviation ≠ .negativeZero ∧
        (0 : Float) ≤ (Summary.ofList xs).deviation.toFloat := by
  have clear : (Summary.ofList xs).deviation.IsClear := by
    rcases eq_or_ne xs [] with rfl | nonempty
    · exact isClear_of_not_isNegative (by decide)
    have squares : ∀ y ∈ xs.map (squaredDistance (Summary.ofList xs).mean), y.IsClear := by
      intro y hy
      obtain ⟨x, _, rfl⟩ := List.mem_map.1 hy
      exact isClear_mul_self _
    rw [deviation_ofList nonempty]
    exact ((isClear_sum (by simpa using nonempty) squares).div (sign?_ofNat _)).sqrt
  rcases clear with nan | positive
  · exact .inl (isNaN_iff.2 nan)
  · have sign : (Summary.ofList xs).deviation.isNegative = false :=
      isNegative_eq_false_of_positive positive
    refine .inr ⟨sign, ?_, zero_le_toFloat positive⟩
    intro same
    rw [same] at sign
    exact absurd sign (by decide)

end Intake.Sample
