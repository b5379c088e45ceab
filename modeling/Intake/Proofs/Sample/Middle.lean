import Intake.Proofs.Sample.Ranks
import Intake.Proofs.Binary64.Midpoint

/-!
The median against the smallest and the largest number. For finite numbers it lies between the two
unless the two middle numbers of an even count have a sum that overflows; then it is infinite.
-/

set_option autoImplicit false
set_option relaxedAutoImplicit false

namespace Intake.Sample

open Binary64

variable {xs : List Binary64} {a b m : Binary64}

/-- A finite number between the smallest and the largest of a list: some number of the list is not
above it, and some is not below. -/
structure LiesWithin (xs : List Binary64) (m : Binary64) : Prop where
  isFinite : m.isFinite = true
  lower : ∃ x ∈ xs, x.toFloat ≤ m.toFloat
  upper : ∃ x ∈ xs, m.toFloat ≤ x.toFloat

/-- The two middle numbers of an even count have a sum that does not overflow. -/
def MiddleFits (xs : List Binary64) : Prop :=
  xs.length % 2 = 0 → ∀ a b, HasRank xs (xs.length / 2) a → HasRank xs (xs.length / 2 + 1) b →
    (a.steps + b.steps).natAbs < overflowSteps

theorem liesWithin_of_mem (mem : m ∈ xs) (finite : m.isFinite = true) : LiesWithin xs m := by
  have same : m.toFloat ≤ m.toFloat := (toFloat_le_iff finite finite).2 le_rfl
  exact ⟨finite, ⟨m, mem, same⟩, m, mem, same⟩

/-- What is between two numbers of a list in steps is between its smallest and its largest. -/
theorem liesWithin_of_steps (finite : ∀ x ∈ xs, x.isFinite = true) (ha : a ∈ xs) (hb : b ∈ xs)
    (hm : m.isFinite = true) (lower : min a.steps b.steps ≤ m.steps)
    (upper : m.steps ≤ max a.steps b.steps) : LiesWithin xs m := by
  refine ⟨hm, ?_, ?_⟩
  · rcases min_le_iff.1 lower with le | le
    · exact ⟨a, ha, (toFloat_le_iff (finite a ha) hm).2 le⟩
    · exact ⟨b, hb, (toFloat_le_iff (finite b hb) hm).2 le⟩
  · rcases le_max_iff.1 upper with le | le
    · exact ⟨a, ha, (toFloat_le_iff hm (finite a ha)).2 le⟩
    · exact ⟨b, hb, (toFloat_le_iff hm (finite b hb)).2 le⟩

theorem not_liesWithin_of_isInfinite (h : m.isInfinite = true) : ¬ LiesWithin xs m := by
  rintro ⟨finite, _, _⟩
  simp_all [isInfinite, Binary64.isFinite]

theorem middleFits_iff (even : xs.length % 2 = 0) (first : HasRank xs (xs.length / 2) a)
    (second : HasRank xs (xs.length / 2 + 1) b) :
    MiddleFits xs ↔ (a.steps + b.steps).natAbs < overflowSteps := by
  constructor
  · intro fits
    exact fits even a b first second
  · intro lt _ c d hc hd
    rwa [hc.unique first, hd.unique second]

/-- The median of finite numbers is finite and lies between the smallest and the largest exactly if
the sum of the two middle numbers of an even count stays below half a unit beyond the largest finite
number; if it does not, the median is infinite. -/
theorem median_liesWithin_iff (h : xs ≠ []) (finite : ∀ x ∈ xs, x.isFinite = true) :
    (LiesWithin xs (Summary.ofList xs).median ↔ MiddleFits xs) ∧
      (¬ MiddleFits xs → (Summary.ofList xs).median.isInfinite = true) := by
  rw [median_ofList h]
  rcases Nat.mod_two_eq_zero_or_one xs.length with even | odd
  · obtain ⟨a, b, first, second, mean⟩ := median_of_even h even
    have ha := finite a first.mem
    have hb := finite b second.mem
    rw [middleFits_iff even first second, mean]
    by_cases lt : (a.steps + b.steps).natAbs < overflowSteps
    · obtain ⟨hm, lower, upper⟩ := half_add_between ha hb lt
      have within := liesWithin_of_steps finite first.mem second.mem hm lower upper
      exact ⟨iff_of_true within lt, fun beyond => absurd lt beyond⟩
    · have infinite := isInfinite_half_add ha hb (Nat.not_lt.1 lt)
      exact ⟨iff_of_false (not_liesWithin_of_isInfinite infinite) lt, fun _ => infinite⟩
  · have fits : MiddleFits xs := by
      intro even
      omega
    have mem := (hasRank_median_of_odd odd).mem
    have within := liesWithin_of_mem mem (finite _ mem)
    exact ⟨iff_of_true within fits, fun beyond => absurd fits beyond⟩

/-- The numbers at the ends of the range do not matter, and half of the least number is rounded. -/
theorem median_liesWithin_iff_ends :
    let xs : List Binary64 := [⟨0x7FEFFFFFFFFFFFFF⟩, ⟨1⟩, .zero, ⟨0xFFEFFFFFFFFFFFFF⟩]
    xs ≠ [] ∧ (∀ x ∈ xs, x.isFinite = true) ∧ LiesWithin xs (Summary.ofList xs).median := by
  intro xs
  have finite : ∀ x ∈ xs, x.isFinite = true := by decide
  have fits : MiddleFits xs := by
    have first : HasRank xs (xs.length / 2) .zero := ⟨by decide, by decide, by decide⟩
    have second : HasRank xs (xs.length / 2 + 1) ⟨1⟩ := ⟨by decide, by decide, by decide⟩
    have small : (steps .zero + steps ⟨1⟩).natAbs < 2 ^ 54 - 1 := by decide
    rw [middleFits_iff (by decide) first second, overflowSteps]
    exact small.trans_le (Nat.le_mul_of_pos_right _ (by positivity))
  exact ⟨by decide, finite, (median_liesWithin_iff (by decide) finite).1.2 fits⟩

/-- The sum of twice the largest finite number is infinite, and so is half of it. -/
theorem median_largest :
    median [⟨0x7FEFFFFFFFFFFFFF⟩, ⟨0x7FEFFFFFFFFFFFFF⟩] = ⟨0x7FF0000000000000⟩ := by
  have inOrder : sorted [⟨0x7FEFFFFFFFFFFFFF⟩, ⟨0x7FEFFFFFFFFFFFFF⟩] =
      [⟨0x7FEFFFFFFFFFFFFF⟩, ⟨0x7FEFFFFFFFFFFFFF⟩] := List.mergeSort_of_pairwise (by decide)
  rw [median, inOrder]
  decide

/-- Twice the largest finite number has an infinite median. -/
theorem not_liesWithin_median_largest :
    let xs : List Binary64 := [⟨0x7FEFFFFFFFFFFFFF⟩, ⟨0x7FEFFFFFFFFFFFFF⟩]
    xs ≠ [] ∧ (∀ x ∈ xs, x.isFinite = true) ∧
      (Summary.ofList xs).median = ⟨0x7FF0000000000000⟩ ∧
      ¬ LiesWithin xs (Summary.ofList xs).median := by
  intro xs
  have infinite : (Summary.ofList xs).median = ⟨0x7FF0000000000000⟩ := by
    rw [median_ofList (by decide), median_largest]
  refine ⟨by decide, by decide, infinite, ?_⟩
  rw [infinite]
  exact not_liesWithin_of_isInfinite (by decide)

end Intake.Sample
