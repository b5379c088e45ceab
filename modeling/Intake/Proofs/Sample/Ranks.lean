import Intake.Sample
import Intake.Proofs.Binary64.Order

/-!
The median by ranks. Where a number stands in a list in order is decided by how many numbers of the
list precede it, so the median of an odd count is the one number with as many on either side, and of
an even count the mean of the two numbers in the middle. Nothing here looks into the arithmetic.
-/

set_option autoImplicit false
set_option relaxedAutoImplicit false

namespace Intake.Sample

variable {xs ys : List Binary64} {a b m : Binary64} {k : Nat}

/-- How many numbers of a list precede `m`. -/
def countBefore (xs : List Binary64) (m : Binary64) : Nat := xs.countP fun x => x.Precedes m

/-- How many numbers of a list `m` precedes. -/
def countAfter (xs : List Binary64) (m : Binary64) : Nat := xs.countP fun x => m.Precedes x

/-- A number of a list has the rank `k`, counted from one: fewer than `k` numbers precede it, and
`k` at least do not follow it. -/
structure HasRank (xs : List Binary64) (k : Nat) (m : Binary64) : Prop where
  mem : m ∈ xs
  before_lt : countBefore xs m < k
  after_le : countAfter xs m + k ≤ xs.length

/-! ### Ranks -/

theorem countAfter_add_countP (xs : List Binary64) (m : Binary64) :
    countAfter xs m + (xs.countP fun x => x.totalLe m) = xs.length := by
  rw [countAfter, List.length_eq_countP_add_countP (fun x => decide (m.Precedes x))]
  refine congrArg _ (List.countP_congr ?_)
  intro x _
  simp [Binary64.totalLe_iff_not_precedes]

/-- Everything that does not follow `a` precedes what `a` precedes. -/
theorem length_le_of_precedes (xs : List Binary64) (h : a.Precedes b) :
    xs.length ≤ countBefore xs b + countAfter xs a := by
  rw [← countAfter_add_countP xs a, Nat.add_comm]
  refine Nat.add_le_add_right (List.countP_mono_left ?_) _
  intro x _ notAfter
  rw [Binary64.totalLe_iff_not_precedes, Binary64.Precedes, not_lt] at notAfter
  exact decide_eq_true (lt_of_le_of_lt notAfter h)

theorem HasRank.unique (ha : HasRank xs k a) (hb : HasRank xs k b) : a = b := by
  have apart : ∀ {c d : Binary64}, HasRank xs k c → HasRank xs k d → ¬ c.Precedes d := by
    intro c d hc hd before
    have := length_le_of_precedes xs before
    have := hd.before_lt
    have := hc.after_le
    omega
  rcases Binary64.precedes_trichotomy a b with before | same | after
  · exact absurd before (apart ha hb)
  · exact same
  · exact absurd after (apart hb ha)

theorem hasRank_iff_of_perm (h : xs.Perm ys) : HasRank xs k m ↔ HasRank ys k m := by
  have before : countBefore xs m = countBefore ys m := h.countP_eq _
  have after : countAfter xs m = countAfter ys m := h.countP_eq _
  constructor <;> rintro ⟨mem, lt, le⟩
  · exact ⟨h.mem_iff.1 mem, before ▸ lt, after ▸ h.length_eq ▸ le⟩
  · exact ⟨h.mem_iff.2 mem, before ▸ lt, after ▸ h.length_eq ▸ le⟩

/-- In the middle of an odd count stands what has at most half of the others on either side. -/
theorem hasRank_middle_iff (odd : xs.length % 2 = 1) :
    HasRank xs (xs.length / 2 + 1) m ↔
      m ∈ xs ∧ countBefore xs m ≤ (xs.length - 1) / 2 ∧ countAfter xs m ≤ (xs.length - 1) / 2 := by
  constructor
  · rintro ⟨mem, lt, le⟩
    exact ⟨mem, by omega, by omega⟩
  · rintro ⟨mem, before, after⟩
    exact ⟨mem, by omega, by omega⟩

/-! ### Lists in order -/

private theorem totalLe_getElem (inOrder : xs.Pairwise fun x y => x.totalLe y = true) {i j : Nat}
    (le : i ≤ j) (hj : j < xs.length) : xs[i].totalLe xs[j] = true := by
  rcases Nat.lt_or_eq_of_le le with lt | rfl
  · exact List.pairwise_iff_getElem.1 inOrder i j (lt.trans hj) hj lt
  · exact Binary64.totalLe_refl _

/-- What stands at the index `i` of a list in order has the rank `i + 1`. -/
theorem hasRank_getElem (inOrder : xs.Pairwise fun x y => x.totalLe y = true) {i : Nat}
    (hi : i < xs.length) : HasRank xs (i + 1) xs[i] := by
  refine ⟨List.getElem_mem hi, ?_, ?_⟩
  · have noneLater : (xs.drop i).countP (fun x => x.Precedes xs[i]) = 0 := by
      rw [List.countP_eq_zero]
      intro x hx
      obtain ⟨j, hj, rfl⟩ := List.mem_drop_iff_getElem.1 hx
      rw [decide_eq_true_eq, ← Binary64.totalLe_iff_not_precedes]
      exact totalLe_getElem inOrder (Nat.le_add_right i j) _
    have parts : countBefore xs xs[i] = (xs.take i).countP (fun x => x.Precedes xs[i]) + 0 := by
      rw [← noneLater, ← List.countP_append, List.take_append_drop, countBefore]
    have atMost := List.countP_le_length (p := fun x => decide (x.Precedes xs[i])) (l := xs.take i)
    rw [List.length_take] at atMost
    omega
  · have noneEarlier : (xs.take (i + 1)).countP (fun x => xs[i].Precedes x) = 0 := by
      rw [List.countP_eq_zero]
      intro x hx
      obtain ⟨j, hj, rfl⟩ := List.mem_take_iff_getElem.1 hx
      rw [decide_eq_true_eq, ← Binary64.totalLe_iff_not_precedes]
      exact totalLe_getElem inOrder (by omega) hi
    have parts : countAfter xs xs[i] =
        0 + (xs.drop (i + 1)).countP (fun x => xs[i].Precedes x) := by
      rw [← noneEarlier, ← List.countP_append, List.take_append_drop, countAfter]
    have atMost := List.countP_le_length (p := fun x => decide (xs[i].Precedes x))
      (l := xs.drop (i + 1))
    rw [List.length_drop] at atMost
    omega

theorem sorted_perm (xs : List Binary64) : (sorted xs).Perm xs := List.mergeSort_perm xs _

theorem sorted_pairwise (xs : List Binary64) : (sorted xs).Pairwise fun x y => x.totalLe y = true :=
  List.pairwise_mergeSort Binary64.totalLe_trans Binary64.totalLe_total xs

theorem hasRank_sorted (xs : List Binary64) {i : Nat} (hi : i < (sorted xs).length) :
    HasRank xs (i + 1) (sorted xs)[i] :=
  (hasRank_iff_of_perm (sorted_perm xs)).1 (hasRank_getElem (sorted_pairwise xs) hi)

theorem sorted_eq_of_perm (h : xs.Perm ys) : sorted xs = sorted ys :=
  (((sorted_perm xs).trans h).trans (sorted_perm ys).symm).eq_of_pairwise
    (fun _ _ _ _ => Binary64.totalLe_antisymm) (sorted_pairwise xs) (sorted_pairwise ys)

/-! ### The median -/

theorem median_ofList (h : xs ≠ []) : (Summary.ofList xs).median = median xs := by
  cases xs with
  | nil => exact absurd rfl h
  | cons x xs => rfl

/-- The middle of a list that is not empty is read at indices it has. -/
theorem median_eq (h : xs ≠ []) :
    ∃ (_ : xs.length / 2 - 1 < (sorted xs).length) (_ : xs.length / 2 < (sorted xs).length),
      median xs =
        if xs.length % 2 = 0 then
          ((sorted xs)[xs.length / 2 - 1] + (sorted xs)[xs.length / 2]) / .two
        else (sorted xs)[xs.length / 2] := by
  have length : (sorted xs).length = xs.length := (sorted_perm xs).length_eq
  have pos : 0 < xs.length := List.length_pos_iff.2 h
  have low : xs.length / 2 - 1 < (sorted xs).length := by omega
  have high : xs.length / 2 < (sorted xs).length := by omega
  refine ⟨low, high, ?_⟩
  simp only [median, length, List.getD_eq_getElem _ _ low, List.getD_eq_getElem _ _ high]

theorem median_of_even (h : xs ≠ []) (even : xs.length % 2 = 0) :
    ∃ a b, HasRank xs (xs.length / 2) a ∧ HasRank xs (xs.length / 2 + 1) b ∧
      median xs = (a + b) / .two := by
  obtain ⟨low, high, read⟩ := median_eq h
  have first := hasRank_sorted xs low
  have pos : 0 < xs.length := List.length_pos_iff.2 h
  rw [show xs.length / 2 - 1 + 1 = xs.length / 2 by omega] at first
  rw [if_pos even] at read
  exact ⟨_, _, first, hasRank_sorted xs high, read⟩

theorem hasRank_median_of_odd (odd : xs.length % 2 = 1) :
    HasRank xs (xs.length / 2 + 1) (median xs) := by
  have nonempty : xs ≠ [] := by
    rintro rfl
    cases odd
  obtain ⟨_, high, read⟩ := median_eq nonempty
  rw [if_neg (by omega)] at read
  exact read ▸ hasRank_sorted xs high

/-- The median of an odd count is the one number that at most half of the others precede and at most
half follow, bit for bit; of an even count it is half the sum of the numbers of the two middle
ranks. So it is the same in every order of the numbers, and both middle numbers are read where the
list in order has them. -/
theorem median_ranked (h : xs ≠ []) :
    (xs.length % 2 = 1 → ∀ m, (Summary.ofList xs).median = m ↔
      m ∈ xs ∧ countBefore xs m ≤ (xs.length - 1) / 2 ∧ countAfter xs m ≤ (xs.length - 1) / 2) ∧
    (xs.length % 2 = 0 → ∃ a b, (Summary.ofList xs).median = (a + b) / .two ∧
      (∀ m, HasRank xs (xs.length / 2) m ↔ m = a) ∧
      ∀ m, HasRank xs (xs.length / 2 + 1) m ↔ m = b) ∧
    (∀ ys : List Binary64, ys.Perm xs → (Summary.ofList ys).median = (Summary.ofList xs).median) ∧
    ∃ (_ : xs.length / 2 - 1 < (sorted xs).length) (_ : xs.length / 2 < (sorted xs).length),
      (xs.length % 2 = 0 → xs.length / 2 ≠ 0) ∧
      (Summary.ofList xs).median =
        if xs.length % 2 = 0 then
          ((sorted xs)[xs.length / 2 - 1] + (sorted xs)[xs.length / 2]) / .two
        else (sorted xs)[xs.length / 2] := by
  have pos : 0 < xs.length := List.length_pos_iff.2 h
  have ranked : ∀ {k : Nat} {c : Binary64}, HasRank xs k c → ∀ m, HasRank xs k m ↔ m = c := by
    intro k c hc m
    exact ⟨fun hm => hm.unique hc, fun same => same ▸ hc⟩
  obtain ⟨low, high, read⟩ := median_eq h
  rw [median_ofList h]
  refine ⟨?_, ?_, ?_, low, high, by omega, read⟩
  · intro odd m
    rw [← hasRank_middle_iff odd, ranked (hasRank_median_of_odd odd), eq_comm]
  · intro even
    obtain ⟨a, b, first, second, mean⟩ := median_of_even h even
    exact ⟨a, b, mean, ranked first, ranked second⟩
  · intro ys perm
    have nonempty : ys ≠ [] := by
      rintro rfl
      exact h perm.nil_eq.symm
    rw [median_ofList nonempty, median, median, sorted_eq_of_perm perm]

/-- Two NaNs of different sign stand at the ends, and the two zeros in the middle are told apart. -/
theorem median_ranked_zeros :
    let xs : List Binary64 := [⟨0x7FF8000000000000⟩, .zero, .negativeZero, ⟨0xFFF8000000000000⟩]
    xs ≠ [] ∧ HasRank xs 2 .negativeZero ∧ HasRank xs 3 .zero ∧
      (Summary.ofList xs).median = .zero ∧
      (Summary.ofList [.negativeZero, .zero, .negativeZero]).median = .negativeZero := by
  intro xs
  have second : HasRank xs 2 .negativeZero := ⟨by decide, by decide, by decide⟩
  have third : HasRank xs 3 .zero := ⟨by decide, by decide, by decide⟩
  have nonempty : xs ≠ [] := by decide
  obtain ⟨a, b, mean, lower, upper⟩ := (median_ranked nonempty).2.1 (by decide)
  have half : xs.length / 2 = 2 := by decide
  rw [half] at lower upper
  refine ⟨nonempty, second, third, ?_, ?_⟩
  · have first : Binary64.negativeZero = a := (lower .negativeZero).1 second
    have last : Binary64.zero = b := (upper .zero).1 third
    rw [mean, ← first, ← last]
    decide
  · rw [(median_ranked (by decide)).1 (by decide)]
    decide

end Intake.Sample
