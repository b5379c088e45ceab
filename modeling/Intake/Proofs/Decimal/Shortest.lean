import Intake.Decimal.Shortest
import Mathlib

/-!
What the search for a shortest decimal finds. Its digits are one of the two neighbours of the number
on the first grid that has one which rounds to it, so the grid before was too coarse; that bounds
the digits. What is found does not exceed the upper end of the numbers that round to `x`.
-/

set_option autoImplicit false
set_option relaxedAutoImplicit false

namespace Intake.Decimal

/-- The largest of the shortest decimals. -/
def largestDecimal : Nat := 17976931348623157 * 10 ^ 292

namespace Cell

variable {x : Cell} {k : Int} {c n : Nat} {s : Scaled}

/-! ### One grid -/

theorem step_num_pos (x : Cell) (k : Int) : 0 < (x.step k).1 :=
  Nat.mul_pos (Nat.pow_pos (by decide)) (Nat.pow_pos (by decide))

theorem step_den_pos (x : Cell) (k : Int) : 0 < (x.step k).2 :=
  Nat.mul_pos (Nat.pow_pos (by decide)) (Nat.pow_pos (by decide))

theorem floor_mul_le (x : Cell) (k : Int) :
    x.floor k * (x.step k).1 ≤ 4 * x.m * (x.step k).2 := Nat.div_mul_le_self _ _

theorem lt_floor_succ_mul (x : Cell) (k : Int) :
    4 * x.m * (x.step k).2 < (x.floor k + 1) * (x.step k).1 := by
  rw [Nat.mul_comm (x.floor k + 1)]
  exact Nat.lt_mul_div_succ _ (step_num_pos x k)

theorem nearer_eq (x : Cell) (k : Int) (c : Nat) : x.nearer k c = c ∨ x.nearer k c = c + 1 := by
  rw [nearer]
  dsimp only
  split
  · exact .inl rfl
  · split
    · exact .inr rfl
    · omega

/-- What a grid gives is one of the two neighbours, and rounds to the number. -/
theorem of_onGrid?_eq_some (h : x.onGrid? k = some c) :
    (c = x.floor k ∨ c = x.floor k + 1) ∧ x.contains k c = true := by
  rw [onGrid?] at h
  split at h <;> cases h
  next low high =>
    have either := nearer_eq x k (x.floor k)
    refine ⟨either, ?_⟩
    rcases either with same | same <;> rwa [same]
  next low _ => exact ⟨.inl rfl, low⟩
  next _ high => exact ⟨.inr rfl, high⟩

theorem le_of_contains (h : x.contains k c = true) :
    x.lower * (x.step k).2 ≤ c * (x.step k).1 ∧ c * (x.step k).1 ≤ x.upper * (x.step k).2 := by
  unfold contains at h
  dsimp only at h
  split at h <;> simp only [Bool.and_eq_true, decide_eq_true_eq] at h <;> omega

theorem le_or_le_of_not_contains (h : x.contains k c = false) :
    c * (x.step k).1 ≤ x.lower * (x.step k).2 ∨ x.upper * (x.step k).2 ≤ c * (x.step k).1 := by
  unfold contains at h
  dsimp only at h
  split at h <;> simp only [Bool.and_eq_false_iff, decide_eq_false_iff_not] at h <;> omega

theorem not_contains_of_onGrid?_eq_none (h : x.onGrid? k = none) :
    x.contains k (x.floor k) = false ∧ x.contains k (x.floor k + 1) = false := by
  rw [onGrid?] at h
  split at h <;> cases h
  next low high => exact ⟨low, high⟩

theorem lower_add_le (pos : 0 < x.m) : x.lower + 3 ≤ x.upper ∧ x.lower + 1 ≤ 4 * x.m := by
  rw [lower, upper]
  split <;> omega

/-- Where both neighbours are too far away the grid is coarser than the gaps of the number. -/
theorem le_step_of_onGrid?_eq_none (pos : 0 < x.m) (h : x.onGrid? k = none) :
    3 * (x.step k).2 ≤ (x.step k).1 := by
  obtain ⟨low, high⟩ := not_contains_of_onGrid?_eq_none h
  obtain ⟨wide, inner⟩ := lower_add_le pos
  have below := floor_mul_le x k
  have above := lt_floor_succ_mul x k
  have den := step_den_pos x k
  have width := Nat.mul_le_mul_right (x.step k).2 wide
  have inside := Nat.mul_le_mul_right (x.step k).2 inner
  have outside : 4 * x.m * (x.step k).2 < x.upper * (x.step k).2 :=
    Nat.mul_lt_mul_of_pos_right (by rw [upper]; omega) den
  have least := (le_or_le_of_not_contains low).resolve_right (by omega)
  have most := (le_or_le_of_not_contains high).resolve_left (by rw [Nat.add_mul] at inside; omega)
  rw [Nat.add_mul] at width most
  omega

theorem step_succ (x : Cell) (k : Int) :
    (x.step (k + 1)).1 * (x.step k).2 = 10 * (x.step k).1 * (x.step (k + 1)).2 := by
  simp only [step, Nat.pow_eq]
  rcases lt_or_ge k 0 with neg | nonneg
  · have up : (-k).toNat = (-(k + 1)).toNat + 1 := by omega
    have none : (k + 1).toNat = 0 ∧ k.toNat = 0 := by omega
    rw [up, none.1, none.2]
    ring
  · have up : (k + 1).toNat = k.toNat + 1 := by omega
    have none : (-(k + 1)).toNat = 0 ∧ (-k).toNat = 0 := by omega
    rw [up, none.1, none.2]
    ring

/-- On a grid below one that was too coarse the neighbours have few digits. -/
theorem floor_le_of_onGrid?_eq_none (pos : 0 < x.m) (h : x.onGrid? (k + 1) = none) :
    3 * x.floor k ≤ 40 * x.m := by
  have coarse := le_step_of_onGrid?_eq_none pos h
  have fine : 3 * (x.step k).2 ≤ 10 * (x.step k).1 := by
    refine Nat.le_of_mul_le_mul_right ?_ (step_den_pos x (k + 1))
    calc 3 * (x.step k).2 * (x.step (k + 1)).2 = 3 * (x.step (k + 1)).2 * (x.step k).2 := by ring
      _ ≤ (x.step (k + 1)).1 * (x.step k).2 := Nat.mul_le_mul_right _ coarse
      _ = 10 * (x.step k).1 * (x.step (k + 1)).2 := step_succ x k
  refine Nat.le_of_mul_le_mul_right ?_ (step_num_pos x k)
  calc 3 * x.floor k * (x.step k).1 = 3 * (x.floor k * (x.step k).1) := Nat.mul_assoc _ _ _
    _ ≤ 3 * (4 * x.m * (x.step k).2) := Nat.mul_le_mul_left 3 (floor_mul_le x k)
    _ = 4 * x.m * (3 * (x.step k).2) := by ring
    _ ≤ 4 * x.m * (10 * (x.step k).1) := Nat.mul_le_mul_left _ fine
    _ = 40 * x.m * (x.step k).1 := by ring

/-! ### The search -/

/-- What a search from the grid `10 ^ k` over `n` finer ones finds. -/
structure IsFound (x : Cell) (k : Int) (n : Nat) (s : Scaled) : Prop where
  least : k - n ≤ s.exponent
  most : s.exponent ≤ k
  near : s.digits = x.floor s.exponent ∨ s.digits = x.floor s.exponent + 1
  rounds : s.exponent = k - n ∨ x.contains s.exponent s.digits = true
  missed : s.exponent = k ∨ x.onGrid? (s.exponent + 1) = none

theorem isFound_shortestFrom (x : Cell) (k : Int) (n : Nat) :
    x.IsFound k n (x.shortestFrom k n) := by
  induction n generalizing k with
  | zero =>
    exact ⟨by simp [shortestFrom], le_rfl, nearer_eq x k _, .inl (by simp [shortestFrom]), .inl rfl⟩
  | succ n ih =>
    cases grid : x.onGrid? k with
    | some c =>
      have found : x.shortestFrom k (n + 1) = ⟨c, k⟩ := by rw [shortestFrom, grid]
      obtain ⟨near, rounds⟩ := of_onGrid?_eq_some grid
      rw [found]
      exact ⟨by dsimp only; omega, le_rfl, near, .inr rounds, .inl rfl⟩
    | none =>
      have next : x.shortestFrom k (n + 1) = x.shortestFrom (k - 1) n := by
        rw [shortestFrom, grid]
      obtain ⟨least, most, near, rounds, missed⟩ := ih (k - 1)
      rw [next]
      refine ⟨by omega, by omega, near, rounds.imp_left fun last => by omega, .inr ?_⟩
      rcases missed with first | missed
      · rw [first, Int.sub_add_cancel, grid]
      · exact missed

/-! ### Numbers of the 64-bit format -/

/-- A significand of 53 bits and an exponent in range. -/
structure Fits (x : Cell) : Prop where
  pos : 0 < x.m
  lt : x.m < 2 ^ 53
  least : -1074 ≤ x.q
  most : x.q ≤ 971

theorem isFound_shortest (x : Cell) : x.IsFound 308 632 x.shortest :=
  isFound_shortestFrom x 308 632

theorem step_of_nonneg (x : Cell) (h : 0 ≤ k) :
    x.step k = (10 ^ k.toNat * 2 ^ (2 - x.q).toNat, 2 ^ (x.q - 2).toNat) := by
  have none : (-k).toNat = 0 := by omega
  simp only [step, Nat.pow_eq, none, Nat.pow_zero, Nat.one_mul]

-- Facts about fixed large numbers stand alone, where no other step tries to compute with them.
private theorem two_pow_le_tenPow : 2 ^ 55 * 2 ^ 969 ≤ 2 * 10 ^ 308 := by
  decide +kernel

private theorem upper_le_largestDecimal : (2 ^ 55 - 6) * 2 ^ 969 ≤ largestDecimal := by
  decide +kernel

private theorem upper_le_upper : (2 ^ 55 - 2) * 2 ^ 968 ≤ (2 ^ 55 - 6) * 2 ^ 969 := by
  decide +kernel

private theorem two_pow_le_leastGrid : 2 ^ 1076 ≤ 4 * 10 ^ 324 := by
  decide +kernel

private theorem le_largestDecimal : 7 * 2 ^ 54 ≤ largestDecimal := by
  decide +kernel

/-- On the first grid there are at most two points below a number. -/
theorem floor_le_one (fits : x.Fits) (first : k = 308) : x.floor k ≤ 1 := by
  have top : k.toNat = 308 := by omega
  have large : x.floor k * 10 ^ k.toNat < 2 * 10 ^ k.toNat := by
    calc x.floor k * 10 ^ k.toNat ≤ x.floor k * (10 ^ k.toNat * 2 ^ (2 - x.q).toNat) :=
          Nat.mul_le_mul_left _ (Nat.le_mul_of_pos_right _ (Nat.two_pow_pos _))
      _ ≤ 4 * x.m * 2 ^ (x.q - 2).toNat := by
          have below := floor_mul_le x k
          rwa [step_of_nonneg x (by omega)] at below
      _ < 2 ^ 55 * 2 ^ (x.q - 2).toNat :=
          Nat.mul_lt_mul_of_pos_right (by have := fits.lt; omega) (Nat.two_pow_pos _)
      _ ≤ 2 ^ 55 * 2 ^ 969 := by
          have := fits.most
          gcongr
          · decide
          · omega
      _ ≤ 2 * 10 ^ 308 := two_pow_le_tenPow
      _ = 2 * 10 ^ k.toNat := by rw [top]
  exact Nat.lt_succ_iff.1 (Nat.lt_of_mul_lt_mul_right large)

/-- A shortest decimal has at most 18 digits. -/
theorem digits_shortest_le (fits : x.Fits) : x.shortest.digits ≤ 7 * 2 ^ 54 := by
  have found := isFound_shortest x
  have small := fits.lt
  have near := found.near
  rcases found.missed with first | missed
  · have := floor_le_one fits first
    omega
  · have := floor_le_of_onGrid?_eq_none fits.pos missed
    omega

/-- Unless a number is the largest one, what rounds to it is below the largest shortest decimal. -/
theorem upper_mul_le (fits : x.Fits) (inner : x.m < 2 ^ 53 - 1 ∨ x.q < 971) :
    x.upper * 2 ^ (x.q - 2).toNat ≤ largestDecimal := by
  have small := fits.lt
  have most := fits.most
  refine le_trans ?_ upper_le_largestDecimal
  rcases inner with less | less
  · have short : x.upper ≤ 2 ^ 55 - 6 := by
      rw [upper]
      omega
    gcongr
    · decide
    · omega
  · have short : x.upper ≤ 2 ^ 55 - 2 := by
      rw [upper]
      omega
    refine le_trans ?_ upper_le_upper
    gcongr
    · decide
    · omega

theorem shortest_le (fits : x.Fits) (inner : x.m < 2 ^ 53 - 1 ∨ x.q < 971) :
    x.shortest.digits * 10 ^ x.shortest.exponent.toNat ≤ largestDecimal := by
  have found := isFound_shortest x
  rcases lt_or_ge x.shortest.exponent 0 with neg | nonneg
  · have none : x.shortest.exponent.toNat = 0 := by omega
    rw [none, Nat.pow_zero, Nat.mul_one]
    exact (digits_shortest_le fits).trans le_largestDecimal
  · have rounds := found.rounds.resolve_left (by omega)
    have most := (le_of_contains rounds).2
    rw [step_of_nonneg x nonneg] at most
    dsimp only at most
    generalize x.shortest.digits = c at *
    generalize x.shortest.exponent.toNat = k at *
    calc c * 10 ^ k ≤ c * (10 ^ k * 2 ^ (2 - x.q).toNat) :=
          Nat.mul_le_mul_left _ (Nat.le_mul_of_pos_right _ (Nat.two_pow_pos _))
      _ ≤ x.upper * 2 ^ (x.q - 2).toNat := most
      _ ≤ largestDecimal := upper_mul_le fits inner

/-- Every number reaches the finest grid. -/
theorem floor_pos (fits : x.Fits) (last : k = -324) : 0 < x.floor k := by
  have none : k.toNat = 0 := by omega
  have bottom : (-k).toNat = 324 := by omega
  have most : (x.step k).1 ≤ 2 ^ 1076 := by
    have := fits.least
    simp only [step, Nat.pow_eq, none, Nat.pow_zero, Nat.one_mul]
    gcongr
    · decide
    · omega
  have least : 10 ^ (-k).toNat ≤ (x.step k).2 := Nat.le_mul_of_pos_right _ (Nat.two_pow_pos _)
  refine Nat.div_pos ?_ (step_num_pos x k)
  calc (x.step k).1 ≤ 2 ^ 1076 := most
    _ ≤ 4 * 10 ^ 324 := two_pow_le_leastGrid
    _ = 4 * 10 ^ (-k).toNat := by rw [bottom]
    _ ≤ 4 * x.m * (x.step k).2 :=
      Nat.mul_le_mul (Nat.le_mul_of_pos_right 4 fits.pos) least

/-- A shortest decimal is not zero. -/
theorem digits_shortest_pos (fits : x.Fits) : 0 < x.shortest.digits := by
  have found := isFound_shortest x
  rcases found.rounds with last | rounds
  · have := floor_pos fits last
    have := found.near
    omega
  · have least := (le_of_contains rounds).1
    have lower : 0 < x.lower := by
      have := fits.pos
      rw [lower]
      split <;> omega
    have reached := Nat.lt_of_lt_of_le (Nat.mul_pos lower (step_den_pos x _)) least
    exact Nat.pos_of_mul_pos_right reached

end Cell

end Intake.Decimal
