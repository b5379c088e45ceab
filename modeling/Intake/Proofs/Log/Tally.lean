import Intake.Log.Tally
import Intake.Proofs.Keyed
import Mathlib

/-!
Tallies as the levels that were recorded in them: how often each level occurs decides its entry, and
the total grows by one with each.
-/

set_option autoImplicit false
set_option relaxedAutoImplicit false

namespace Intake.Log

namespace Tally

/-- Records lines of some levels, one after the other. -/
def recordLevels (t : Tally) (levels : List Level) : Tally := levels.foldl record t

@[simp] theorem recordLevels_nil (t : Tally) : t.recordLevels [] = t := rfl

@[simp] theorem recordLevels_cons (t : Tally) (level : Level) (levels : List Level) :
    t.recordLevels (level :: levels) = (t.record level).recordLevels levels := rfl

theorem recordLevels_append (t : Tally) (a b : List Level) :
    t.recordLevels (a ++ b) = (t.recordLevels a).recordLevels b := by
  simp only [recordLevels, List.foldl_append]

theorem count_record (t : Tally) (level other : Level) :
    (t.record level).count other = t.count other + if level = other then 1 else 0 := by
  by_cases h : level = other
  · subst h
    rw [count_record_self, if_pos rfl]
  · rw [count_record_of_ne t (Ne.symm h), if_neg h, UInt64.add_zero]

/-- Each recorded line of a level counts one. -/
theorem count_recordLevels (t : Tally) (levels : List Level) (level : Level) :
    (t.recordLevels levels).count level = t.count level + UInt64.ofNat (levels.count level) := by
  induction levels generalizing t with
  | nil => simp
  | cons head levels ih =>
    rw [recordLevels_cons, ih, count_record, List.count_cons, UInt64.add_assoc]
    by_cases h : head = level
    · simp [h, UInt64.ofNat_add, UInt64.add_comm]
    · simp [h]

/-- The levels with an entry are those that had one and those that were recorded. -/
theorem isSome_get?_recordLevels (t : Tally) (levels : List Level) (level : Level) :
    ((t.recordLevels levels).get? level).isSome = true ↔
      (t.get? level).isSome = true ∨ level ∈ levels := by
  induction levels generalizing t with
  | nil => simp
  | cons head levels ih =>
    rw [recordLevels_cons, ih, record, Keyed.get?_insert, List.mem_cons]
    by_cases h : level = head
    · simp [h]
    · simp [h]

/-- A tally that was empty has the levels that were recorded, and no others. -/
theorem get?_recordLevels_empty (levels : List Level) (level : Level) :
    (recordLevels .empty levels).get? level =
      if level ∈ levels then some (UInt64.ofNat (levels.count level)) else none := by
  have entry := isSome_get?_recordLevels .empty levels level
  have number := count_recordLevels .empty levels level
  have start : count .empty level = 0 := by rw [count, Keyed.get?_empty, Option.getD_none]
  rw [start, UInt64.zero_add, count] at number
  by_cases h : level ∈ levels
  · obtain ⟨n, hn⟩ := Option.isSome_iff_exists.1 (entry.2 (Or.inr h))
    rw [hn, Option.getD_some] at number
    rw [if_pos h, hn, number]
  · rw [if_neg h, ← Option.not_isSome_iff_eq_none, entry]
    simp [h, Keyed.get?_empty]

/-- The entries are those of the levels that have one, in order of priority. -/
theorem entries_eq_filterMap_priority (t : Tally) :
    t.entries = Level.priority.filterMap fun level => (t.get? level).map (Prod.mk level) := by
  have priority : Level.priority.Pairwise (· < ·) := by decide
  have same : t = .ofIncreasing _ (Keyed.increasing_filterMap_map priority t.get?) := by
    refine Keyed.ext fun level => ?_
    have listed : level ∈ Level.priority := by cases level <;> decide
    rw [Keyed.get?_ofIncreasing, Keyed.lookup_filterMap_map, if_pos listed]
  exact (congrArg Keyed.entries same).trans (Keyed.entries_ofIncreasing _ _)

/-- Going over the entries is going over the counts of all levels, if a count of zero does
nothing. -/
theorem foldr_entries_eq_foldr_count {β : Type} (t : Tally) {f : UInt64 → β → β}
    (zero : ∀ b, f 0 b = b) (start : β) :
    t.entries.foldr (fun e b => f e.2 b) start =
      Level.priority.foldr (fun level b => f (t.count level) b) start := by
  rw [entries_eq_filterMap_priority]
  induction Level.priority with
  | nil => rfl
  | cons level levels ih =>
    rw [List.filterMap_cons, List.foldr_cons, ← ih, count]
    cases t.get? level with
    | none => simp [zero]
    | some n => rfl

theorem total_eq_foldr (t : Tally) :
    t.total = (Level.priority.map t.count).foldr (· + ·) 0 := by
  rw [total, List.foldr_map, List.foldr_map]
  exact t.foldr_entries_eq_foldr_count UInt64.zero_add 0

/-- Of the counts of some levels, a line adds to those of its own. -/
private theorem foldr_count_record (t : Tally) (level : Level) (levels : List Level) :
    (levels.map (t.record level).count).foldr (· + ·) 0 =
      (levels.map t.count).foldr (· + ·) 0 + UInt64.ofNat (levels.count level) := by
  induction levels with
  | nil => rfl
  | cons other levels ih =>
    simp only [List.map_cons, List.foldr_cons, ih, count_record, List.count_cons]
    by_cases h : level = other
    · have one : UInt64.ofNat 1 = 1 := rfl
      simp only [h, if_true, beq_self_eq_true, UInt64.ofNat_add, one]
      ac_rfl
    · simp [h, Ne.symm h, UInt64.add_assoc]

theorem total_record (t : Tally) (level : Level) : (t.record level).total = t.total + 1 := by
  have once : Level.priority.count level = 1 := by cases level <;> decide
  rw [total_eq_foldr, total_eq_foldr, foldr_count_record, once]
  rfl

/-- The total grows by the number of recorded lines. -/
theorem total_recordLevels (t : Tally) (levels : List Level) :
    (t.recordLevels levels).total = t.total + UInt64.ofNat levels.length := by
  induction levels generalizing t with
  | nil => simp
  | cons level levels ih =>
    rw [recordLevels_cons, ih, total_record, UInt64.add_assoc, List.length_cons, UInt64.ofNat_add,
      UInt64.add_comm 1]
    rfl

end Tally

end Intake.Log
