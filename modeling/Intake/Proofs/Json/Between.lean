import Intake.Json.Reader.Bracket
import Mathlib

/-!
What stands at the front of a text, after the blanks, when the reader of an array or an object goes
on there: the bracket that closes it, its first item or key, or a comma and a later one.
-/

set_option autoImplicit false
set_option relaxedAutoImplicit false

namespace Intake.Json

variable {s rest : Text}

theorem trimBlanks_trimBlanks (s : Text) : trimBlanks (trimBlanks s) = trimBlanks s :=
  List.dropWhile_idempotent isBlank s

theorem length_lt_of_trimBlanks {c : Char} (h : trimBlanks s = c :: rest) :
    rest.length < s.length := by
  have shorter := length_trimBlanks_le s
  rw [h, List.length_cons] at shorter
  exact shorter

/-! ### Arrays -/

theorem nextItem_closed_iff {isFirst : Bool} :
    (∃ closed, nextItem isFirst s = .ok (.closed closed) ∧ closed.val = rest) ↔
      trimBlanks s = ']' :: rest := by
  constructor
  · rintro ⟨closed, h, rfl⟩
    unfold nextItem at h
    split at h
    · cases h
    · rename_i eq
      cases h
      exact eq
    · split at h
      · cases h
      · split at h
        · split at h <;> cases h
        · cases h
  · intro h
    unfold nextItem
    split
    · rename_i eq
      cases eq.symm.trans h
    · rename_i eq
      exact ⟨_, rfl, (List.cons.inj (eq.symm.trans h)).2⟩
    · rename_i notClosed eq
      exact absurd (List.cons.inj (eq.symm.trans h)).1 notClosed

/-- The first item begins where the blanks end. -/
theorem nextItem_first_iff {c : Char} {tail : Text} :
    (∃ start, nextItem true s = .ok (.item start) ∧ start.val = c :: tail) ↔
      trimBlanks s = c :: tail ∧ c ≠ ']' := by
  constructor
  · rintro ⟨start, h, begins⟩
    unfold nextItem at h
    split at h
    · cases h
    · cases h
    · rename_i notClosed eq
      cases h
      obtain ⟨rfl, rfl⟩ := List.cons.inj begins
      exact ⟨eq, notClosed⟩
  · rintro ⟨h, opens⟩
    unfold nextItem
    split
    · rename_i eq
      cases eq.symm.trans h
    · rename_i eq
      exact absurd (List.cons.inj (h.symm.trans eq)).1 opens
    · rename_i eq
      simp only [if_true]
      exact ⟨_, rfl, eq.symm.trans h⟩

/-- A later item follows a comma and blanks. -/
theorem nextItem_later_iff {c : Char} {tail : Text} :
    (∃ start, nextItem false s = .ok (.item start) ∧ start.val = c :: tail) ↔
      ∃ more, trimBlanks s = ',' :: more ∧ trimBlanks more = c :: tail ∧ c ≠ ']' := by
  constructor
  · rintro ⟨start, h, begins⟩
    unfold nextItem at h
    split at h
    · cases h
    · cases h
    · rename_i c' more _ eq
      simp only [Bool.false_eq_true, if_false] at h
      split at h
      · rename_i comma
        split at h
        · cases h
        · cases h
        · rename_i notClosed eq'
          cases h
          obtain ⟨rfl, rfl⟩ := List.cons.inj begins
          exact ⟨more, comma ▸ eq, eq', notClosed⟩
      · cases h
  · rintro ⟨more, comma, h, opens⟩
    unfold nextItem
    split
    · rename_i eq
      cases eq.symm.trans comma
    · rename_i eq
      cases eq.symm.trans comma
    · rename_i eq
      obtain ⟨rfl, rfl⟩ := List.cons.inj (eq.symm.trans comma)
      simp only [Bool.false_eq_true, if_false, if_true]
      split
      · rename_i eq'
        cases eq'.symm.trans h
      · rename_i eq'
        exact absurd (List.cons.inj (h.symm.trans eq')).1 opens
      · rename_i eq'
        exact ⟨_, rfl, eq'.symm.trans h⟩

/-! ### Objects -/

theorem nextKey_closed_iff {isFirst : Bool} :
    (∃ closed, nextKey isFirst s = .ok (.closed closed) ∧ closed.val = rest) ↔
      trimBlanks s = '\x7d' :: rest := by
  constructor
  · rintro ⟨closed, h, rfl⟩
    unfold nextKey at h
    split at h
    · cases h
    · rename_i eq
      cases h
      exact eq
    · split at h
      · split at h <;> cases h
      · split at h
        · split at h <;> cases h
        · cases h
  · intro h
    unfold nextKey
    split
    · rename_i eq
      cases eq.symm.trans h
    · rename_i eq
      exact ⟨_, rfl, (List.cons.inj (eq.symm.trans h)).2⟩
    · rename_i notClosed eq
      exact absurd (List.cons.inj (eq.symm.trans h)).1 notClosed

/-- The first key begins with a quote where the blanks end. -/
theorem nextKey_first_iff :
    (∃ start, nextKey true s = .ok (.item start) ∧ start.val = rest) ↔
      trimBlanks s = '"' :: rest := by
  constructor
  · rintro ⟨start, h, rfl⟩
    unfold nextKey at h
    split at h
    · cases h
    · cases h
    · rename_i eq
      simp only [if_true] at h
      split at h
      · rename_i quote
        cases h
        exact quote ▸ eq
      · cases h
  · intro h
    unfold nextKey
    split
    · rename_i eq
      cases eq.symm.trans h
    · rename_i eq
      cases eq.symm.trans h
    · rename_i eq
      obtain ⟨rfl, rfl⟩ := List.cons.inj (eq.symm.trans h)
      simp only [if_true]
      exact ⟨_, rfl, rfl⟩

/-- A later key follows a comma and blanks, with its quote. -/
theorem nextKey_later_iff :
    (∃ start, nextKey false s = .ok (.item start) ∧ start.val = rest) ↔
      ∃ more, trimBlanks s = ',' :: more ∧ trimBlanks more = '"' :: rest := by
  constructor
  · rintro ⟨start, h, rfl⟩
    unfold nextKey at h
    split at h
    · cases h
    · cases h
    · rename_i c more _ eq
      simp only [Bool.false_eq_true, if_false] at h
      split at h
      · rename_i comma
        split at h
        · cases h
        · rename_i eq'
          cases h
          exact ⟨more, comma ▸ eq, eq'⟩
        · cases h
        · cases h
      · cases h
  · rintro ⟨more, comma, quote⟩
    unfold nextKey
    split
    · rename_i eq
      cases eq.symm.trans comma
    · rename_i eq
      cases eq.symm.trans comma
    · rename_i eq
      obtain ⟨rfl, rfl⟩ := List.cons.inj (eq.symm.trans comma)
      simp only [Bool.false_eq_true, if_false, if_true]
      split
      · rename_i eq'
        cases eq'.symm.trans quote
      · rename_i eq'
        exact ⟨_, rfl, (List.cons.inj (eq'.symm.trans quote)).2⟩
      · rename_i eq'
        cases eq'.symm.trans quote
      · rename_i other _ eq'
        exact absurd (List.cons.inj (eq'.symm.trans quote)).1 other

end Intake.Json
