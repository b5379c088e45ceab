import Intake.Binary64.Text
import Intake.Proofs.Json.Agreement
import Intake.Proofs.Json.Fraction
import Intake.Proofs.Json.RoundTrip

/-!
Binary numbers in texts. What is written for a finite number is read as a finite number; what is
written for an infinity or a NaN is `null`, which is no number.
-/

set_option autoImplicit false
set_option relaxedAutoImplicit false

namespace Intake.Binary64

open Decimal

variable {x : Binary64}

theorem fits_cell (h : x.isFinite = true) (pos : 0 < x.significand) : x.cell.Fits where
  pos := pos
  lt := (isStored_of_pos pos).lt
  least := (isStored_of_pos pos).least
  most := exponent_le h

/-- The cell of the largest finite number. -/
theorem cell_of_largest (full : x.significand = 2 ^ 53 - 1) (top : x.exponent = 971) :
    x.cell = ⟨2 ^ 53 - 1, 971, false⟩ := by
  have fraction : x.fraction ≠ 0 := by
    have := x.fraction_lt
    rw [significand] at full
    split at full <;> omega
  rw [cell, full, top, beq_eq_false_iff_ne.2 fraction, Bool.false_and]

private theorem shortest_largest :
    Cell.shortest ⟨2 ^ 53 - 1, 971, false⟩ = ⟨17976931348623157, 292⟩ := by
  decide +kernel

end Intake.Binary64

namespace Intake.Json

open Reader Decimal Binary64

variable {x : Binary64}

/-- The shortest decimal of a finite number can be read again. -/
theorem isShort_shortest (h : x.isFinite = true) (pos : 0 < x.significand) :
    IsShort x.cell.shortest.digits x.cell.shortest.exponent := by
  have fits := fits_cell h pos
  have found := Cell.isFound_shortest x.cell
  refine ⟨Cell.digits_shortest_pos fits, Cell.digits_shortest_le fits, found.least, found.most, ?_⟩
  by_cases inner : x.cell.m < 2 ^ 53 - 1 ∨ x.cell.q < 971
  · exact Cell.shortest_le fits inner
  · obtain ⟨full, top⟩ := not_or.1 inner
    have lt := fits.lt
    have most := fits.most
    have largest := cell_of_largest (x := x) (by change x.cell.m = _; omega)
      (by change x.cell.q = _; omega)
    have places : (292 : Int).toNat = 292 := rfl
    rw [largest, shortest_largest, places, largestDecimal]

theorem readsFinite_shortest (h : x.isFinite = true) :
    ∃ body, x.shortestText = x.signText ++ body ∧ ReadsFinite body := by
  refine ⟨_, rfl, ?_⟩
  split
  next zero =>
    have start : StartsNumber ['0'] := startsNumber_digit (by decide)
    exact readsFinite_point start (by simp) (by simp; decide) (by decide)
  next nonzero => exact readsFinite_decimalText (isShort_shortest h (Nat.pos_of_ne_zero nonzero))

/-- The text of a finite number is read as a finite number. -/
theorem readsBack_shortestText (limit : Nat) (h : x.isFinite = true) :
    ∃ y finite, ReadsBack (document limit) x.shortestText (.number (.float y finite)) := by
  obtain ⟨body, text, reads⟩ := readsFinite_shortest h
  obtain ⟨c, tail, rfl, digit⟩ := reads.begins
  obtain ⟨y, finite, takes⟩ := reads.takes x.isNegative
  refine ⟨y, finite, ?_⟩
  rw [text, signText]
  cases negative : x.isNegative with
  | true =>
    rw [negative] at takes
    refine ⟨⟨'-', _, rfl, by decide⟩, fun rest ends => ?_⟩
    exact (DocumentForm.number (.inl rfl)
      ((takes_widen_iff (length_le_cons _)).2 (takes rest ends))).takes
  | false =>
    rw [negative] at takes
    refine ⟨⟨c, tail, rfl, visible_of_numeric (.inr digit)⟩, fun rest ends => ?_⟩
    have noSign (more : Text) : c :: tail ++ rest ≠ '-' :: more := by
      intro sign
      rw [(List.cons.inj sign).1] at digit
      exact absurd digit (by decide)
    obtain ⟨less, eq⟩ := takes rest ends
    exact (DocumentForm.number (.inr digit) ⟨less, (number.eq_2 _ noSign).trans eq⟩).takes

/-! ### The codec -/

/-- The binary number that a document is. -/
def Value.figure? : Value → Option Binary64
  | .number n => some n.toBinary64
  | _ => none

namespace Codec

theorem sees_binary64 (limit : Nat) : Sees limit binary64.read Value.figure? := by
  intro s a rest taken
  obtain ⟨n, hn, value⟩ := (takes_readNumber_iff limit).1 taken
  cases value
  exact ⟨.number n, hn, rfl⟩

theorem write_of_not_isFinite (h : x.isFinite = false) : binary64.write x = "null".toList := by
  simp [binary64, h]

/-- What is written of a number is a number again just if it is finite, and `null` otherwise. -/
theorem exists_readsBack_write (limit : Nat) (x : Binary64) :
    ∃ v, ReadsBack (document limit) (binary64.write x) v ∧
      (v.figure?.isSome ↔ x.isFinite = true) := by
  cases finite : x.isFinite with
  | true =>
    obtain ⟨y, yFinite, reads⟩ := readsBack_shortestText limit finite
    have text : binary64.write x = x.shortestText := by simp [binary64, finite]
    exact ⟨_, text ▸ reads, by simp [Value.figure?]⟩
  | false =>
    refine ⟨.null, ?_, by simp [Value.figure?]⟩
    rw [write_of_not_isFinite finite]
    exact readsBack_null limit

/-- A finite number is read back as some finite number. -/
theorem exists_readsBack_binary64 (h : x.isFinite = true) :
    ∃ y, ReadsBack binary64.read (binary64.write x) y := by
  obtain ⟨y, finite, reads⟩ := readsBack_shortestText 0 h
  have text : binary64.write x = x.shortestText := by simp [binary64, h]
  refine ⟨y, text ▸ ⟨reads.begins, fun rest ends => ?_⟩⟩
  exact (takes_readNumber_iff 0).2 ⟨_, reads.takes rest ends, rfl⟩

end Codec

end Intake.Json
