import Intake.Text.Utf8
import Mathlib

/-!
ASCII bytes in tolerantly read UTF-8: no character goes over one, so the bytes before it and the
bytes after it are read apart.
-/

set_option autoImplicit false
set_option relaxedAutoImplicit false

namespace Intake.Text.Utf8

/-- An open character takes no ASCII byte for its next one. -/
def ClosedToAscii (pending : Option Pending) : Prop := ∀ p ∈ pending, 0x80 ≤ p.low

private theorem closedToAscii_ofFirst (b : Nat) : ClosedToAscii (Pending.ofFirst? b) := by
  intro p hp
  unfold Pending.ofFirst? at hp
  split_ifs at hp <;> cases hp <;> simp

private theorem closedToAscii_begin (b : Nat) : ClosedToAscii (begin b).2 := by
  unfold begin
  split
  · intro p hp
    cases hp
  · split
    · rename_i p hp
      exact hp ▸ closedToAscii_ofFirst b
    · intro p hp
      cases hp

theorem closedToAscii_next (pending : Option Pending) (b : Nat) :
    ClosedToAscii (next pending b).2 := by
  cases pending with
  | none => exact closedToAscii_begin b
  | some p =>
    simp only [next]
    split
    · split
      · intro q hq
        cases hq
      · intro q hq
        cases hq
        exact Nat.le_refl _
    · exact closedToAscii_begin b

/-- An ASCII byte stands for itself, after what it cuts off. -/
theorem next_ascii {pending : Option Pending} (h : ClosedToAscii pending) {b : Nat}
    (hb : b < 0x80) :
    next pending b =
      ((if pending.isSome then [none] else []) ++ [some (Char.ofNat b)], none) := by
  have plain : begin b = ([some (Char.ofNat b)], none) := by simp [begin, hb]
  cases pending with
  | none => simpa [next] using plain
  | some p =>
    have low : 0x80 ≤ p.low := h p rfl
    have outside : ¬ (p.low ≤ b ∧ b ≤ p.high) := by omega
    simp [next, outside, plain]

private theorem partsFrom_append_ascii {pending : Option Pending} (h : ClosedToAscii pending)
    (bytes : List UInt8) {b : UInt8} (hb : b.toNat < 0x80) (rest : List UInt8) :
    partsFrom pending (bytes ++ b :: rest) =
      partsFrom pending bytes ++ some (Char.ofNat b.toNat) :: parts rest := by
  induction bytes generalizing pending with
  | nil => simp [partsFrom, next_ascii h hb, parts]
  | cons c bytes ih =>
    simp only [List.cons_append, partsFrom]
    rw [ih (closedToAscii_next pending c.toNat), List.append_assoc]

/-- Bytes around an ASCII byte are read apart. -/
theorem decodeLossy_append_ascii (bytes : List UInt8) {b : UInt8} (hb : b.toNat < 0x80)
    (rest : List UInt8) :
    decodeLossy (bytes ++ b :: rest) =
      decodeLossy bytes ++ Char.ofNat b.toNat :: decodeLossy rest := by
  have none_closed : ClosedToAscii none := by
    intro p hp
    cases hp
  simp [decodeLossy, parts, partsFrom_append_ascii none_closed bytes hb rest]

end Intake.Text.Utf8
