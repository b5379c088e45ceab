import Intake.Proofs.Log.Lines
import Intake.Proofs.Text.Ascii

/-!
Markers in the bytes of a line. Whatever the bytes are, reading them tolerantly leaves every marker
where it is and puts none where there is none, so the level of a line can be read off its bytes.
-/

set_option autoImplicit false
set_option relaxedAutoImplicit false

namespace Intake.Log

open Text

private theorem ascii_marker (level : Level) : ∀ c ∈ level.marker.toList, c.toNat < 0x80 := by
  cases level <;> simp [Level.marker]

/-- The marker of a level occurs in a line exactly if its bytes occur in the bytes of the line. So
the level of a line is the first, in order of priority, whose marker stands in its bytes; and the
line has none if no marker does. -/
theorem decodeLossy_keeps_markers (line : List UInt8) :
    (∀ level : Level, occursIn level.marker.toList (Utf8.decodeLossy line) = true ↔
      Utf8.encode level.marker <:+: line) ∧
    Level.ofLine? (Utf8.decodeLossy line) =
      [Level.error, .warn, .info, .debug, .fatal].find? (fun level =>
        Utf8.encode level.marker <:+: line) ∧
    (Level.ofLine? (Utf8.decodeLossy line) = none ↔
      ∀ level : Level, ¬ Utf8.encode level.marker <:+: line) := by
  have kept (level : Level) : occursIn level.marker.toList (Utf8.decodeLossy line) = true ↔
      Utf8.encode level.marker <:+: line := by
    rw [occursIn_eq_true_iff]
    exact Utf8.infix_decodeLossy_iff (ascii_marker level) line
  have first : Level.ofLine? (Utf8.decodeLossy line) =
      [Level.error, .warn, .info, .debug, .fatal].find? fun level =>
        Utf8.encode level.marker <:+: line := by
    unfold Level.ofLine? Level.priority
    congr 1
    funext level
    rw [Bool.eq_iff_iff, kept level, decide_eq_true_iff]
  refine ⟨kept, first, ?_⟩
  rw [first, List.find?_eq_none]
  constructor
  · intro absent level
    have listed : level ∈ [Level.error, .warn, .info, .debug, .fatal] := by
      cases level <;> decide
    simpa using absent level listed
  · intro absent level _
    simpa using absent level

/-- A marker right after the first bytes of a character that is never completed. -/
example : Level.ofLine? (Utf8.decodeLossy [0xF0, 0x9F, 87, 65, 82, 78, 0xFF]) = some .warn := by
  decide

end Intake.Log
