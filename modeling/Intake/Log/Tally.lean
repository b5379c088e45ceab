import Intake.Json.Codec.Choice
import Intake.Log.Level

/-!
How many lines of each level there are. Recording a line is the only way in which a level gets an
entry, apart from reading a tally from a document.
-/

set_option autoImplicit false
set_option relaxedAutoImplicit false

namespace Intake.Log

/-- The number of lines of each level that has an entry. -/
abbrev Tally := Keyed Level UInt64

namespace Tally

def count (t : Tally) (level : Level) : UInt64 := (t.get? level).getD 0

def record (t : Tally) (level : Level) : Tally := t.insert level (t.count level + 1)

theorem count_record_self (t : Tally) (level : Level) :
    (t.record level).count level = t.count level + 1 := by
  simp [count, record, Keyed.get?_insert_self]

theorem count_record_of_ne (t : Tally) {level other : Level} (h : other ≠ level) :
    (t.record level).count other = t.count other := by
  simp [count, record, Keyed.get?_insert_of_ne t _ h]

/-- One more line, which counts if it has a level. -/
def recordLine (t : Tally) (line : List Char) : Tally :=
  match Level.ofLine? line with
  | some level => t.record level
  | none => t

def total (t : Tally) : UInt64 := (t.entries.map Prod.snd).foldr (· + ·) 0

def codec : Json.Codec Tally := .keyed Level.choice (.uint64 "usize")

end Tally

end Intake.Log
