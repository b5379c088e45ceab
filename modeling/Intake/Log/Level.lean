import Intake.Json.Codec.Choice

/-!
Log levels and the level of a line: the first, in order of priority, whose marker the line holds.
-/

set_option autoImplicit false
set_option relaxedAutoImplicit false

namespace Intake.Log

/-- A level, in order of priority. -/
inductive Level where
  | error
  | warn
  | info
  | debug
  | fatal
  deriving DecidableEq, Repr

namespace Level

/-- The levels, highest priority first. -/
def priority : List Level := [error, warn, info, debug, fatal]

/-- The place of a level in the order of priority. -/
def rank : Level → Nat
  | error => 0
  | warn => 1
  | info => 2
  | debug => 3
  | fatal => 4

instance : LT Level := ⟨fun a b => a.rank < b.rank⟩

instance : LE Level := ⟨fun a b => a.rank ≤ b.rank⟩

instance : DecidableLT Level := fun a b => inferInstanceAs (Decidable (a.rank < b.rank))

instance : Std.LawfulOrderLT Level := ⟨fun _ _ => Nat.lt_iff_le_and_not_ge⟩

theorem rank_inj {a b : Level} (h : a.rank = b.rank) : a = b := by
  cases a <;> cases b <;> first | rfl | cases h

instance : Std.IsLinearOrder Level where
  le_refl a := Nat.le_refl a.rank
  le_trans _ _ _ := Nat.le_trans
  le_antisymm _ _ below above := rank_inj (Nat.le_antisymm below above)
  le_total a b := Nat.le_total a.rank b.rank

/-- The text that marks a line of a level. -/
def marker : Level → String
  | error => "ERROR"
  | warn => "WARN"
  | info => "INFO"
  | debug => "DEBUG"
  | fatal => "FATAL"

def choice : Json.Choice Level := ⟨priority, marker⟩

def codec : Json.Codec Level := .choice choice

end Level

/-- Whether a text occurs in another without a gap. -/
def occursIn (part : List Char) : List Char → Bool
  | [] => part.isEmpty
  | c :: rest => part.isPrefixOf (c :: rest) || occursIn part rest

def Level.ofLine? (line : List Char) : Option Level :=
  Level.priority.find? fun level => occursIn level.marker.toList line

example : Level.ofLine? "FATAL: no INFO".toList = some .info := by decide

end Intake.Log
