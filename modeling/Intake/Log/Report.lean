import Intake.Event
import Intake.Log.Scan
import Intake.Storage.Outcome

/-!
The tally of a log file. Like a configuration, a log that cannot be read is either an error or an
empty tally with the reason in the log.
-/

set_option autoImplicit false
set_option relaxedAutoImplicit false

namespace Intake.Log

/-- Why a log could not be counted. -/
inductive Fault where
  | absent (path : String)
  | unreadable (reason : String)
  deriving DecidableEq, Repr

def Fault.message : Fault → String
  | absent path => "Log file not found: " ++ path
  | unreadable reason => "Failed to read log: " ++ reason

def countReads (reads : List Read) : Except Fault Tally :=
  match scan reads with
  | .ok t => .ok t
  | .error reason => .error (.unreadable reason)

def ofOutcome (path : String) : Storage.Outcome → Except Fault Tally
  | .absent => .error (.absent path)
  | .refused reason => .error (.unreadable reason)
  | .contents bytes => .ok (tally bytes)

def counted (path : String) (t : Tally) : Event where
  severity := .debug
  message := "Parsed log file"
  details := [("path", path), ("lines", toString t.total.toNat)]

def notCounted (path : String) (fault : Fault) : Event where
  severity := .error
  message := fault.message
  details := [("path", path)]

def report (path : String) (outcome : Storage.Outcome) : Logged (Except Fault Tally) :=
  match ofOutcome path outcome with
  | .ok t => ⟨.ok t, [counted path t]⟩
  | .error fault => ⟨.error fault, []⟩

/-- Counts the lines of a log file, or none with the reason in the log. -/
def reportOrEmpty (path : String) (outcome : Storage.Outcome) : Logged Tally :=
  match report path outcome with
  | ⟨.ok t, events⟩ => ⟨t, events⟩
  | ⟨.error fault, events⟩ => ⟨.empty, events ++ [notCounted path fault]⟩

end Intake.Log
