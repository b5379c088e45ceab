/-!
Log events, and results that come with the events of the work behind them.
-/

set_option autoImplicit false
set_option relaxedAutoImplicit false

namespace Intake

/-- How urgent an event is. -/
inductive Severity where
  | error
  | warning
  | info
  | debug
  deriving DecidableEq, Repr

def Severity.label : Severity → String
  | error => "ERROR"
  | warning => "WARN"
  | info => "INFO"
  | debug => "DEBUG"

/-- One event: a message and named details. -/
structure Event where
  severity : Severity
  message : String
  details : List (String × String) := []
  deriving DecidableEq, Repr

/-- A result with the events of the work behind it, in their order. -/
structure Logged (α : Type) where
  value : α
  events : List Event := []
  deriving DecidableEq, Repr

namespace Logged

variable {α β : Type}

/-- Goes on with a result; its events come first. -/
def andThen (x : Logged α) (f : α → Logged β) : Logged β :=
  let y := f x.value
  ⟨y.value, x.events ++ y.events⟩

instance : Monad Logged where
  pure a := ⟨a, []⟩
  bind := andThen

end Logged

end Intake
