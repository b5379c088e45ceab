import Intake.Json.Value
import Intake.Mail.Rule

/-!
What the data of a new user must have: a name, a mail address and a password, of which only the
address is looked at.
-/

set_option autoImplicit false
set_option relaxedAutoImplicit false

namespace Intake.Signup

/-- Why data cannot be used for a new user. -/
inductive Fault where
  | missing (field : String)
  | badEmail
  deriving DecidableEq, Repr

namespace Fault

def message : Fault → String
  | missing field => "Missing required field: " ++ field
  | badEmail => "Invalid email format"

/-- The field that is missing, if that is the fault. -/
def field? : Fault → Option String
  | missing field => some field
  | badEmail => none

end Fault

/-- The fields that must be there, in the order in which they are looked for. -/
def requiredFields : List String := ["name", "email", "password"]

/-- The address in the data of a user; what is no text is an empty one. -/
def email (data : Json.Object) : String := ((data.get? "email").bind Json.Value.string?).getD ""

/-- Checks the data of a new user: missing fields come before a bad address. -/
def check (data : Json.Object) : Except Fault Unit :=
  match requiredFields.find? fun field => !data.contains field with
  | some field => .error (.missing field)
  | none => if Mail.Rule.relaxed.accepts (email data) then .ok () else .error .badEmail

end Intake.Signup
