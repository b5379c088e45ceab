import Intake.Directory.User
import Intake.Event
import Intake.Signup

/-!
What a directory of users offers: to look a user up, and to create one. The data of a new user is
checked before a directory does anything with it.
-/

set_option autoImplicit false
set_option relaxedAutoImplicit false

namespace Intake.Directory

/-- Why a directory did not answer. -/
inductive Fault where
  /-- The data was refused before anything was done. -/
  | refused (fault : Signup.Fault)
  | network (reason : String)
  /-- An answer with a status other than success. -/
  | status (code : UInt16) (body : String)
  /-- An answer that does not say what it should. -/
  | answer (reason : String)
  deriving DecidableEq, Repr

namespace Fault

def message : Fault → String
  | refused fault => fault.message
  | network reason => "Network error: " ++ reason
  | status code body => "HTTP " ++ toString code.toNat ++ ": " ++ body
  | answer reason => "Invalid response: " ++ reason

/-- What was wrong with the data, if that is the fault. -/
def signup? : Fault → Option Signup.Fault
  | refused fault => some fault
  | _ => none

end Fault

/-- The event of a user who is about to be created. -/
def creating (data : Json.Object) : Event where
  severity := .info
  message := "Creating user: " ++ Signup.email data

end Intake.Directory

namespace Intake

/-- A directory of users; `m` is what asking it involves. -/
structure Directory (m : Type → Type) where
  /-- The user with a number, if there is one. -/
  getUser : UInt64 → m (Logged (Except Directory.Fault (Option Directory.User)))
  /-- Creates a user. -/
  createUser : Json.Object → m (Logged (Except Directory.Fault Bool))

end Intake
