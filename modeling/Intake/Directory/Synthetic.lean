import Intake.Directory.Basic
import Intake.Settings

/-!
A directory that makes up its users from their numbers and asks nobody.
-/

set_option autoImplicit false
set_option relaxedAutoImplicit false

namespace Intake.Directory

/-- A directory without a service behind it. Key and timeout are kept and not used. -/
structure Synthetic where
  apiKey : String
  timeout : UInt64 := Settings.standard.timeout
  deriving DecidableEq, Repr

namespace Synthetic

def user (id : UInt64) : User :=
  let number := toString id.toNat
  ⟨id, "User " ++ number, "user" ++ number ++ "@example.com"⟩

/-- Creates a user, which takes no more than data that is in order. -/
def createUser (data : Json.Object) : Logged (Except Fault Bool) :=
  match Signup.check data with
  | .error fault => ⟨.error (.refused fault), []⟩
  | .ok () => ⟨.ok true, [creating data]⟩

def directory (_ : Synthetic) : Directory Id where
  getUser id := ⟨.ok (some (user id)), []⟩
  createUser data := createUser data

end Synthetic

end Intake.Directory
