import Intake.Json.Codec.Record
import Intake.Text.Quoted

/-!
Users as a directory knows them.
-/

set_option autoImplicit false
set_option relaxedAutoImplicit false

namespace Intake.Directory

/-- A user of a directory. -/
structure User where
  id : UInt64
  name : String
  email : String
  deriving DecidableEq, Repr, Inhabited

namespace User

def record : Json.Record User (UInt64 × String × String × Unit) where
  name := "User"
  fields :=
    .field "id" (.uint64 "u64") none <| .field "name" .string none <|
    .field "email" .string none .nil
  toTuple u := (u.id, u.name, u.email, ())
  ofTuple := fun (id, name, email, _) => ⟨id, name, email⟩

def codec : Json.Codec User := record.codec

def shown (u : User) : String :=
  "User \x7b id: " ++ toString u.id.toNat ++ ", name: " ++ Text.quoted u.name ++ ", email: " ++
    Text.quoted u.email ++ " \x7d"

end User

end Intake.Directory
