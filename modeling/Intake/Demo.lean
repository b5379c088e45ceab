import Intake.Config
import Intake.Directory.Synthetic
import Intake.Fault
import Intake.Profile.Census
import Intake.Sample
import Intake.Settings

/-!
A tour of the library: the census of four profiles, the figures of ten numbers, and one user.
-/

set_option autoImplicit false
set_option relaxedAutoImplicit false

namespace Intake.Demo

def profile (id : UInt64) (name email role status : String) : Profile :=
  { id := some id, name := some name, email := some email, role := some role
    status := some status }

def profiles : List Profile :=
  [profile 1 "Alice Johnson" "alice@company.com" "admin" "active",
    profile 2 "Bob Smith" "bob@company.com" "user" "active",
    profile 3 "Charlie Brown" "invalid-email" "user" "inactive",
    profile 4 "Diana Prince" "diana@company.com" "admin" "active"]

def numbers : List Binary64 :=
  ([1.5, 2.7, 3.1, 4.8, 5.2, 6.9, 7.3, 8.1, 9.4, 10.6] : List Float).map .ofFloat

def userLine : Option Directory.User → String
  | some user => "Fetched user: " ++ user.shown
  | none => "Fetched user: none"

/-- The lines of the tour, with the settings that the configuration gives. -/
def lines (configuration : Storage.Outcome) : Logged (Except Fault (List String)) := do
  let settings ← Settings.ofObject (← Config.loadOrEmpty Config.usualPath configuration)
  let (census, _) ← ({} : Profile.Meter).process profiles
  let directory := Directory.Synthetic.directory ⟨"test_api_key_12345", settings.timeout⟩
  match ← directory.getUser 42 with
  | .error fault => return .error (.directory fault)
  | .ok user =>
    return .ok
      ["Processing results: " ++ Profile.Census.codec.encode census,
        "Statistics - " ++ (Sample.Summary.ofList numbers).line, userLine user]

end Intake.Demo
