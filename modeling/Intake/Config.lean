import Intake.Event
import Intake.Json.Reader.Document
import Intake.Storage.Outcome
import Intake.Text.Utf8

/-!
Loading the configuration, a file that holds one JSON object. Loading either says why it failed, or
falls back on an empty object and leaves the reason in the log.
-/

set_option autoImplicit false
set_option relaxedAutoImplicit false

namespace Intake.Config

def usualPath : String := "/etc/app/config.json"

/-- Why a configuration could not be loaded. -/
inductive Fault where
  | absent (path : String)
  | unreadable (reason : String)
  /-- No document; what is wrong and where, in words. -/
  | noDocument (reason : String)
  /-- A document of another kind. -/
  | noObject (kind : String)
  deriving DecidableEq, Repr

def Fault.message : Fault → String
  | absent path => "Config file not found: " ++ path
  | unreadable reason => "Failed to read config file: " ++ reason
  | noDocument reason => "Invalid JSON in config: " ++ reason
  | noObject kind => "Config root must be a JSON object, found " ++ kind

def badEncoding : String := "stream did not contain valid UTF-8"

def ofText (text : List Char) : Except Fault Json.Object :=
  match Json.Value.parse (String.ofList text) with
  | .error failure => .error (.noDocument (failure.located text))
  | .ok (.object members) => .ok members
  | .ok v => .error (.noObject v.kind)

def ofOutcome (path : String) : Storage.Outcome → Except Fault Json.Object
  | .absent => .error (.absent path)
  | .refused reason => .error (.unreadable reason)
  | .contents bytes =>
    match Text.Utf8.decode? bytes with
    | none => .error (.unreadable badEncoding)
    | some text => ofText text

def loaded (path : String) (config : Json.Object) : Event where
  severity := .debug
  message := "Loaded config"
  details := [("path", path), ("keys", toString config.size)]

def notLoaded (path : String) (fault : Fault) : Event where
  severity := .error
  message := fault.message
  details := [("path", path)]

def load (path : String) (outcome : Storage.Outcome) : Logged (Except Fault Json.Object) :=
  match ofOutcome path outcome with
  | .ok config => ⟨.ok config, [loaded path config]⟩
  | .error fault => ⟨.error fault, []⟩

/-- Loads a configuration, or an empty one with the reason in the log. -/
def loadOrEmpty (path : String) (outcome : Storage.Outcome) : Logged Json.Object :=
  match load path outcome with
  | ⟨.ok config, events⟩ => ⟨config, events⟩
  | ⟨.error fault, events⟩ => ⟨.empty, events ++ [notLoaded path fault]⟩

end Intake.Config
