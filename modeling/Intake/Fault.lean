import Intake.Config
import Intake.Directory.Basic
import Intake.Json.Codec.Basic
import Intake.Log.Report

/-!
All faults of the application under one type, each with a code for programs, a message for readers,
and a line that has both in words.
-/

set_option autoImplicit false
set_option relaxedAutoImplicit false

namespace Intake

/-- A fault of the application. -/
inductive Fault where
  | config (fault : Config.Fault)
  | log (fault : Log.Fault)
  | signup (fault : Signup.Fault)
  | directory (fault : Directory.Fault)
  | internal (message : String)
  deriving DecidableEq, Repr

/-- A fault as it is answered to a caller. -/
structure Answer where
  code : String
  message : String
  deriving DecidableEq, Repr

def Answer.text (a : Answer) : String :=
  String.ofList
    (Json.objectText [("code", Json.stringText a.code), ("message", Json.stringText a.message)])

namespace Fault

def code : Fault → String
  | config _ => "CONFIG_ERROR"
  | log _ => "LOG_PARSE_ERROR"
  | signup _ => "VALIDATION_ERROR"
  | directory _ => "DIRECTORY_ERROR"
  | internal _ => "INTERNAL_ERROR"

/-- What the line of a fault begins with. -/
def heading : Fault → String
  | config _ => "Config error: "
  | log _ => "Log parse error: "
  | signup _ => "Validation error: "
  | directory _ => "Directory error: "
  | internal _ => "Internal error: "

def message : Fault → String
  | config fault => fault.message
  | log fault => fault.message
  | signup fault => fault.message
  | directory fault => fault.message
  | internal message => message

def line (fault : Fault) : String := fault.heading ++ fault.message

def answer (fault : Fault) : Answer := ⟨fault.code, fault.message⟩

/-- A fault as a document; no answer has to be made of it first. -/
def text (fault : Fault) : String :=
  Answer.text { code := fault.code, message := fault.message }

end Fault

end Intake
