import Intake.Event
import Intake.Json.Codec.Record
import Intake.Settings.Format

/-!
The settings of the application. They are read strictly from a text, or tolerantly from the members
of a document: there each setting depends on its own key alone, and what does not fit is passed
over.
-/

set_option autoImplicit false
set_option relaxedAutoImplicit false

namespace Intake

structure Settings where
  maxRetries : UInt32 := 3
  /-- In seconds. -/
  timeout : UInt64 := 30
  formats : List Format := [.json, .csv, .xml]
  deriving DecidableEq, Repr, Inhabited

namespace Settings

open Json

/-- The settings of an empty document. -/
def standard : Settings := {}

def record : Record Settings (UInt32 × UInt64 × List Format × Unit) where
  name := "AppSettings"
  fields :=
    .field "max_retries" .uint32 (some standard.maxRetries) <|
    .field "default_timeout" (.uint64 "u64") (some standard.timeout) <|
    .field "supported_formats" (.list Format.codec) (some standard.formats) .nil
  toTuple s := (s.maxRetries, s.timeout, s.formats, ())
  ofTuple := fun (maxRetries, timeout, formats, _) => ⟨maxRetries, timeout, formats⟩

def codec : Codec Settings := record.codec

/-- A number of retries, if it is in range. -/
def retries? (n : UInt64) : Option UInt32 :=
  if n.toNat < UInt32.size then some n.toUInt32 else none

def unknownFormat (name : String) : Event where
  severity := .warning
  message := "Ignoring unsupported data format"
  details := [("format", name)]

/-- The formats that the strings of a list name, with an event for each that names none. -/
def readFormats : List Value → Logged (List Format)
  | [] => ⟨[], []⟩
  | .string name :: items =>
    let rest := readFormats items
    match Format.ofName? name.toList with
    | some format => ⟨format :: rest.value, rest.events⟩
    | none => ⟨rest.value, unknownFormat name :: rest.events⟩
  | _ :: items => readFormats items

def ofObject (config : Object) : Logged Settings :=
  let maxRetries := ((config.get? "max_retries").bind Value.natural?).bind retries?
  let timeout := (config.get? "default_timeout").bind Value.natural?
  let formats : Logged (List Format) :=
    match (config.get? "supported_formats").bind Value.array? with
    | some items => readFormats items
    | none => ⟨standard.formats, []⟩
  ⟨⟨maxRetries.getD standard.maxRetries, timeout.getD standard.timeout, formats.value⟩,
    formats.events⟩

/-- Whether the extension of a path names one of the formats. -/
def supportsBytes (s : Settings) (path : List UInt8) : Bool :=
  match Format.ofPathBytes? path with
  | some format => s.formats.contains format
  | none => false

def supports (s : Settings) (path : String) : Bool := s.supportsBytes (Text.Utf8.encode path)

end Settings

end Intake
