import Intake.Json.Codec.Choice
import Intake.Text.Utf8
import Intake.Text.Word

/-!
The data formats, and the format that the name of a file tells. A path is a sequence of bytes, of
which only the extension has to be text.
-/

set_option autoImplicit false
set_option relaxedAutoImplicit false

namespace Intake

/-- The byte that divides a path into names. -/
def slash : UInt8 := 47

/-- The byte that divides a name into its stem and its ending. -/
def dot : UInt8 := 46

/-- The last name of a path that is neither `.` nor empty, unless it leads upward. -/
def fileName? (path : List UInt8) : Option (List UInt8) :=
  match (path.splitOn slash).reverse.find? fun part => part ≠ [] ∧ part ≠ [dot] with
  | some part => if part = [dot, dot] then none else some part
  | none => none

/-- What follows the last dot of a name, which must not be its first byte. -/
def extensionOf? (name : List UInt8) : Option (List UInt8) :=
  let ending := name.reverse.takeWhile (· ≠ dot)
  if ending.length + 1 < name.length then some ending.reverse else none

def extension? (path : List UInt8) : Option (List UInt8) := (fileName? path).bind extensionOf?

/-- A format of data files. -/
inductive Format where
  | json
  | csv
  | xml
  deriving DecidableEq, Repr

namespace Format

def choice : Json.Choice Format where
  all := [json, csv, xml]
  name
    | json => "json"
    | csv => "csv"
    | xml => "xml"

def name (format : Format) : String := choice.name format

def codec : Json.Codec Format := .choice choice

/-- The format with a name; capital letters do not matter. -/
def ofName? (name : List Char) : Option Format :=
  choice.find? (String.ofList (name.map Text.lowerAscii))

/-- The format that the extension of a path names; an extension that is no text names none. -/
def ofPathBytes? (path : List UInt8) : Option Format :=
  ((extension? path).bind Text.Utf8.decode?).bind ofName?

def ofPath? (path : String) : Option Format := ofPathBytes? (Text.Utf8.encode path)

example : ofPath? "a.b/c.CSV/./" = some csv ∧ ofPath? ".json" = none := by cbv

end Format

end Intake
