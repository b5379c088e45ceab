import Intake.Json.Codec.Basic
import Intake.Json.Reader.Skip

/-!
Codecs of records. A record is written as an object with its fields in order; it is read from such
an object, in any order and with other members passed over, or from an array of its values in
order. Fields may have a value to fall back on, which stands in where they are missing.
-/

set_option autoImplicit false
set_option relaxedAutoImplicit false

namespace Intake.Json

/-- The fields of a record in order, as the type of the tuple of their values. -/
inductive Fields : Type → Type 1 where
  | nil : Fields Unit
  | field {α τ : Type} (name : String) (codec : Codec α) (fallback : Option α)
      (more : Fields τ) : Fields (α × τ)

namespace Fields

/-- What has been read of a record so far. -/
def Draft : {τ : Type} → Fields τ → Type
  | _, nil => Unit
  | _, @field α _ _ _ _ more => Option α × more.Draft

def blank : {τ : Type} → (f : Fields τ) → f.Draft
  | _, nil => ()
  | _, field _ _ _ more => (none, more.blank)

def count : {τ : Type} → Fields τ → Nat
  | _, nil => 0
  | _, field _ _ _ more => more.count + 1

/-- The names of the fields with the texts of their values. -/
def entries : {τ : Type} → Fields τ → τ → List (String × Text)
  | _, nil, _ => []
  | _, field name codec _ more, (a, rest) => (name, codec.write a) :: more.entries rest

/-- Reads the value of a field that has no value yet; `none` if no field has this name. -/
def member? : {τ : Type} → (f : Fields τ) → f.Draft → (key : String) →
    Option (Except Problem (Reader f.Draft))
  | _, nil, _, _ => none
  | _, @field α _ name codec _ more, draft, key =>
    let (slot, rest) : Option α × more.Draft := draft
    if key = name then
      match slot with
      | some _ => some (.error (.duplicateField name))
      | none => some (.ok (Reader.map (fun a => (some a, rest)) codec.read))
    else (more.member? rest key).map fun read =>
      read.map (Reader.map fun rest => (slot, rest))

/-- The values of all fields; `missing` tells what is wrong when a field that has no value to fall
back on, given by its place and name, is missing. -/
def complete (missing : Nat → String → Problem) : {τ : Type} → (f : Fields τ) → (place : Nat) →
    f.Draft → Except Problem τ
  | _, nil, _, _ => .ok ()
  | _, @field α _ name _ fallback more, place, draft =>
    let (slot, rest) : Option α × more.Draft := draft
    match slot <|> fallback with
    | none => .error (missing place name)
    | some a => (more.complete missing (place + 1) rest).map fun values => (a, values)

/-- Goes over the bracket that closes an array of which nothing more is wanted. -/
def closeItems : Reader Unit := Reader.afterBlanks fun s =>
  match s with
  | [] => .error (.upon (.ends .array) [])
  | ']' :: rest => .ok ((), ⟨rest, length_lt_cons _⟩)
  | ',' :: rest =>
    match trimBlanks rest with
    | ']' :: rest => .error (.upon .trailingComma (']' :: rest))
    | more => .error (.upon .trailingCharacters more)
  | c :: rest => .error (.upon .trailingCharacters (c :: rest))

/-- Reads the fields from the items of an array, which may end early. -/
def readItems : {τ : Type} → (f : Fields τ) → (isFirst : Bool) → Reader f.Draft
  | _, nil, _, s => closeItems s
  | _, field _ codec _ more, isFirst, s =>
    match nextItem isFirst s with
    | .error failure => .error failure
    | .ok (.closed rest) => .ok ((none, more.blank), rest)
    | .ok (.item start) =>
      match codec.read start.val with
      | .error failure => .error failure
      | .ok (a, rest) =>
        Taken.widen (Nat.le_of_lt (Nat.lt_of_lt_of_le rest.property start.property))
          (Reader.map (fun draft => (some a, draft)) (more.readItems false) rest.val)

/-- Reads the fields from the members of an object, passing over members that are no fields. -/
def readMembers {τ : Type} (f : Fields τ) : Reader f.Draft :=
  let member (draft : f.Draft) (key : String) : Except Problem (Reader f.Draft) :=
    match f.member? draft key with
    | some read => read
    | none => .ok (Reader.map (fun _ => draft) skipDocument)
  foldMembers member f.blank true

end Fields

/-- A record with a name for error messages and a tuple of fields that stands for it. -/
structure Record (α τ : Type) where
  name : String
  fields : Fields τ
  toTuple : α → τ
  ofTuple : τ → α

namespace Record

variable {α τ : Type}

/-- What a reader of an error message calls a record. -/
def wanted (r : Record α τ) : String := "struct " ++ r.name

/-- Reads a record from an array, after the opening bracket. -/
def readArray (r : Record α τ) : Reader α :=
  let missing (place : Nat) (_ : String) : Problem := .wrongLength place r.name r.fields.count
  Reader.check (r.fields.readItems true) fun draft =>
    (r.fields.complete missing 0 draft).map r.ofTuple

/-- Reads a record from an object, after the opening brace. -/
def readObject (r : Record α τ) : Reader α :=
  Reader.check r.fields.readMembers fun draft =>
    (r.fields.complete (fun _ name => .missingField name) 0 draft).map r.ofTuple

def codec (r : Record α τ) : Codec α where
  write a := objectText (r.fields.entries (r.toTuple a))
  read s :=
    match s with
    | '[' :: rest => Taken.widen (length_le_cons _) (r.readArray rest)
    | '\x7b' :: rest => Taken.widen (length_le_cons _) (r.readObject rest)
    | s => Codec.refuse r.wanted s

end Record

end Intake.Json
