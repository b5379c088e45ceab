import Intake.Json.Codec.Record
import Intake.Keyed

/-!
Profiles: what is known of a user, of whom every part may be unknown. A profile is read from any
document, where parts of the wrong type are taken for unknown, or from a text, where they are
refused. Members of other names are kept.
-/

set_option autoImplicit false
set_option relaxedAutoImplicit false

namespace Intake

/-- What is known of a user. -/
structure Profile where
  id : Option UInt64 := none
  name : Option String := none
  email : Option String := none
  role : Option String := none
  status : Option String := none
  /-- Everything else. -/
  extra : Json.Object := .empty
  deriving DecidableEq, Repr, Inhabited

namespace Profile

open Json

def adminRole : String := "admin"

def activeStatus : String := "active"

/-- The names that are not kept among the rest. -/
def knownNames : List String := ["id", "name", "email", "role", "status"]

/-- The address, empty if unknown. -/
def emailOrEmpty (p : Profile) : String := p.email.getD ""

def isAdmin (p : Profile) : Bool := p.role == some adminRole

def isActive (p : Profile) : Bool := p.status == some activeStatus

def ofObject (members : Object) : Profile :=
  let text (key : String) : Option String := (members.get? key).bind Value.string?
  { id := (members.get? "id").bind Value.natural?
    name := text "name"
    email := text "email"
    role := text "role"
    status := text "status"
    extra := members.filter fun e => !knownNames.contains e.1 }

/-- The profile of any document; nothing is known from one that is no object. -/
def ofValue : Value → Profile
  | .object members => ofObject members
  | _ => {}

/-- The known parts, each of them unknown where it is missing or `null`. -/
def fields :
    Fields (Option UInt64 × Option String × Option String × Option String × Option String × Unit) :=
  .field "id" (.optional (.uint64 "u64")) (some none) <|
  .field "name" (.optional .string) (some none) <|
  .field "email" (.optional .string) (some none) <|
  .field "role" (.optional .string) (some none) <|
  .field "status" (.optional .string) (some none) .nil

/-- What has been read of a profile so far. -/
structure Draft where
  known : fields.Draft
  extra : Object

/-- Reads one member: a known part, or a document that is kept. The object around it takes one of
the levels that documents may have. -/
def member (draft : Draft) (key : String) : Except Problem (Reader Draft) :=
  match fields.member? draft.known key with
  | some read => read.map (Reader.map fun known => { draft with known := known })
  | none =>
    .ok (Reader.map (fun v => { draft with extra := draft.extra.insert key v })
      (document (nestingLimit - 1)))

def ofDraft (draft : Draft) : Except Problem Profile :=
  (fields.complete (fun _ name => .missingField name) 0 draft.known).map
    fun (id, name, email, role, status, _) => ⟨id, name, email, role, status, draft.extra⟩

/-- The members of a profile: its known parts in their order, then the rest. -/
def entries (p : Profile) : List (String × Text) :=
  let text (key : String) (part : Option String) : List (String × Text) :=
    (part.map fun s => (key, stringText s)).toList
  (p.id.map fun n => ("id", Decimal.digitChars n.toNat)).toList ++ text "name" p.name ++
    text "email" p.email ++ text "role" p.role ++ text "status" p.status ++
    Value.memberChars p.extra

def codec : Codec Profile where
  write p := objectText p.entries
  read s :=
    match s with
    | '\x7b' :: rest =>
      Taken.widen (length_le_cons _)
        (Reader.check (foldMembers member ⟨fields.blank, .empty⟩ true) ofDraft rest)
    | s => Codec.refuse "struct UserRecord" s

end Profile

end Intake
