import Intake.Json.Codec.Basic
import Intake.Keyed

/-!
Codecs of a choice among names, and of maps with such names as keys. A name may also be written as
the only key of an object, with `null` for its value.
-/

set_option autoImplicit false
set_option relaxedAutoImplicit false

namespace Intake.Json

/-- A type with finitely many values, each with a name. -/
structure Choice (α : Type) where
  /-- All values, in the order in which their names are listed. -/
  all : List α
  name : α → String

namespace Choice

variable {α β : Type}

def find? (choice : Choice α) (name : String) : Option α :=
  choice.all.find? fun a => choice.name a == name

/-- The value with a name, or why there is none. -/
def select (choice : Choice α) (name : String) : Except Problem α :=
  match choice.find? name with
  | some a => .ok a
  | none => .error (.unknownName name (choice.all.map choice.name))

end Choice

namespace Codec

variable {α β : Type}

/-- Reads `null`, the value of a name that is written as a key. -/
def unit : Reader Unit := fun s =>
  match s with
  | 'n' :: rest => word "null" ('n' :: rest)
  | s => refuse "unit" s

/-- Goes over the brace that closes an object with one member. -/
def closeSingle : Reader Unit := Reader.afterBlanks fun s =>
  match s with
  | [] => .error (.upon (.ends .object) [])
  | '\x7d' :: rest => .ok ((), ⟨rest, length_lt_cons _⟩)
  | c :: rest => .error (.upon .valueExpected (c :: rest))

/-- Reads a name that is the only key of an object, after the opening brace. -/
def readKey (choice : Choice α) : Reader α := fun s =>
  match nextKey true s with
  | .error failure => .error failure
  | .ok (.closed rest) => .error (.before .valueExpected rest.val)
  | .ok (.item start) =>
    Taken.widen start.property (Reader.check stringBody choice.select start.val)

/-- Reads an object with a name as its only key, after the opening brace. -/
def readKeyed (choice : Choice α) : Reader α := fun s =>
  match readKey choice s with
  | .error failure => .error failure
  | .ok (a, rest) =>
    match colon rest.val with
    | .error failure => .error failure
    | .ok (_, rest') =>
      match Reader.afterBlanks unit rest'.val with
      | .error failure => .error failure
      | .ok (_, rest'') =>
        Taken.widen
          (Nat.le_of_lt (Nat.lt_trans rest''.property (Nat.lt_trans rest'.property rest.property)))
          (Reader.map (fun _ => a) closeSingle rest''.val)

def choice (choice : Choice α) : Codec α where
  write a := stringText (choice.name a)
  read s :=
    match s with
    | [] => .error (.upon (.ends .value) [])
    | '"' :: rest => Taken.widen (length_le_cons _) (Reader.check stringBody choice.select rest)
    | '\x7b' :: rest => Taken.widen (length_le_cons _) (readKeyed choice rest)
    | c :: rest => .error (.upon .valueExpected (c :: rest))

/-- A map with the names of a choice as keys. -/
def keyed [DecidableEq α] [LT α] [DecidableLT α] [LE α] [Std.LawfulOrderLT α] [Std.IsLinearOrder α]
    (keys : Choice α) (values : Codec β) : Codec (Keyed α β) where
  write m := objectText (m.entries.map fun (k, b) => (keys.name k, values.write b))
  read s :=
    match s with
    | '\x7b' :: rest =>
      let member (m : Keyed α β) (name : String) : Except Problem (Reader (Keyed α β)) :=
        match keys.select name with
        | .ok k => .ok (Reader.map (fun b => m.insert k b) values.read)
        | .error problem => .error problem
      Taken.widen (length_le_cons _) (foldMembers member .empty true rest)
    | s => refuse "a map" s

end Codec

end Intake.Json
