import Intake.Json.Number
import Intake.Keyed

/-!
JSON documents as values. The members of an object form a map: their order in a text is not kept,
and of a repeated key the last value counts.
-/

set_option autoImplicit false
set_option relaxedAutoImplicit false

namespace Intake.Json

/-- A document. -/
inductive Value where
  | null
  | bool (b : Bool)
  | number (n : Number)
  | string (s : String)
  | array (items : List Value)
  | object (members : Keyed String Value)
  deriving Inhabited

/-- The members of an object by their keys. -/
abbrev Object := Keyed String Value

namespace Value

mutual

/-- Equality of documents is decided part by part. -/
def decEq : (v w : Value) → Decidable (v = w)
  | null, null => isTrue rfl
  | bool a, bool b =>
    if h : a = b then isTrue (h ▸ rfl) else isFalse fun e => h (by cases e; rfl)
  | number a, number b =>
    if h : a = b then isTrue (h ▸ rfl) else isFalse fun e => h (by cases e; rfl)
  | string a, string b =>
    if h : a = b then isTrue (h ▸ rfl) else isFalse fun e => h (by cases e; rfl)
  | array a, array b =>
    match decEqItems a b with
    | isTrue h => isTrue (h ▸ rfl)
    | isFalse h => isFalse fun e => h (by cases e; rfl)
  | object a, object b =>
    match decEqMembers a b with
    | isTrue h => isTrue (h ▸ rfl)
    | isFalse h => isFalse fun e => h (by cases e; rfl)
  | null, bool _ | null, number _ | null, string _ | null, array _ | null, object _
  | bool _, null | bool _, number _ | bool _, string _ | bool _, array _ | bool _, object _
  | number _, null | number _, bool _ | number _, string _ | number _, array _
  | number _, object _
  | string _, null | string _, bool _ | string _, number _ | string _, array _
  | string _, object _
  | array _, null | array _, bool _ | array _, number _ | array _, string _ | array _, object _
  | object _, null | object _, bool _ | object _, number _ | object _, string _
  | object _, array _ => isFalse nofun

def decEqItems : (v w : List Value) → Decidable (v = w)
  | [], [] => isTrue rfl
  | [], _ :: _ => isFalse nofun
  | _ :: _, [] => isFalse nofun
  | a :: v, b :: w =>
    match decEq a b, decEqItems v w with
    | isTrue h, isTrue t => isTrue (h ▸ t ▸ rfl)
    | isFalse h, _ => isFalse fun e => h (by cases e; rfl)
    | _, isFalse t => isFalse fun e => t (by cases e; rfl)

def decEqMembers : (m n : Keyed String Value) → Decidable (m = n)
  | ⟨keys, _, f⟩, ⟨keys', _, g⟩ =>
    if same : keys = keys' then
      have each (i : Fin keys.length) : Decidable (f i = g (i.cast (congrArg List.length same))) :=
        decEq (f i) _
      match Nat.decidableForallFin fun i => f i = g (i.cast (congrArg List.length same)) with
      | isTrue h => isTrue (by subst same; congr; exact funext h)
      | isFalse h => isFalse fun e => h (by cases e; exact fun _ => rfl)
    else isFalse fun e => same (by cases e; rfl)

end

instance : DecidableEq Value := decEq

def kind : Value → String
  | null => "null"
  | bool _ => "boolean"
  | number _ => "number"
  | string _ => "string"
  | array _ => "array"
  | object _ => "object"

/-- The whole number from zero up that a document is. -/
def natural? : Value → Option UInt64
  | number n => n.natural?
  | _ => none

def string? : Value → Option String
  | string s => some s
  | _ => none

def array? : Value → Option (List Value)
  | array items => some items
  | _ => none

def object? : Value → Option Object
  | object members => some members
  | _ => none

end Value

end Intake.Json
