import Intake.Json.Reader.Document

/-!
Codecs: the written form of a type beside its reader. This module has the codecs of the plain
types; a reader of a number takes whole numbers only as they are written, and a binary number is
read from any.
-/

set_option autoImplicit false
set_option relaxedAutoImplicit false

namespace Intake.Json

/-- How the values of a type are written and read. -/
structure Codec (α : Type) where
  write : α → Text
  read : Reader α

namespace Codec

variable {α : Type}

def encode (c : Codec α) (a : α) : String := String.ofList (c.write a)

/-- Reads a text that holds one value and nothing else. -/
def decode (c : Codec α) (s : String) : Except Failure α :=
  Reader.whole (Reader.afterBlanks c.read) s.toList

/-- Refuses a value of another kind than wanted. -/
def refuse (wanted : String) : Reader α := fun s => .error (refusal wanted s)

/-- Reads a number and takes it as a value of a type. -/
def readNumber (wanted : String) (f : Number → Except Problem α) : Reader α := fun s =>
  match s with
  | [] => refuse wanted []
  | c :: rest =>
    if c = '-' ∨ isDigit c then Reader.check number f (c :: rest) else refuse wanted (c :: rest)

/-- Reads a string and takes it as a value of a type. -/
def readString (wanted : String) (f : String → Except Problem α) : Reader α := fun s =>
  match s with
  | '"' :: rest => Taken.widen (length_le_cons _) (Reader.check stringBody f rest)
  | s => refuse wanted s

/-- A number from zero up to below `limit`. -/
def natural (wanted : String) (limit : Nat) (ofNumber : UInt64 → α) (n : Number) :
    Except Problem α :=
  match n with
  | .natural n =>
    if n.toNat < limit then .ok (ofNumber n)
    else .error (.wrongValue (.number (.natural n)) wanted)
  | .negative k => .error (.wrongValue (.number (.negative k)) wanted)
  | .float x h => .error (.wrongKind (.number (.float x h)) wanted)

/-- A whole number of 64 bits; `wanted` is what a reader of an error message calls it. -/
def uint64 (wanted : String) : Codec UInt64 where
  write n := Decimal.digitChars n.toNat
  read := readNumber wanted (natural wanted UInt64.size id)

def uint32 : Codec UInt32 where
  write n := Decimal.digitChars n.toNat
  read := readNumber "u32" (natural "u32" UInt32.size UInt64.toUInt32)

/-- A binary number; one that is not finite is written as `null` and cannot be read. -/
def binary64 : Codec Binary64 where
  write x := if x.isFinite then x.shortestText else "null".toList
  read := readNumber "f64" fun n => .ok n.toBinary64

def string : Codec String where
  write := stringText
  read := readString "a string" .ok

/-- A value or `null`. -/
def optional (c : Codec α) : Codec (Option α) where
  write
    | none => "null".toList
    | some a => c.write a
  read s :=
    match s with
    | 'n' :: rest => Reader.map (fun _ => none) (word "null") ('n' :: rest)
    | s => Reader.map some c.read s

def list (c : Codec α) : Codec (List α) where
  write items := arrayText (items.map c.write)
  read s :=
    match s with
    | '[' :: rest =>
      Taken.widen (length_le_cons _)
        (Reader.map List.reverse
          (foldItems (fun items => Reader.map (fun a => a :: items) c.read) [] true) rest)
    | s => refuse "a sequence" s

end Codec

end Intake.Json
