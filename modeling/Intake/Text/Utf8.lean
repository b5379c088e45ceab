/-!
UTF-8: bytes as characters, one byte at a time. What is no character is cut into the longest parts
that could have begun one; a tolerant reader puts U+FFFD for each, a strict one refuses.
-/

set_option autoImplicit false
set_option relaxedAutoImplicit false

namespace Intake.Text.Utf8

/-- A character that has begun: its bits so far, the bytes owed after the next one, and the range
of the next one. -/
structure Pending where
  bits : Nat
  owed : Nat
  low : Nat
  high : Nat
  deriving DecidableEq, Repr

/-- What the first byte of a character begins. -/
def Pending.ofFirst? (b : Nat) : Option Pending :=
  if 0xC2 ≤ b ∧ b ≤ 0xDF then some ⟨b % 32, 0, 0x80, 0xBF⟩
  else if b = 0xE0 then some ⟨b % 16, 1, 0xA0, 0xBF⟩
  else if b = 0xED then some ⟨b % 16, 1, 0x80, 0x9F⟩
  else if 0xE1 ≤ b ∧ b ≤ 0xEF then some ⟨b % 16, 1, 0x80, 0xBF⟩
  else if b = 0xF0 then some ⟨b % 8, 2, 0x90, 0xBF⟩
  else if 0xF1 ≤ b ∧ b ≤ 0xF3 then some ⟨b % 8, 2, 0x80, 0xBF⟩
  else if b = 0xF4 then some ⟨b % 8, 2, 0x80, 0x8F⟩
  else none

/-- A byte outside every open character: what is complete with it, and what it begins. An invalid
part is `none`. -/
def begin (b : Nat) : List (Option Char) × Option Pending :=
  if b < 0x80 then ([some (Char.ofNat b)], none)
  else
    match Pending.ofFirst? b with
    | some p => ([], some p)
    | none => ([none], none)

/-- The next byte: it goes on with the open character, or ends it as an invalid part and stands
for itself. -/
def next (pending : Option Pending) (b : Nat) : List (Option Char) × Option Pending :=
  match pending with
  | none => begin b
  | some p =>
    if p.low ≤ b ∧ b ≤ p.high then
      let bits := p.bits * 64 + b % 64
      match p.owed with
      | 0 => ([some (Char.ofNat bits)], none)
      | owed + 1 => ([], some ⟨bits, owed, 0x80, 0xBF⟩)
    else
      let (parts, pending) := begin b
      (none :: parts, pending)

/-- The characters and invalid parts of bytes that follow an open character. -/
def partsFrom (pending : Option Pending) : List UInt8 → List (Option Char)
  | [] => if pending.isSome then [none] else []
  | b :: rest =>
    let (parts, pending) := next pending b.toNat
    parts ++ partsFrom pending rest

/-- The characters of a sequence of bytes, with `none` for each invalid part. -/
def parts (bytes : List UInt8) : List (Option Char) := partsFrom none bytes

/-- The characters of a sequence of bytes, with U+FFFD for each invalid part. -/
def decodeLossy (bytes : List UInt8) : List Char := (parts bytes).map (·.getD '\uFFFD')

/-- The characters of a sequence of bytes, with a text of the reader's choice for each invalid
part. -/
def decodeWith (invalid : List Char) (bytes : List UInt8) : List Char :=
  (parts bytes).flatMap fun part => part.elim invalid ([·])

/-- The characters of a sequence of bytes, if it is UTF-8. -/
def decode? (bytes : List UInt8) : Option (List Char) := (parts bytes).mapM id

def encode (s : String) : List UInt8 := s.toUTF8.toList

example : decodeLossy [0x41, 0xE2, 0x82, 0xE2, 0x82, 0xAC, 0xFF] =
    ['A', '\uFFFD', '€', '\uFFFD'] := by
  decide

end Intake.Text.Utf8
