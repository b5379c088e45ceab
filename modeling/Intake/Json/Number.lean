import Intake.Binary64.Text

/-!
The numbers of a JSON document: whole numbers of the signed and the unsigned 64-bit range stay
whole, all others are finite binary numbers. Each whole number has one form.
-/

set_option autoImplicit false
set_option relaxedAutoImplicit false

namespace Intake.Json

/-- A number of a document. -/
inductive Number where
  /-- A whole number from zero up. -/
  | natural (n : UInt64)
  /-- The whole number `-(k + 1)`. -/
  | negative (k : Fin 0x8000000000000000)
  /-- A finite binary number. -/
  | float (x : Binary64) (finite : x.isFinite = true)
  deriving DecidableEq, Repr

namespace Number

def natural? : Number → Option UInt64
  | natural n => some n
  | _ => none

def text : Number → List Char
  | natural n => Decimal.digitChars n.toNat
  | negative k => '-' :: Decimal.digitChars (k.val + 1)
  | float x _ => x.shortestText

def toBinary64 : Number → Binary64
  | natural n => .ofFloat n.toFloat
  | negative k => -.ofNat (k.val + 1)
  | float x _ => x

end Number

end Intake.Json
