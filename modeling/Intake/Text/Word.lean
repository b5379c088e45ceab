import Intake.Text.Ranges
import Intake.Text.WordRanges

/-!
Word characters, of ASCII and of Unicode.
-/

set_option autoImplicit false
set_option relaxedAutoImplicit false

namespace Intake.Text

def isAsciiLetter (c : Char) : Bool := ('a' ≤ c && c ≤ 'z') || ('A' ≤ c && c ≤ 'Z')

def isAsciiDigit (c : Char) : Bool := '0' ≤ c && c ≤ '9'

/-- A word character: in ASCII a letter, a digit or the underscore, beyond it as Unicode says. -/
def isWord (c : Char) : Bool :=
  if c.toNat < 0x80 then isAsciiLetter c || isAsciiDigit c || c == '_'
  else inRanges wordRanges c.toNat

/-- The lower-case form of an ASCII letter; all other characters stay. -/
def lowerAscii (c : Char) : Char :=
  if 'A' ≤ c && c ≤ 'Z' then Char.ofNat (c.toNat + 32) else c

end Intake.Text
