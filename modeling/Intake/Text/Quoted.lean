import Intake.Text.HiddenRanges
import Intake.Text.Ranges

/-!
Text in quotes for a reader's eyes: the quote, the backslash and what cannot be seen are escaped.
-/

set_option autoImplicit false
set_option relaxedAutoImplicit false

namespace Intake.Text

/-- A character that is not shown as it is. -/
def isHidden (c : Char) : Bool :=
  c.toNat < 0x20 || c.toNat == 0x7F || (0x80 ≤ c.toNat && inRanges hiddenRanges c.toNat)

def quotedChar (c : Char) : List Char :=
  match c with
  | '\x00' => ['\\', '0']
  | '\t' => ['\\', 't']
  | '\n' => ['\\', 'n']
  | '\r' => ['\\', 'r']
  | '"' => ['\\', '"']
  | '\\' => ['\\', '\\']
  | c =>
    if isHidden c then '\\' :: 'u' :: '\x7b' :: Nat.toDigits 16 c.toNat ++ ['\x7d'] else [c]

example : quotedChar 'ﾞ' = ['ﾞ'] ∧ quotedChar '\u3164' = "\\u\x7b3164\x7d".toList := by
  decide +kernel

def quoted (s : String) : String := String.ofList ('"' :: s.toList.flatMap quotedChar ++ ['"'])

end Intake.Text
