import Intake.Json.Value

/-!
The text of a document: no blanks, members in the order of their keys, and in strings only the
quote, the backslash and the characters below the blank escaped. A list of characters here is a
text, so that what reads it back can be compared with it piece by piece.
-/

set_option autoImplicit false
set_option relaxedAutoImplicit false

namespace Intake.Json

/-- A text as its characters. -/
abbrev Text := List Char

def hexDigit (n : Nat) : Char := Nat.digitChar n

def escape (c : Char) : Text :=
  match c with
  | '"' => ['\\', '"']
  | '\\' => ['\\', '\\']
  | '\x08' => ['\\', 'b']
  | '\x0c' => ['\\', 'f']
  | '\n' => ['\\', 'n']
  | '\r' => ['\\', 'r']
  | '\t' => ['\\', 't']
  | _ =>
    if c.toNat < 0x20 then
      ['\\', 'u', '0', '0', hexDigit (c.toNat / 16), hexDigit (c.toNat % 16)]
    else [c]

/-- The inside of a string. -/
def escapeAll : Text → Text
  | [] => []
  | c :: rest => escape c ++ escapeAll rest

def stringText (s : String) : Text := '"' :: (escapeAll s.toList ++ ['"'])

/-- Texts joined by commas between two brackets. -/
def bracketed (first last : Char) (parts : List Text) : Text :=
  first :: (([','].intercalate parts) ++ [last])

/-- A text of an array from the texts of its items. -/
def arrayText (items : List Text) : Text := bracketed '[' ']' items

/-- A text of an object from its keys and the texts of their values. -/
def objectText (members : List (String × Text)) : Text :=
  bracketed '\x7b' '\x7d' (members.map fun (k, t) => stringText k ++ ':' :: t)

def boolText (b : Bool) : Text := if b then "true".toList else "false".toList

namespace Value

mutual

def chars : Value → Text
  | null => "null".toList
  | bool b => boolText b
  | number n => n.text
  | string s => stringText s
  | array items => arrayText (itemChars items)
  | object members => objectText (memberChars members)

def itemChars : List Value → List Text
  | [] => []
  | v :: rest => v.chars :: itemChars rest

/-- The members of an object with the texts of their values. -/
def memberChars : Keyed String Value → List (String × Text)
  | ⟨keys, _, value⟩ => List.ofFn fun i => (keys[i], (value i).chars)

end

def text (v : Value) : String := String.ofList v.chars

instance : Repr Value := ⟨fun v _ => v.text⟩

example : (object (.ofEntries [("b", string "\n"), ("a", array [null, bool true])])).chars =
    "\x7b\"a\":[null,true],\"b\":\"\\n\"\x7d".toList := by decide

end Value

end Intake.Json
