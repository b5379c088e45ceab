import Intake.Json.Reader.Basic

/-!
Reading the numbers of a document. Digits are gathered into a whole number below `2 ^ 64`; digits
beyond it only move the decimal point. A fraction or an exponent scales that number in steps of
binary arithmetic, so the result is near the decimal written, and not always the nearest.
-/

set_option autoImplicit false
set_option relaxedAutoImplicit false

namespace Intake.Json

def isDigit (c : Char) : Bool := '0' ≤ c && c ≤ '9'

def digitValue (c : Char) : Nat := c.toNat - '0'.toNat

/-- Appends digits to a number as long as it stays below a limit, and gives what is left of them. -/
def absorb (limit : Nat) (n : Nat) : (digits : Text) → Nat × Text
  | [] => (n, [])
  | d :: digits =>
    let appended := n * 10 + digitValue d
    if appended < limit then absorb limit appended digits else (n, d :: digits)

/-- The largest power of ten that binary numbers reach. -/
def largestPower : Nat := 308

/-- The number `x / 10 ^ (308 · steps + last)`, dividing step by step until nothing is left. -/
def scaleDownBy (x : Binary64) (last : Nat) : (steps : Nat) → Binary64
  | 0 => x / Binary64.tenPow last
  | steps + 1 =>
    if x.significand = 0 then x
    else scaleDownBy (x / Binary64.tenPow largestPower) last steps

/-- The number `x / 10 ^ n`. -/
def scaleDown (x : Binary64) (n : Nat) : Binary64 :=
  let steps := (n - 1) / largestPower
  scaleDownBy x (n - steps * largestPower) steps

/-- The number `x · 10 ^ n`, which may be an infinity. -/
def scaleUp (x : Binary64) (n : Nat) : Binary64 :=
  if n ≤ largestPower then x * Binary64.tenPow n
  else if x.significand = 0 then x
  else ⟨0x7FF0000000000000⟩

/-- The number `n · 10 ^ e`. -/
def scale (n : UInt64) (e : Int) : Binary64 :=
  if 0 ≤ e then scaleUp (.ofFloat n.toFloat) e.toNat else scaleDown (.ofFloat n.toFloat) (-e).toNat

def signed (isNegative : Bool) (x : Binary64) : Binary64 := if isNegative then -x else x

/-- A binary number as the number of a document, unless it is out of range. -/
def floatNumber? (isNegative : Bool) (x : Binary64) : Option Number :=
  let x := signed isNegative x
  if h : x.isFinite = true then some (.float x h) else none

/-- The number that digits without fraction and exponent stand for: with a minus sign, zero and
what lies below the signed range are binary numbers. -/
def wholeNumber? (isNegative : Bool) (n : UInt64) : Option Number :=
  if isNegative then
    if h : 0 < n.toNat ∧ n.toNat ≤ 0x8000000000000000 then
      some (.negative ⟨n.toNat - 1, by omega⟩)
    else floatNumber? true (.ofFloat n.toFloat)
  else some (.natural n)

/-- The digits at the front of a text, and what follows them. -/
def spanDigits (s : Text) : Text × { rest : Text // rest.length ≤ s.length } :=
  (s.takeWhile isDigit, ⟨s.dropWhile isDigit, (List.dropWhile_sublist isDigit).length_le⟩)

/-- The sign, the gathered digits and the decimal point of a number so far. -/
structure Numeral where
  isNegative : Bool
  digits : UInt64
  /-- The power of ten that the digits are multiplied with. -/
  point : Int

/-- What follows a number once its digits and its decimal point are known. -/
def finish (s : Text) {t : Text} (h : s.length < t.length) (number : Option Number) :
    Taken t Number :=
  match number with
  | some n => .ok (n, ⟨s, h⟩)
  | none => .error (.before .numberOutOfRange s)

/-- The value of a numeral that has no whole form. -/
def Numeral.float? (n : Numeral) : Option Number :=
  floatNumber? n.isNegative (scale n.digits n.point)

/-- Reads the digits of an exponent, its sign already taken. An exponent of `2 ^ 31` and more is
zero or out of range, whichever way it is written. -/
def exponentDigits (n : Numeral) (isNegative : Bool) : Reader Number := fun s =>
  match s with
  | [] => .error (.before (.ends .value) [])
  | c :: tail =>
    if isDigit c then
      let (digits, rest) := spanDigits tail
      let (e, surplus) := absorb 0x80000000 0 (c :: digits)
      have shorter : rest.val.length < (c :: tail).length := length_lt_cons_of_le rest
      match surplus with
      | [] =>
        finish rest.val shorter
          { n with point := if isNegative then n.point - e else n.point + e }.float?
      | _ :: unread =>
        if n.digits ≠ 0 ∧ ¬isNegative then
          .error (.before .numberOutOfRange (unread ++ rest.val))
        else finish rest.val shorter (floatNumber? n.isNegative .zero)
    else .error (.upon .badNumber s)

def exponent (n : Numeral) : Reader Number := fun s =>
  match s with
  | '+' :: rest => Taken.widen (by simp) (exponentDigits n false rest)
  | '-' :: rest => Taken.widen (by simp) (exponentDigits n true rest)
  | s => exponentDigits n false s

/-- The end of a number or its exponent. -/
def exponentOrEnd (n : Numeral) (plain : Option Number) (s : Text) {t : Text}
    (h : s.length < t.length) : Taken t Number :=
  match s with
  | 'e' :: rest | 'E' :: rest =>
    Taken.widen (by simp only [List.length_cons] at h; omega) (exponent n rest)
  | s => finish s h plain

def fraction (n : Numeral) : Reader Number := fun s =>
  match s with
  | [] => .error (.before (.ends .value) [])
  | c :: tail =>
    if isDigit c then
      let (digits, rest) := spanDigits tail
      let (value, surplus) := absorb UInt64.size n.digits.toNat (c :: digits)
      let n : Numeral :=
        { n with
          digits := value.toUInt64
          point := n.point - ((digits.length + 1 - surplus.length : Nat) : Int) }
      exponentOrEnd n n.float? rest.val (length_lt_cons_of_le rest)
    else .error (.upon .badNumber s)

def unsigned (isNegative : Bool) : Reader Number := fun s =>
  match s with
  | [] => .error (.before (.ends .value) [])
  | c :: tail =>
    if isDigit c then
      let (digits, rest) := spanDigits tail
      if c = '0' ∧ digits ≠ [] then .error (.upon .badNumber tail)
      else
        let (value, surplus) := absorb UInt64.size 0 (c :: digits)
        let n : Numeral := ⟨isNegative, value.toUInt64, surplus.length⟩
        have shorter : rest.val.length < (c :: tail).length := length_lt_cons_of_le rest
        match h : rest.val with
        | '.' :: s =>
          Taken.widen (by rw [h] at shorter; simp only [List.length_cons] at *; omega)
            (fraction n s)
        | s =>
          exponentOrEnd n (if surplus = [] then wholeNumber? isNegative n.digits else n.float?) s
            (by rw [h] at shorter; exact shorter)
    else .error (.upon .badNumber s)

def number : Reader Number := fun s =>
  match s with
  | '-' :: rest => Taken.widen (by simp) (unsigned true rest)
  | s => unsigned false s

end Intake.Json
