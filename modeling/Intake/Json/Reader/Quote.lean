import Intake.Json.Reader.Basic

/-!
Reading the strings of a document: escapes, among them pairs of surrogates that stand for one
character, and the strings that are only gone over.
-/

set_option autoImplicit false
set_option relaxedAutoImplicit false

namespace Intake.Json

def hexValue? (c : Char) : Option Nat :=
  if '0' ≤ c ∧ c ≤ '9' then some (c.toNat - '0'.toNat)
  else if 'a' ≤ c ∧ c ≤ 'f' then some (c.toNat - 'a'.toNat + 10)
  else if 'A' ≤ c ∧ c ≤ 'F' then some (c.toNat - 'A'.toNat + 10)
  else none

/-- Reads the four hexadecimal digits of an escape. Four bytes are looked at together. -/
def hexUnit : Reader Nat := fun s =>
  match h : s with
  | a :: b :: c :: d :: rest =>
    match hexValue? a, hexValue? b, hexValue? c, hexValue? d with
    | some a, some b, some c, some d =>
      .ok (((a * 16 + b) * 16 + c) * 16 + d, ⟨rest, by simp; omega⟩)
    | _, _, _, _ => .error ⟨.badEscape, s, 4⟩
  | s => .error (if 4 ≤ byteCount s then ⟨.badEscape, s, 4⟩ else .before (.ends .string) [])

def isHighSurrogate (n : Nat) : Bool := 0xD800 ≤ n && n ≤ 0xDBFF

def isLowSurrogate (n : Nat) : Bool := 0xDC00 ≤ n && n ≤ 0xDFFF

/-- The character that a pair of surrogates stands for. -/
def pairedChar (high low : Nat) : Char :=
  Char.ofNat ((high - 0xD800) * 0x400 + (low - 0xDC00) + 0x10000)

/-- Reads the second half of a pair, with its own backslash. -/
def lowSurrogate (high : Nat) : Reader Char
  | '\\' :: 'u' :: s =>
    match hexUnit s with
    | .error failure => .error failure
    | .ok (low, rest) =>
      if isLowSurrogate low then
        .ok (pairedChar high low, rest.widen (by simp only [List.length_cons]; omega))
      else .error (.before .loneSurrogate rest.val)
  | [] | '\\' :: [] => .error (.before (.ends .string) [])
  | '\\' :: s => .error (.upon .unpairedEscape s)
  | s => .error (.upon .unpairedEscape s)

/-- Reads the code of an escaped character, after the letter that announces it. -/
def unicodeEscape : Reader Char := fun s =>
  match hexUnit s with
  | .error failure => .error failure
  | .ok (n, rest) =>
    if isLowSurrogate n then .error (.before .loneSurrogate rest.val)
    else if isHighSurrogate n then
      Taken.widen (Nat.le_of_lt rest.property) (lowSurrogate n rest.val)
    else .ok (Char.ofNat n, rest)

/-- The character that a letter stands for after a backslash. -/
def escapedChar? : Char → Option Char
  | '"' => some '"'
  | '\\' => some '\\'
  | '/' => some '/'
  | 'b' => some '\x08'
  | 'f' => some '\x0c'
  | 'n' => some '\n'
  | 'r' => some '\r'
  | 't' => some '\t'
  | _ => none

/-- Reads one character of a string or its end, which is `none`. -/
def stringPart : Reader (Option Char)
  | [] => .error (.before (.ends .string) [])
  | '"' :: rest => .ok (none, ⟨rest, length_lt_cons rest⟩)
  | '\\' :: s =>
    match s with
    | [] => .error (.before (.ends .string) [])
    | 'u' :: s =>
      Taken.widen (by simp only [List.length_cons]; omega) (Reader.map some unicodeEscape s)
    | c :: rest =>
      match escapedChar? c with
      | some c => .ok (some c, ⟨rest, by simp only [List.length_cons]; omega⟩)
      | none => .error (.upon .badEscape (c :: rest))
  | c :: rest =>
    if c.toNat < 0x20 then .error (.upon .controlCharacter (c :: rest))
    else .ok (some c, ⟨rest, length_lt_cons rest⟩)

/-- Reads the characters of a string up to its closing quote. -/
def stringChars (s : Text) : Taken s Text :=
  match stringPart s with
  | .error failure => .error failure
  | .ok (none, rest) => .ok ([], rest)
  | .ok (some c, rest) =>
    match stringChars rest.val with
    | .error failure => .error failure
    | .ok (chars, last) => .ok (c :: chars, last.widen (Nat.le_of_lt rest.property))
termination_by s.length
decreasing_by exact rest.property

theorem takes_stringChars_iff {s rest chars : Text} :
    Reader.Takes stringChars s chars rest ↔
      (Reader.Takes stringPart s none rest ∧ chars = []) ∨
        ∃ c more tail, Reader.Takes stringPart s (some c) more ∧
          Reader.Takes stringChars more tail rest ∧ chars = c :: tail := by
  constructor
  · rintro ⟨less, eq⟩
    rw [stringChars] at eq
    split at eq
    · simp at eq
    · rename_i last hs
      simp only [Except.ok.injEq, Prod.mk.injEq] at eq
      obtain ⟨rfl, rfl⟩ := eq
      exact .inl ⟨⟨less, hs⟩, rfl⟩
    · rename_i c more hs
      split at eq
      · simp at eq
      · rename_i tail last ht
        simp only [Except.ok.injEq, Prod.mk.injEq, Rest.widen, Subtype.mk.injEq] at eq
        obtain ⟨rfl, rfl⟩ := eq
        exact .inr ⟨c, more.val, tail, ⟨more.property, hs⟩, ⟨last.property, ht⟩, rfl⟩
  · rintro (⟨⟨less, hs⟩, rfl⟩ | ⟨c, more, tail, ⟨less, hs⟩, ⟨less', ht⟩, rfl⟩)
    · exact ⟨less, by rw [stringChars, hs]⟩
    · exact ⟨Nat.lt_trans less' less, by rw [stringChars, hs]; simp only [ht]; rfl⟩

/-- A digit below sixteen is read as it was written. -/
theorem hexValue?_hexDigit {n : Nat} (h : n < 16) : hexValue? (hexDigit n) = some n := by
  revert n
  decide

/-- An escaped character is read back, whatever follows it. -/
theorem takes_escape (c : Char) (rest : Text) :
    Reader.Takes stringPart (escape c ++ rest) (some c) rest := by
  unfold escape
  split
  case h_8 h₁ h₂ h₃ h₄ h₅ h₆ h₇ =>
    split
    · rename_i low
      have high : hexValue? (hexDigit (c.toNat / 16)) = some (c.toNat / 16) :=
        hexValue?_hexDigit (by omega)
      have unit : hexValue? (hexDigit (c.toNat % 16)) = some (c.toNat % 16) :=
        hexValue?_hexDigit (by omega)
      have zero : hexValue? '0' = some 0 := by decide
      have sum : c.toNat / 16 * 16 + c.toNat % 16 = c.toNat := by omega
      have noLow : isLowSurrogate c.toNat = false := by simp [isLowSurrogate]; omega
      have noHigh : isHighSurrogate c.toNat = false := by simp [isHighSurrogate]; omega
      refine ⟨by simp; omega, ?_⟩
      simp [stringPart, Taken.widen, Reader.map, unicodeEscape, hexUnit, zero, high, unit, sum,
        noLow, noHigh, Rest.widen, Char.ofNat_toNat]
    · rename_i plain
      refine ⟨by simp, ?_⟩
      exact (stringPart.eq_6 c rest h₁ h₂).trans (by simp [plain])
  all_goals exact ⟨by simp only [List.length_append, List.length_cons, List.length_nil]; omega,
    by simp [stringPart, escapedChar?]⟩

/-- The inside of a string and its closing quote are read back. -/
theorem takes_escapeAll (chars rest : Text) :
    Reader.Takes stringChars (escapeAll chars ++ '"' :: rest) chars rest := by
  induction chars with
  | nil => exact takes_stringChars_iff.2 (.inl ⟨⟨by simp [escapeAll], rfl⟩, rfl⟩)
  | cons c chars ih =>
    refine takes_stringChars_iff.2 (.inr ⟨c, _, chars, ?_, ih, rfl⟩)
    simpa [escapeAll] using takes_escape c (escapeAll chars ++ '"' :: rest)

def stringBody : Reader String := Reader.map String.ofList stringChars

/-- Goes over one character of a string, `true`, or its end, `false`. What an escape stands for is
not looked at. -/
def stringMark : Reader Bool
  | [] => .error (.before (.ends .string) [])
  | '"' :: rest => .ok (false, ⟨rest, by simp⟩)
  | '\\' :: s =>
    match s with
    | [] => .error (.before (.ends .string) [])
    | 'u' :: s =>
      Taken.widen (by simp only [List.length_cons]; omega) (Reader.map (fun _ => true) hexUnit s)
    | c :: rest =>
      if (escapedChar? c).isSome then .ok (true, ⟨rest, by simp only [List.length_cons]; omega⟩)
      else .error (.upon .badEscape (c :: rest))
  | c :: rest =>
    if c.toNat < 0x20 then .error (.upon .controlCharacter (c :: rest))
    else .ok (true, ⟨rest, by simp⟩)

def skipString (s : Text) : Taken s Unit :=
  match stringMark s with
  | .error failure => .error failure
  | .ok (false, rest) => .ok ((), rest)
  | .ok (true, rest) => Taken.widen (Nat.le_of_lt rest.property) (skipString rest.val)
termination_by s.length
decreasing_by exact rest.property

end Intake.Json
