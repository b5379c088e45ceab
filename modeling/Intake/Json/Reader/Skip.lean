import Intake.Json.Reader.Bracket
import Intake.Json.Reader.Numeral

/-!
Going over a document that nobody asked for. Its form is looked at, but not what its numbers and
escapes stand for, and its brackets may stand inside each other as deep as they like.
-/

set_option autoImplicit false
set_option relaxedAutoImplicit false

namespace Intake.Json

def skipDigits : Reader Unit := fun s =>
  match s with
  | [] => .error (.upon .badNumber [])
  | c :: tail =>
    if isDigit c then
      let (_, rest) := spanDigits tail
      .ok ((), ⟨rest.val, length_lt_cons_of_le rest⟩)
    else .error (.upon .badNumber (c :: tail))

def skipExponent : Reader Unit := fun s =>
  match s with
  | '+' :: rest | '-' :: rest => Taken.widen (length_le_cons _) (skipDigits rest)
  | s => skipDigits s

/-- Goes over an exponent, if there is one. -/
def skipScale (s : Text) : Except Failure { rest : Text // rest.length ≤ s.length } :=
  match s with
  | 'e' :: rest | 'E' :: rest =>
    match skipExponent rest with
    | .error failure => .error failure
    | .ok (_, rest') => .ok ⟨rest'.val, Nat.le_of_lt (Nat.lt_succ_of_lt rest'.property)⟩
  | s => .ok ⟨s, length_le_self _⟩

/-- Goes over a fraction and an exponent, if there are any. -/
def skipFraction (s : Text) : Except Failure { rest : Text // rest.length ≤ s.length } :=
  match s with
  | '.' :: rest =>
    match skipDigits rest with
    | .error failure => .error failure
    | .ok (_, rest') =>
      match skipScale rest'.val with
      | .error failure => .error failure
      | .ok last =>
        .ok ⟨last.val, by
          have := rest'.property; have := last.property; simp only [List.length_cons]; omega⟩
  | s => skipScale s

def skipUnsigned : Reader Unit := fun s =>
  match s with
  | '0' :: c :: rest =>
    if isDigit c then .error (.upon .badNumber (c :: rest))
    else
      match skipFraction (c :: rest) with
      | .error failure => .error failure
      | .ok last => .ok ((), ⟨last.val, length_lt_cons_of_le last⟩)
  | s =>
    match skipDigits s with
    | .error failure => .error failure
    | .ok (_, rest) =>
      match skipFraction rest.val with
      | .error failure => .error failure
      | .ok last => .ok ((), ⟨last.val, Nat.lt_of_le_of_lt last.property rest.property⟩)

def skipNumber : Reader Unit := fun s =>
  match s with
  | '-' :: rest => Taken.widen (length_le_cons _) (skipUnsigned rest)
  | s => skipUnsigned s

def skipKey : Reader Unit := Reader.afterBlanks fun s =>
  match s with
  | [] => .error (.upon (.ends .object) [])
  | '"' :: s =>
    match skipString s with
    | .error failure => .error failure
    | .ok (_, rest) =>
      Taken.widen (Nat.le_of_lt (Nat.lt_succ_of_lt rest.property)) (colon rest.val)
  | c :: rest => .error (.upon .keyExpected (c :: rest))

/-- An opened bracket. -/
inductive Bracket where
  | square
  | brace
  deriving DecidableEq, Repr

/-- What begins with the first characters of a document: a whole one without brackets or with
nothing between them, or an open bracket with its first item to come. -/
def skipOpening : Reader (Option Bracket) := Reader.afterBlanks fun s =>
  let scalar := Reader.map (fun _ => none)
  match s with
  | [] => .error (.upon (.ends .value) [])
  | 'n' :: rest => scalar (word "null") ('n' :: rest)
  | 't' :: rest => scalar (word "true") ('t' :: rest)
  | 'f' :: rest => scalar (word "false") ('f' :: rest)
  | '"' :: rest => Taken.widen (length_le_cons _) (scalar skipString rest)
  | '[' :: rest =>
    have trimmed := length_trimBlanks_le rest
    match h : trimBlanks rest with
    | [] => .error (.upon (.ends .array) [])
    | ']' :: rest =>
      .ok (none, ⟨rest, by rw [h] at trimmed; simp only [List.length_cons] at *; omega⟩)
    | _ => .ok (some .square, ⟨rest, length_lt_cons _⟩)
  | '\x7b' :: rest =>
    have trimmed := length_trimBlanks_le rest
    match h : trimBlanks rest with
    | [] => .error (.upon (.ends .object) [])
    | '\x7d' :: rest =>
      .ok (none, ⟨rest, by rw [h] at trimmed; simp only [List.length_cons] at *; omega⟩)
    | _ =>
      match skipKey rest with
      | .error failure => .error failure
      | .ok (_, rest') =>
        .ok (some .brace, ⟨rest'.val, Nat.lt_succ_of_lt rest'.property⟩)
  | c :: rest =>
    if c = '-' ∨ isDigit c then scalar skipNumber (c :: rest)
    else .error (.upon .valueExpected (c :: rest))

/-- What follows an item between brackets: `true` before a further item, `false` after the closing
bracket. -/
def skipClosing (bracket : Bracket) : Reader Bool := Reader.afterBlanks fun s =>
  match bracket, s with
  | .square, [] => .error (.upon (.ends .array) [])
  | .square, ']' :: rest => .ok (false, ⟨rest, length_lt_cons _⟩)
  | .square, ',' :: rest => .ok (true, ⟨rest, length_lt_cons _⟩)
  | .square, c :: rest => .error (.upon .commaOrBracketExpected (c :: rest))
  | .brace, [] => .error (.upon (.ends .object) [])
  | .brace, '\x7d' :: rest => .ok (false, ⟨rest, length_lt_cons _⟩)
  | .brace, ',' :: rest => Taken.widen (length_le_cons _) (Reader.map (fun _ => true) skipKey rest)
  | .brace, c :: rest => .error (.upon .commaOrBraceExpected (c :: rest))

/-- Goes on inside open brackets, innermost first, until all of them are closed; `isDue` tells
whether a document has to come next. -/
def skipThrough (isDue : Bool) (opened : List Bracket) (s : Text) :
    Except Failure { rest : Text // rest.length ≤ s.length } :=
  match isDue, opened with
  | true, opened =>
    match skipOpening s with
    | .error failure => .error failure
    | .ok (bracket, rest) =>
      match skipThrough bracket.isSome (bracket.toList ++ opened) rest.val with
      | .error failure => .error failure
      | .ok last => .ok ⟨last.val, Nat.le_of_lt (Nat.lt_of_le_of_lt last.property rest.property)⟩
  | false, [] => .ok ⟨s, length_le_self _⟩
  | false, bracket :: outer =>
    match skipClosing bracket s with
    | .error failure => .error failure
    | .ok (isDue, rest) =>
      match skipThrough isDue (if isDue then bracket :: outer else outer) rest.val with
      | .error failure => .error failure
      | .ok last => .ok ⟨last.val, Nat.le_of_lt (Nat.lt_of_le_of_lt last.property rest.property)⟩
termination_by s.length
decreasing_by
  · exact rest.property
  · exact rest.property

/-- Goes over a document. -/
def skipDocument : Reader Unit := fun s =>
  match skipOpening s with
  | .error failure => .error failure
  | .ok (bracket, rest) =>
    match skipThrough bracket.isSome bracket.toList rest.val with
    | .error failure => .error failure
    | .ok last => .ok ((), ⟨last.val, Nat.lt_of_le_of_lt last.property rest.property⟩)

end Intake.Json
