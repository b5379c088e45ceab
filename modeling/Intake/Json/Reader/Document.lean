import Intake.Json.Reader.Bracket
import Intake.Json.Reader.Numeral

/-!
Reading a document of any form. Brackets stand inside each other up to a limit, which is also what
the recursion goes down on.
-/

set_option autoImplicit false
set_option relaxedAutoImplicit false

namespace Intake.Json

/-- How deep the arrays and objects of a text may stand inside each other. -/
def nestingLimit : Nat := 127

/-- Reads a document whose brackets stand inside each other at most `limit` deep. -/
def document (limit : Nat) : Reader Value := fun s =>
  match s with
  | [] => .error (.upon (.ends .value) [])
  | 'n' :: rest => Reader.map (fun _ => Value.null) (word "null") ('n' :: rest)
  | 't' :: rest => Reader.map (fun _ => Value.bool true) (word "true") ('t' :: rest)
  | 'f' :: rest => Reader.map (fun _ => Value.bool false) (word "false") ('f' :: rest)
  | '"' :: rest => Taken.widen (length_le_cons _) (Reader.map .string stringBody rest)
  | '[' :: rest =>
    match limit with
    | 0 => .error (.upon .tooDeep ('[' :: rest))
    | limit + 1 =>
      let item (items : List Value) : Reader (List Value) :=
        Reader.map (fun v => v :: items) (document limit)
      Taken.widen (length_le_cons _)
        (Reader.map (fun items => Value.array items.reverse) (foldItems item [] true) rest)
  | '\x7b' :: rest =>
    match limit with
    | 0 => .error (.upon .tooDeep ('\x7b' :: rest))
    | limit + 1 =>
      let member (members : Object) (key : String) : Except Problem (Reader Object) :=
        .ok (Reader.map (fun v => members.insert key v) (document limit))
      Taken.widen (length_le_cons _)
        (Reader.map Value.object (foldMembers member .empty true) rest)
  | c :: rest =>
    if c = '-' ∨ isDigit c then Reader.map .number number (c :: rest)
    else .error (.upon .valueExpected (c :: rest))

def Value.parse (s : String) : Except Failure Value :=
  Reader.whole (Reader.afterBlanks (document nestingLimit)) s.toList

/-- Why a value of another kind than wanted is refused. What stands there is read first, as far as
its kind and wording need it, and may itself be at fault. -/
def refusal (wanted : String) (s : Text) : Failure :=
  let wrongKind {t : Text} (found : Found) (rest : Rest t) : Failure :=
    .before (.wrongKind found wanted) rest.val
  match s with
  | [] => .upon (.ends .value) []
  | 'n' :: _ =>
    match word "null" s with
    | .ok (_, rest) => wrongKind .null rest
    | .error failure => failure
  | 't' :: _ =>
    match word "true" s with
    | .ok (_, rest) => wrongKind (.bool true) rest
    | .error failure => failure
  | 'f' :: _ =>
    match word "false" s with
    | .ok (_, rest) => wrongKind (.bool false) rest
    | .error failure => failure
  | '"' :: s =>
    match stringBody s with
    | .ok (found, rest) => wrongKind (.string found) rest
    | .error failure => failure
  | '[' :: _ => .before (.wrongKind .sequence wanted) s
  | '\x7b' :: _ => .before (.wrongKind .map wanted) s
  | c :: rest =>
    if c = '-' ∨ isDigit c then
      match number (c :: rest) with
      | .ok (found, rest) => wrongKind (.number found) rest
      | .error failure => failure
    else .upon .valueExpected (c :: rest)

end Intake.Json
