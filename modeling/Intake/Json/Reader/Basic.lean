import Intake.Json.Problem

/-!
Readers: each takes something from the front of a text and leaves strictly less of it, so that
reading again and again comes to an end. This module has what all of them share: blanks, fixed
words, and the reading of a text as a whole.
-/

set_option autoImplicit false
set_option relaxedAutoImplicit false

namespace Intake.Json

/-- What is left of a text when something has been taken from it. -/
abbrev Rest (s : Text) := { rest : Text // rest.length < s.length }

/-- A value taken from the front of a text and what is left, or why there is none. -/
abbrev Taken (s : Text) (α : Type) := Except Failure (α × Rest s)

/-- Takes a value from the front of a text, or says why it cannot. -/
abbrev Reader (α : Type) := (s : Text) → Taken s α

def isBlank (c : Char) : Bool := c == ' ' || c == '\n' || c == '\t' || c == '\r'

/-- A text without the blanks at its front. -/
def trimBlanks (s : Text) : Text := s.dropWhile isBlank

theorem length_trimBlanks_le (s : Text) : (trimBlanks s).length ≤ s.length :=
  (List.dropWhile_sublist isBlank).length_le

/-! ### How much is left -/

theorem length_le_self (s : Text) : s.length ≤ s.length := Nat.le_refl _

theorem length_le_cons (s : Text) : s.length ≤ s.length + 1 := Nat.le_succ _

theorem length_lt_cons (s : Text) : s.length < s.length + 1 := Nat.lt_succ_self _

theorem length_lt_cons_of_le {s : Text} (rest : { rest : Text // rest.length ≤ s.length }) :
    rest.val.length < s.length + 1 :=
  Nat.lt_succ_of_le rest.property

namespace Rest

/-- What is left of a shorter text is left of a longer one. -/
def widen {s t : Text} (h : s.length ≤ t.length) (rest : Rest s) : Rest t :=
  ⟨rest.val, Nat.lt_of_lt_of_le rest.property h⟩

end Rest

/-- What was taken from a shorter text was taken from a longer one. -/
def Taken.widen {s t : Text} {α : Type} (h : s.length ≤ t.length) : Taken s α → Taken t α
  | .ok (a, rest) => .ok (a, rest.widen h)
  | .error failure => .error failure

namespace Reader

variable {α β : Type}

/-- Reads after the blanks. -/
def afterBlanks (read : Reader α) : Reader α := fun s =>
  Taken.widen (length_trimBlanks_le s) (read (trimBlanks s))

/-- Turns what was read into something else, or refuses it. -/
def check (read : Reader α) (f : α → Except Problem β) : Reader β := fun s =>
  match read s with
  | .error failure => .error failure
  | .ok (a, rest) =>
    match f a with
    | .ok b => .ok (b, rest)
    | .error problem => .error (.before problem rest.val)

def map (f : α → β) (read : Reader α) : Reader β := fun s =>
  match read s with
  | .ok (a, rest) => .ok (f a, rest)
  | .error failure => .error failure

/-- Reads a whole text, of which only blanks may be left. -/
def whole (read : Reader α) (s : Text) : Except Failure α :=
  match read s with
  | .error failure => .error failure
  | .ok (a, rest) =>
    match trimBlanks rest.val with
    | [] => .ok a
    | more => .error (.upon .trailingCharacters more)

/-- The reader takes `a` from the front of `s` and leaves `rest`. -/
def Takes (read : Reader α) (s : Text) (a : α) (rest : Text) : Prop :=
  ∃ h : rest.length < s.length, read s = .ok (a, ⟨rest, h⟩)

theorem Takes.length_lt {read : Reader α} {s rest : Text} {a : α} (h : Takes read s a rest) :
    rest.length < s.length :=
  h.choose

theorem takes_widen_iff {s t rest : Text} {a : α} (h : s.length ≤ t.length) {x : Taken s α} :
    (∃ h' : rest.length < t.length, Taken.widen h x = .ok (a, ⟨rest, h'⟩)) ↔
      ∃ h' : rest.length < s.length, x = .ok (a, ⟨rest, h'⟩) := by
  constructor
  · rintro ⟨h', eq⟩
    match x, eq with
    | .ok (_, ⟨_, less⟩), eq =>
      simp only [Taken.widen, Rest.widen, Except.ok.injEq, Prod.mk.injEq, Subtype.mk.injEq] at eq
      obtain ⟨rfl, rfl⟩ := eq
      exact ⟨less, rfl⟩
  · rintro ⟨less, rfl⟩
    exact ⟨Nat.lt_of_lt_of_le less h, rfl⟩

theorem takes_afterBlanks_iff {read : Reader α} {s rest : Text} {a : α} :
    Takes (afterBlanks read) s a rest ↔ Takes read (trimBlanks s) a rest :=
  takes_widen_iff (length_trimBlanks_le s)

theorem takes_map_iff {f : α → β} {read : Reader α} {s rest : Text} {b : β} :
    Takes (map f read) s b rest ↔ ∃ a, Takes read s a rest ∧ f a = b := by
  constructor
  · rintro ⟨less, eq⟩
    simp only [map] at eq
    split at eq
    · rename_i a taken hs
      simp only [Except.ok.injEq, Prod.mk.injEq] at eq
      obtain ⟨rfl, rfl⟩ := eq
      exact ⟨a, ⟨less, hs⟩, rfl⟩
    · simp at eq
  · rintro ⟨a, ⟨less, hs⟩, rfl⟩
    exact ⟨less, by simp [map, hs]⟩

theorem takes_check_iff {f : α → Except Problem β} {read : Reader α} {s rest : Text} {b : β} :
    Takes (check read f) s b rest ↔ ∃ a, Takes read s a rest ∧ f a = .ok b := by
  constructor
  · rintro ⟨less, eq⟩
    simp only [check] at eq
    split at eq
    · simp at eq
    · rename_i a taken hs
      split at eq
      · rename_i b' hf
        simp only [Except.ok.injEq, Prod.mk.injEq] at eq
        obtain ⟨rfl, rfl⟩ := eq
        exact ⟨a, ⟨less, hs⟩, hf⟩
      · simp at eq
  · rintro ⟨a, ⟨less, hs⟩, hf⟩
    exact ⟨less, by simp [check, hs, hf]⟩

/-- A text is read as a whole when nothing but blanks is left of it. -/
theorem whole_eq_ok_iff {read : Reader α} {s : Text} {a : α} :
    whole read s = .ok a ↔ ∃ rest, Takes read s a rest ∧ trimBlanks rest = [] := by
  constructor
  · intro eq
    simp only [whole] at eq
    split at eq
    · simp at eq
    · rename_i a' taken hs
      split at eq
      · rename_i blank
        simp only [Except.ok.injEq] at eq
        subst eq
        exact ⟨taken.val, ⟨taken.property, hs⟩, blank⟩
      · simp at eq
  · rintro ⟨rest, ⟨_, hs⟩, blank⟩
    simp [whole, hs, blank]

end Reader

/-- Goes over a word that has to stand at the front of a text. -/
def expectWord : (word s : Text) → Except Failure { rest : Text // rest.length ≤ s.length }
  | [], s => .ok ⟨s, length_le_self s⟩
  | _ :: _, [] => .error (.before (.ends .value) [])
  | w :: word, c :: s =>
    if c = w then
      match expectWord word s with
      | .ok rest => .ok ⟨rest.val, Nat.le_succ_of_le rest.property⟩
      | .error failure => .error failure
    else .error (.upon .wordExpected (c :: s))

/-- Reads a word of which the first character is known to be there. -/
def word (w : String) : Reader Unit
  | [] => .error (.before (.ends .value) [])
  | _ :: s =>
    match expectWord (w.toList.drop 1) s with
    | .ok rest => .ok ((), ⟨rest.val, length_lt_cons_of_le rest⟩)
    | .error failure => .error failure

end Intake.Json
