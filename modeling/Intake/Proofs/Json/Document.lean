import Intake.Json.Reader.Document
import Mathlib

/-!
What a reader of documents takes, by the first character: one form for each kind of document.
-/

set_option autoImplicit false
set_option relaxedAutoImplicit false

namespace Intake.Json

open Reader

/-- Reads one item of an array. -/
def arrayItem (limit : Nat) (items : List Value) : Reader (List Value) :=
  Reader.map (fun v => v :: items) (document limit)

/-- Reads one member of an object. -/
def objectMember (limit : Nat) (members : Object) (key : String) :
    Except Problem (Reader Object) :=
  .ok (Reader.map (fun v => members.insert key v) (document limit))

/-- The forms of a document at the front of a text, with the document and what is left. -/
inductive DocumentForm : Nat → Text → Value → Text → Prop where
  | null {limit : Nat} {tail rest : Text} (h : Takes (word "null") ('n' :: tail) () rest) :
      DocumentForm limit ('n' :: tail) .null rest
  | true {limit : Nat} {tail rest : Text} (h : Takes (word "true") ('t' :: tail) () rest) :
      DocumentForm limit ('t' :: tail) (.bool Bool.true) rest
  | false {limit : Nat} {tail rest : Text} (h : Takes (word "false") ('f' :: tail) () rest) :
      DocumentForm limit ('f' :: tail) (.bool Bool.false) rest
  | string {limit : Nat} {tail rest : Text} {str : String} (h : Takes stringBody tail str rest) :
      DocumentForm limit ('"' :: tail) (.string str) rest
  | array {limit : Nat} {tail rest : Text} {items : List Value}
      (h : Takes (foldItems (arrayItem limit) [] Bool.true) tail items rest) :
      DocumentForm (limit + 1) ('[' :: tail) (.array items.reverse) rest
  | object {limit : Nat} {tail rest : Text} {members : Object}
      (h : Takes (foldMembers (objectMember limit) .empty Bool.true) tail members rest) :
      DocumentForm (limit + 1) ('\x7b' :: tail) (.object members) rest
  | number {limit : Nat} {c : Char} {tail rest : Text} {n : Number}
      (numeric : c = '-' ∨ isDigit c = Bool.true) (h : Takes number (c :: tail) n rest) :
      DocumentForm limit (c :: tail) (.number n) rest

theorem DocumentForm.of_takes {limit : Nat} {s rest : Text} {v : Value}
    (h : Takes (document limit) s v rest) : DocumentForm limit s v rest := by
  obtain ⟨less, eq⟩ := h
  rw [document.eq_def] at eq
  split at eq
  · cases eq
  · obtain ⟨_, h, rfl⟩ := takes_map_iff.1 ⟨less, eq⟩
    exact .null h
  · obtain ⟨_, h, rfl⟩ := takes_map_iff.1 ⟨less, eq⟩
    exact .true h
  · obtain ⟨_, h, rfl⟩ := takes_map_iff.1 ⟨less, eq⟩
    exact .false h
  · obtain ⟨_, h, rfl⟩ := takes_map_iff.1 ((takes_widen_iff _).1 ⟨less, eq⟩)
    exact .string h
  · split at eq
    · cases eq
    · obtain ⟨_, h, rfl⟩ := takes_map_iff.1 ((takes_widen_iff _).1 ⟨less, eq⟩)
      exact .array h
  · split at eq
    · cases eq
    · obtain ⟨_, h, rfl⟩ := takes_map_iff.1 ((takes_widen_iff _).1 ⟨less, eq⟩)
      exact .object h
  · split at eq
    · rename_i numeric
      obtain ⟨_, h, rfl⟩ := takes_map_iff.1 ⟨less, eq⟩
      exact .number numeric h
    · cases eq

private theorem takes_widen_cons {α : Type} {read : Reader α} {c : Char} {tail rest : Text} {a : α}
    (h : Takes read tail a rest) :
    ∃ less : rest.length < (c :: tail).length,
      Taken.widen (Nat.le_succ _) (read tail) = .ok (a, ⟨rest, less⟩) :=
  (takes_widen_iff (Nat.le_succ _)).2 h

/-- The characters that begin a document other than a number. -/
theorem ne_of_numeric {c : Char} (h : c = '-' ∨ isDigit c = true) :
    c ≠ 'n' ∧ c ≠ 't' ∧ c ≠ 'f' ∧ c ≠ '"' ∧ c ≠ '[' ∧ c ≠ '\x7b' := by
  refine ⟨?_, ?_, ?_, ?_, ?_, ?_⟩ <;> (rintro rfl; revert h; decide)

theorem DocumentForm.takes {limit : Nat} {s rest : Text} {v : Value}
    (form : DocumentForm limit s v rest) : Takes (document limit) s v rest := by
  cases form with
  | null h | true h | false h =>
    obtain ⟨less, eq⟩ := takes_map_iff.2 ⟨(), h, rfl⟩
    exact ⟨less, by rw [document.eq_def]; exact eq⟩
  | string h | array h | object h =>
    obtain ⟨less, eq⟩ := takes_widen_cons (takes_map_iff.2 ⟨_, h, rfl⟩)
    exact ⟨less, by rw [document.eq_def]; exact eq⟩
  | number numeric h =>
    obtain ⟨n, t, f, quote, bracket, brace⟩ := ne_of_numeric numeric
    obtain ⟨less, eq⟩ := takes_map_iff.2 ⟨_, h, rfl⟩
    refine ⟨less, ?_⟩
    rw [document.eq_10 _ _ _ n t f quote bracket brace, if_pos numeric]
    exact eq

theorem takes_document_iff {limit : Nat} {s rest : Text} {v : Value} :
    Takes (document limit) s v rest ↔ DocumentForm limit s v rest :=
  ⟨DocumentForm.of_takes, DocumentForm.takes⟩

end Intake.Json
