import Intake.Json.Reader.Quote

/-!
Reading what stands between brackets: the items of an array and the members of an object, one after
the other, with a state that each of them may change. Commas stand between items and nowhere else.
-/

set_option autoImplicit false
set_option relaxedAutoImplicit false

namespace Intake.Json

/-- Where reading goes on between brackets: at a further item, or after the closing bracket. -/
inductive Onward (s : Text) where
  | item (rest : { rest : Text // rest.length ≤ s.length })
  | closed (rest : Rest s)

/-- Looks for the next item of an array, before which a comma stands unless it is the first. -/
def nextItem (isFirst : Bool) (s : Text) : Except Failure (Onward s) :=
  have trimmed := length_trimBlanks_le s
  match h : trimBlanks s with
  | [] => .error (.upon (.ends .array) [])
  | ']' :: rest =>
    .ok (.closed ⟨rest, by rw [h] at trimmed; exact trimmed⟩)
  | c :: rest =>
    if isFirst then .ok (.item ⟨c :: rest, by rw [h] at trimmed; exact trimmed⟩)
    else if c = ',' then
      have shorter := length_trimBlanks_le rest
      match h' : trimBlanks rest with
      | [] => .error (.upon (.ends .value) [])
      | ']' :: rest => .error (.upon .trailingComma (']' :: rest))
      | d :: rest =>
        .ok (.item ⟨d :: rest, by
          rw [h] at trimmed; rw [h'] at shorter; simp only [List.length_cons] at *; omega⟩)
    else .error (.upon .commaOrBracketExpected (c :: rest))

/-- Looks for the next key of an object and its opening quote, before which a comma stands unless
it is the first. What follows is the inside of the key. -/
def nextKey (isFirst : Bool) (s : Text) : Except Failure (Onward s) :=
  have trimmed := length_trimBlanks_le s
  match h : trimBlanks s with
  | [] => .error (.upon (.ends .object) [])
  | '\x7d' :: rest =>
    .ok (.closed ⟨rest, by rw [h] at trimmed; exact trimmed⟩)
  | c :: rest =>
    if isFirst then
      if c = '"' then
        .ok (.item ⟨rest, by rw [h] at trimmed; simp only [List.length_cons] at trimmed; omega⟩)
      else .error (.upon .keyExpected (c :: rest))
    else if c = ',' then
      have shorter := length_trimBlanks_le rest
      match h' : trimBlanks rest with
      | [] => .error (.upon (.ends .value) [])
      | '"' :: rest =>
        .ok (.item ⟨rest, by
          rw [h] at trimmed; rw [h'] at shorter; simp only [List.length_cons] at *; omega⟩)
      | '\x7d' :: rest => .error (.upon .trailingComma ('\x7d' :: rest))
      | d :: rest => .error (.upon .keyExpected (d :: rest))
    else .error (.upon .commaOrBraceExpected (c :: rest))

def colon : Reader Unit := Reader.afterBlanks fun s =>
  match s with
  | [] => .error (.upon (.ends .object) [])
  | ':' :: rest => .ok ((), ⟨rest, length_lt_cons rest⟩)
  | c :: rest => .error (.upon .colonExpected (c :: rest))

variable {σ : Type}

/-- Reads the items of an array up to its closing bracket. -/
def foldItems (item : σ → Reader σ) (state : σ) (isFirst : Bool) (s : Text) : Taken s σ :=
  match nextItem isFirst s with
  | .error failure => .error failure
  | .ok (.closed rest) => .ok (state, rest)
  | .ok (.item start) =>
    match item state start.val with
    | .error failure => .error failure
    | .ok (state, rest) =>
      have shorter : rest.val.length < s.length := Nat.lt_of_lt_of_le rest.property start.property
      Taken.widen (Nat.le_of_lt shorter) (foldItems item state false rest.val)
termination_by s.length

theorem takes_foldItems_iff {item : σ → Reader σ} {state last : σ} {isFirst : Bool}
    {s rest : Text} :
    Reader.Takes (foldItems item state isFirst) s last rest ↔
      (∃ closed, nextItem isFirst s = .ok (.closed closed) ∧ closed.val = rest ∧ state = last) ∨
        ∃ start next more, nextItem isFirst s = .ok (.item start) ∧
          Reader.Takes (item state) start.val next more ∧
          Reader.Takes (foldItems item next false) more last rest := by
  constructor
  · rintro ⟨less, eq⟩
    rw [foldItems] at eq
    split at eq
    · simp at eq
    · rename_i closed hs
      simp only [Except.ok.injEq, Prod.mk.injEq] at eq
      obtain ⟨rfl, rfl⟩ := eq
      exact .inl ⟨_, hs, rfl, rfl⟩
    · rename_i start hs
      split at eq
      · simp at eq
      · rename_i next more hi
        exact .inr ⟨start, next, more.val, hs, ⟨more.property, hi⟩,
          (Reader.takes_widen_iff _).1 ⟨less, eq⟩⟩
  · rintro (⟨closed, hs, rfl, rfl⟩ | ⟨start, next, more, hs, ⟨less, hi⟩, h⟩)
    · exact ⟨closed.property, by rw [foldItems, hs]⟩
    · have shorter : more.length ≤ s.length :=
        Nat.le_of_lt (Nat.lt_of_lt_of_le less start.property)
      obtain ⟨h', eq⟩ := (Reader.takes_widen_iff shorter).2 h
      exact ⟨h', by rw [foldItems]; simp only [hs, hi]; exact eq⟩

/-- Reads one member of an object from the inside of its key: the key is looked at before the
colon is, and decides how the value is read. -/
def readMember (member : σ → String → Except Problem (Reader σ)) (state : σ) : Reader σ := fun s =>
  match stringBody s with
  | .error failure => .error failure
  | .ok (key, rest) =>
    match member state key with
    | .error problem => .error (.before problem rest.val)
    | .ok read =>
      match colon rest.val with
      | .error failure => .error failure
      | .ok ((), rest') =>
        Taken.widen (Nat.le_of_lt (Nat.lt_trans rest'.property rest.property))
          (Reader.afterBlanks read rest'.val)

theorem takes_readMember_iff {member : σ → String → Except Problem (Reader σ)} {state next : σ}
    {s rest : Text} :
    Reader.Takes (readMember member state) s next rest ↔
      ∃ key more after read, Reader.Takes stringBody s key more ∧
        member state key = .ok read ∧ Reader.Takes colon more () after ∧
          Reader.Takes (Reader.afterBlanks read) after next rest := by
  constructor
  · rintro ⟨less, eq⟩
    simp only [readMember] at eq
    split at eq
    · simp at eq
    · rename_i key more hk
      split at eq
      · simp at eq
      · rename_i read hm
        split at eq
        · simp at eq
        · rename_i after hc
          exact ⟨key, more.val, after.val, read, ⟨more.property, hk⟩, hm, ⟨after.property, hc⟩,
            (Reader.takes_widen_iff _).1 ⟨less, eq⟩⟩
  · rintro ⟨key, more, after, read, ⟨hmore, hk⟩, hm, ⟨hafter, hc⟩, h⟩
    obtain ⟨h', eq⟩ := (Reader.takes_widen_iff (Nat.le_of_lt (Nat.lt_trans hafter hmore))).2 h
    exact ⟨h', by simp only [readMember, hk, hm, hc]; exact eq⟩

/-- Reads the members of an object up to its closing brace. -/
def foldMembers (member : σ → String → Except Problem (Reader σ)) (state : σ) (isFirst : Bool)
    (s : Text) : Taken s σ :=
  match nextKey isFirst s with
  | .error failure => .error failure
  | .ok (.closed rest) => .ok (state, rest)
  | .ok (.item start) =>
    match readMember member state start.val with
    | .error failure => .error failure
    | .ok (state, rest) =>
      have shorter : rest.val.length < s.length := Nat.lt_of_lt_of_le rest.property start.property
      Taken.widen (Nat.le_of_lt shorter) (foldMembers member state false rest.val)
termination_by s.length

theorem takes_foldMembers_iff {member : σ → String → Except Problem (Reader σ)} {state last : σ}
    {isFirst : Bool} {s rest : Text} :
    Reader.Takes (foldMembers member state isFirst) s last rest ↔
      (∃ closed, nextKey isFirst s = .ok (.closed closed) ∧ closed.val = rest ∧ state = last) ∨
        ∃ start next more, nextKey isFirst s = .ok (.item start) ∧
          Reader.Takes (readMember member state) start.val next more ∧
          Reader.Takes (foldMembers member next false) more last rest := by
  constructor
  · rintro ⟨less, eq⟩
    rw [foldMembers] at eq
    split at eq
    · simp at eq
    · rename_i closed hs
      simp only [Except.ok.injEq, Prod.mk.injEq] at eq
      obtain ⟨rfl, rfl⟩ := eq
      exact .inl ⟨_, hs, rfl, rfl⟩
    · rename_i start hs
      split at eq
      · simp at eq
      · rename_i next more hi
        exact .inr ⟨start, next, more.val, hs, ⟨more.property, hi⟩,
          (Reader.takes_widen_iff _).1 ⟨less, eq⟩⟩
  · rintro (⟨closed, hs, rfl, rfl⟩ | ⟨start, next, more, hs, ⟨less, hi⟩, h⟩)
    · exact ⟨closed.property, by rw [foldMembers, hs]⟩
    · have shorter : more.length ≤ s.length :=
        Nat.le_of_lt (Nat.lt_of_lt_of_le less start.property)
      obtain ⟨h', eq⟩ := (Reader.takes_widen_iff shorter).2 h
      exact ⟨h', by rw [foldMembers]; simp only [hs, hi]; exact eq⟩

end Intake.Json
