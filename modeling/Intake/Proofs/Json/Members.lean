import Intake.Proofs.Json.Document
import Intake.Proofs.Keyed

/-!
The members of an object as a text writes them, repeated keys and all. A reader of members that
treats each value as a document does what its changes of state say, taken over these members.
-/

set_option autoImplicit false
set_option relaxedAutoImplicit false

namespace Intake.Json

open Reader

variable {σ : Type} {limit : Nat}

/-- A key, a colon and a document. -/
def TakesEntry (limit : Nat) (s : Text) (e : String × Value) (rest : Text) : Prop :=
  ∃ more after, Takes stringBody s e.1 more ∧ Takes colon more () after ∧
    Takes (afterBlanks (document limit)) after e.2 rest

/-- The members of an object up to its closing brace, in the order of writing. -/
inductive Members (limit : Nat) : Bool → Text → List (String × Value) → Text → Prop where
  | closed {isFirst : Bool} {s : Text} {rest : Rest s}
      (h : nextKey isFirst s = .ok (.closed rest)) : Members limit isFirst s [] rest.val
  | member {isFirst : Bool} {s more rest : Text} {start : { rest : Text // rest.length ≤ s.length }}
      {e : String × Value} {entries : List (String × Value)}
      (next : nextKey isFirst s = .ok (.item start)) (entry : TakesEntry limit start.val e more)
      (others : Members limit false more entries rest) :
      Members limit isFirst s (e :: entries) rest

/-- A reader of a member takes what a reader of any document takes, if the change of state for its
key and that document says so. -/
def FollowsValues (limit : Nat) (member : σ → String → Except Problem (Reader σ))
    (advance : σ → String × Value → Option σ) : Prop :=
  ∀ state key s next rest,
    (∃ read, member state key = .ok read ∧ Takes read s next rest) ↔
      ∃ v, Takes (document limit) s v rest ∧ advance state (key, v) = some next

section Follows

variable {member : σ → String → Except Problem (Reader σ)}
  {advance : σ → String × Value → Option σ} (follows : FollowsValues limit member advance)

include follows

theorem takes_readMember_iff_entry {state next : σ} {s rest : Text} :
    Takes (readMember member state) s next rest ↔
      ∃ e, TakesEntry limit s e rest ∧ advance state e = some next := by
  rw [takes_readMember_iff]
  constructor
  · rintro ⟨key, more, after, read, hkey, hmember, hcolon, hread⟩
    have value := takes_afterBlanks_iff.1 hread
    obtain ⟨v, hv, change⟩ := (follows state key _ next rest).1 ⟨read, hmember, value⟩
    exact ⟨(key, v), ⟨more, after, hkey, hcolon, takes_afterBlanks_iff.2 hv⟩, change⟩
  · rintro ⟨⟨key, v⟩, ⟨more, after, hkey, hcolon, hv⟩, change⟩
    have value := takes_afterBlanks_iff.1 hv
    obtain ⟨read, hmember, hread⟩ := (follows state key _ next rest).2 ⟨v, value, change⟩
    exact ⟨key, more, after, read, hkey, hmember, hcolon, takes_afterBlanks_iff.2 hread⟩

private theorem members_of_takes {state last : σ} {isFirst : Bool} {s rest : Text}
    (h : Takes (foldMembers member state isFirst) s last rest) :
    ∃ entries, Members limit isFirst s entries rest ∧ entries.foldlM advance state = some last := by
  induction size : s.length using Nat.strong_induction_on generalizing s state isFirst with
  | _ n ih =>
    rcases takes_foldMembers_iff.1 h with ⟨closed, hclosed, rfl, rfl⟩ |
      ⟨start, next, more, hnext, hentry, hrest⟩
    · exact ⟨[], .closed hclosed, rfl⟩
    · obtain ⟨e, entry, change⟩ := (takes_readMember_iff_entry follows).1 hentry
      have shorter : more.length < n :=
        size ▸ Nat.lt_of_lt_of_le hentry.length_lt start.property
      obtain ⟨entries, others, run⟩ := ih more.length shorter hrest rfl
      refine ⟨e :: entries, .member hnext entry others, ?_⟩
      rw [List.foldlM_cons, change]
      exact run

private theorem takes_of_members {isFirst : Bool} {s rest : Text} {entries : List (String × Value)}
    (h : Members limit isFirst s entries rest) {state last : σ}
    (run : entries.foldlM advance state = some last) :
    Takes (foldMembers member state isFirst) s last rest := by
  induction h generalizing state with
  | closed hclosed =>
    cases run
    exact takes_foldMembers_iff.2 (Or.inl ⟨_, hclosed, rfl, rfl⟩)
  | member hnext entry _ ih =>
    rw [List.foldlM_cons] at run
    obtain ⟨next, change, run⟩ := Option.bind_eq_some_iff.1 run
    have hentry := (takes_readMember_iff_entry follows).2 ⟨_, entry, change⟩
    exact takes_foldMembers_iff.2 (Or.inr ⟨_, next, _, hnext, hentry, ih run⟩)

/-- Reading members is taking the changes of state over the members that are written. -/
theorem takes_foldMembers_iff_members {state last : σ} {isFirst : Bool} {s rest : Text} :
    Takes (foldMembers member state isFirst) s last rest ↔
      ∃ entries, Members limit isFirst s entries rest ∧
        entries.foldlM advance state = some last :=
  ⟨members_of_takes follows, fun ⟨_, h, run⟩ => takes_of_members follows h run⟩

end Follows

/-- A reader that keeps every document follows the values, and refuses none. -/
theorem followsValues_map {member : σ → String → Except Problem (Reader σ)}
    {f : σ → String × Value → σ}
    (h : ∀ state key,
      member state key = .ok (Reader.map (fun v => f state (key, v)) (document limit))) :
    FollowsValues limit member fun state e => some (f state e) := by
  intro state key s next rest
  constructor
  · rintro ⟨read, hread, taken⟩
    cases (h state key).symm.trans hread
    obtain ⟨v, hv, rfl⟩ := takes_map_iff.1 taken
    exact ⟨v, hv, rfl⟩
  · rintro ⟨v, hv, change⟩
    exact ⟨_, h state key, takes_map_iff.2 ⟨v, hv, Option.some.inj change⟩⟩

theorem takes_objectMembers_iff {members : Object} {s rest : Text} :
    Takes (foldMembers (objectMember limit) .empty true) s members rest ↔
      ∃ entries, Members limit true s entries rest ∧ Keyed.ofEntries entries = members := by
  have follows : FollowsValues limit (objectMember limit) fun m e => some (m.insert e.1 e.2) :=
    followsValues_map fun _ _ => rfl
  have run (entries : List (String × Value)) :
      entries.foldlM (fun (m : Object) e => some (m.insert e.1 e.2)) .empty =
        some (Keyed.ofEntries entries) :=
    List.foldlM_pure
  simp only [takes_foldMembers_iff_members follows, run, Option.some.injEq]

/-- Adds one member to those that were read before. -/
def appendMember (limit : Nat) (entries : List (String × Value)) (key : String) :
    Except Problem (Reader (List (String × Value))) :=
  .ok (Reader.map (fun v => entries ++ [(key, v)]) (document limit))

theorem takes_appendMembers_iff {entries : List (String × Value)} {s rest : Text} :
    Takes (foldMembers (appendMember limit) [] true) s entries rest ↔
      Members limit true s entries rest := by
  have follows : FollowsValues limit (appendMember limit) fun entries e => some (entries ++ [e]) :=
    followsValues_map fun _ _ => rfl
  have run (before entries : List (String × Value)) :
      entries.foldlM (fun entries e => some (entries ++ [e])) before =
        some (before ++ entries) := by
    induction entries generalizing before with
    | nil => simp
    | cons e entries ih => simpa using ih (before ++ [e])
  simp only [takes_foldMembers_iff_members follows, run, List.nil_append, Option.some.injEq,
    exists_eq_right]

/-- The values that are written for a name. -/
def valuesOf (name : String) (entries : List (String × Value)) : List Value :=
  (entries.filter fun e => e.1 = name).map Prod.snd

theorem getLast?_valuesOf (name : String) (entries : List (String × Value)) :
    (valuesOf name entries).getLast? = (Keyed.ofEntries entries).get? name := by
  rw [Keyed.get?_ofEntries, valuesOf, List.getLast?_map]

/-- Of the entries of a map a key has one value at most. -/
theorem valuesOf_entries (name : String) (members : Object) :
    valuesOf name members.entries = (members.get? name).toList := by
  rw [valuesOf, Keyed.filter_entries_key]
  cases members.get? name <;> rfl

theorem valuesOf_filter {name : String} {keep : String × Value → Bool}
    (h : ∀ e : String × Value, e.1 = name → keep e = true) (entries : List (String × Value)) :
    valuesOf name (entries.filter keep) = valuesOf name entries := by
  rw [valuesOf, List.filter_filter, valuesOf]
  congr 1
  apply List.filter_congr
  intro e _
  by_cases eq : e.1 = name
  · simp [eq, h e eq]
  · simp [eq]

/-! ### Objects as whole texts -/

/-- Reads what stands after an opening brace. -/
def braced {α : Type} (wanted : String) (read : Reader α) : Reader α := fun s =>
  match s with
  | '\x7b' :: rest => Taken.widen (length_le_cons _) (read rest)
  | s => .error (refusal wanted s)

/-- An opening brace and what a reader takes after it, with only blanks around. -/
def TakesBraced {α : Type} (read : Reader α) (s : Text) (a : α) : Prop :=
  ∃ tail rest, trimBlanks s = '\x7b' :: tail ∧ Takes read tail a rest ∧ trimBlanks rest = []

theorem takes_braced_iff {α : Type} {wanted : String} {read : Reader α} {s rest : Text} {a : α} :
    Takes (braced wanted read) s a rest ↔ ∃ tail, s = '\x7b' :: tail ∧ Takes read tail a rest := by
  constructor
  · rintro ⟨less, eq⟩
    unfold braced at eq
    split at eq
    · rename_i tail
      exact ⟨tail, rfl, (takes_widen_iff _).1 ⟨less, eq⟩⟩
    · cases eq
  · rintro ⟨tail, rfl, h⟩
    exact (takes_widen_iff (Nat.le_succ _)).2 h

theorem whole_braced_eq_ok_iff {α : Type} {wanted : String} {read : Reader α} {s : Text} {a : α} :
    whole (afterBlanks (braced wanted read)) s = .ok a ↔ TakesBraced read s a := by
  simp only [whole_eq_ok_iff, takes_afterBlanks_iff, takes_braced_iff, TakesBraced]
  constructor
  · rintro ⟨rest, ⟨tail, eq, h⟩, blank⟩
    exact ⟨tail, rest, eq, h, blank⟩
  · rintro ⟨tail, rest, eq, h, blank⟩
    exact ⟨rest, ⟨tail, eq, h⟩, blank⟩

/-- The members of the object that a text holds, in the order of writing. -/
def Value.written (s : String) : Except Failure (List (String × Value)) :=
  whole (afterBlanks (braced "a map" (foldMembers (appendMember (nestingLimit - 1)) [] true)))
    s.toList

/-- Reading an object member by member is taking the changes of state over what is written. -/
theorem whole_braced_foldMembers_iff {ρ : Type} {member : σ → String → Except Problem (Reader σ)}
    {advance : σ → String × Value → Option σ}
    (follows : FollowsValues (nestingLimit - 1) member advance) {wanted s : String} {start : σ}
    {f : σ → Except Problem ρ} {a : ρ} :
    whole (afterBlanks (braced wanted (check (foldMembers member start true) f))) s.toList = .ok a ↔
      ∃ entries, Value.written s = .ok entries ∧
        ∃ last, entries.foldlM advance start = some last ∧ f last = .ok a := by
  simp only [Value.written, whole_braced_eq_ok_iff, TakesBraced, takes_check_iff,
    takes_foldMembers_iff_members follows, takes_appendMembers_iff]
  constructor
  · rintro ⟨tail, rest, eq, ⟨last, ⟨entries, h, run⟩, value⟩, blank⟩
    exact ⟨entries, ⟨tail, rest, eq, h, blank⟩, last, run, value⟩
  · rintro ⟨entries, ⟨tail, rest, eq, h, blank⟩, last, run, value⟩
    exact ⟨tail, rest, eq, ⟨last, ⟨entries, h, run⟩, value⟩, blank⟩

/-- The object that a text holds has the members that are written; of a repeated key the last. -/
theorem parse_eq_ok_object_iff {s : String} {members : Object} :
    Value.parse s = .ok (.object members) ↔
      ∃ entries, Value.written s = .ok entries ∧ Keyed.ofEntries entries = members := by
  have read {rest : Text} :
      Takes (document nestingLimit) (trimBlanks s.toList) (.object members) rest ↔
        ∃ tail, trimBlanks s.toList = '\x7b' :: tail ∧
          Takes (foldMembers (objectMember (nestingLimit - 1)) .empty true) tail members rest := by
    rw [takes_document_iff]
    constructor
    · intro form
      generalize trimBlanks s.toList = text at form
      cases form with
      | object h => exact ⟨_, rfl, h⟩
    · rintro ⟨tail, eq, h⟩
      rw [eq]
      exact .object h
  rw [Value.parse, whole_eq_ok_iff]
  simp only [takes_afterBlanks_iff, read, Value.written, whole_braced_eq_ok_iff, TakesBraced,
    takes_objectMembers_iff, takes_appendMembers_iff]
  constructor
  · rintro ⟨rest, ⟨tail, eq, entries, h, rfl⟩, blank⟩
    exact ⟨entries, ⟨tail, rest, eq, h, blank⟩, rfl⟩
  · rintro ⟨entries, ⟨tail, rest, eq, h, blank⟩, rfl⟩
    exact ⟨rest, ⟨tail, eq, entries, h, rfl⟩, blank⟩

end Intake.Json
