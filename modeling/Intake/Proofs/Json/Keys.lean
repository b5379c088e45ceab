import Intake.Json.Codec.Choice
import Intake.Proofs.Json.Fields

/-!
Maps with named keys by the members that a text writes. Each member must be an entry, that is, have
the name of a key and a document that has a value; of the entries with one key the last counts.
-/

set_option autoImplicit false
set_option relaxedAutoImplicit false

namespace Intake.Json.Codec

open Reader

variable {α β : Type} {limit : Nat}

/-- The entry that a member stands for. -/
def entryOf? (keys : Choice α) (view : Value → Option β) (e : String × Value) : Option (α × β) :=
  (keys.find? e.1).bind fun key => (view e.2).map (Prod.mk key)

theorem entryOf?_eq_some_iff {keys : Choice α} {view : Value → Option β} {e : String × Value}
    {key : α} {b : β} :
    entryOf? keys view e = some (key, b) ↔ keys.find? e.1 = some key ∧ view e.2 = some b := by
  simp [entryOf?, Option.bind_eq_some_iff, Option.map_eq_some_iff]

theorem name_of_find? {keys : Choice α} {name : String} {key : α}
    (h : keys.find? name = some key) : keys.name key = name := by
  simpa using List.find?_some h

section Keyed

variable [DecidableEq α]

/-- The entries of a key have the values that are written for its name. -/
theorem map_view_valuesOf {keys : Choice α} {view : Value → Option β}
    (distinct : Function.Injective keys.name) {members : List (String × Value)}
    {entries : List (α × β)} (h : members.mapM (entryOf? keys view) = some entries) (key : α) :
    (valuesOf (keys.name key) members).map view =
      (entries.filter fun e => e.1 = key).map fun e => some e.2 := by
  induction members generalizing entries with
  | nil =>
    cases h
    rfl
  | cons e members ih =>
    rw [List.mapM_cons] at h
    obtain ⟨⟨k, b⟩, first, h⟩ := Option.bind_eq_some_iff.1 h
    obtain ⟨others, rest, h⟩ := Option.bind_eq_some_iff.1 h
    cases h
    obtain ⟨found, value⟩ := entryOf?_eq_some_iff.1 first
    have name : keys.name k = e.1 := name_of_find? found
    have later := ih rest
    rw [valuesOf, List.map_map] at later ⊢
    by_cases own : k = key
    · have same : e.1 = keys.name key := by rw [← name, own]
      simp [own, same, value, later]
    · have other : e.1 ≠ keys.name key := fun eq => own (distinct (name.trans eq))
      simp [own, other, later]

variable [LT α] [DecidableLT α] [LE α] [Std.LawfulOrderLT α] [Std.IsLinearOrder α]

/-- A map with named keys has the last value that is written for each name. -/
theorem map_view_getLast?_valuesOf {keys : Choice α} {view : Value → Option β}
    (distinct : Function.Injective keys.name) {members : List (String × Value)}
    {entries : List (α × β)} (h : members.mapM (entryOf? keys view) = some entries) (key : α) :
    (valuesOf (keys.name key) members).getLast?.map view =
      ((Keyed.ofEntries entries).get? key).map some := by
  rw [← List.getLast?_map, map_view_valuesOf distinct h, List.getLast?_map, Keyed.get?_ofEntries,
    Option.map_map]
  rfl

/-- Takes the value of a named key into a map. -/
def keyMember (keys : Choice α) (values : Codec β) (m : Keyed α β) (name : String) :
    Except Problem (Reader (Keyed α β)) :=
  match keys.select name with
  | .ok key => .ok (Reader.map (fun b => m.insert key b) values.read)
  | .error problem => .error problem

theorem followsValues_keyMember (keys : Choice α) {values : Codec β} {view : Value → Option β}
    (views : Views limit values.read view) :
    FollowsValues limit (keyMember keys values) fun (m : Keyed α β) e =>
      (entryOf? keys view e).map fun entry => m.insert entry.1 entry.2 := by
  intro m name s next rest
  cases found : keys.find? name with
  | none => simp [keyMember, Choice.select, entryOf?, found]
  | some key =>
    have member : keyMember keys values m name =
        .ok (Reader.map (fun b => m.insert key b) values.read) := by
      simp [keyMember, Choice.select, found]
    simp only [member, Except.ok.injEq, exists_eq_left', takes_map_iff, views _ _ _, entryOf?,
      found, Option.bind_some, Option.map_map, Option.map_eq_some_iff, Function.comp_apply]
    constructor
    · rintro ⟨b, ⟨v, hv, value⟩, eq⟩
      exact ⟨v, hv, b, value, eq⟩
    · rintro ⟨v, hv, b, value, eq⟩
      exact ⟨b, ⟨v, hv, value⟩, eq⟩

private theorem foldlM_insert_eq (keys : Choice α) (view : Value → Option β)
    (members : List (String × Value)) (m : Keyed α β) :
    members.foldlM (fun (m : Keyed α β) e =>
        (entryOf? keys view e).map fun entry => m.insert entry.1 entry.2) m =
      (members.mapM (entryOf? keys view)).map fun entries =>
        entries.foldl (fun m entry => m.insert entry.1 entry.2) m := by
  induction members generalizing m with
  | nil => rfl
  | cons e members ih =>
    rw [List.foldlM_cons, List.mapM_cons]
    cases entryOf? keys view e with
    | none => rfl
    | some entry =>
      have later := ih (m.insert entry.1 entry.2)
      cases h : members.mapM (entryOf? keys view) with
      | none => simpa [h] using later
      | some entries => simpa [h] using later

/-- The map that a text holds is that of the entries it writes. -/
theorem decode_keyed_iff (keys : Choice α) {values : Codec β} {view : Value → Option β}
    (views : Views (nestingLimit - 1) values.read view) {s : String} {m : Keyed α β} :
    (keyed keys values).decode s = .ok m ↔
      ∃ members entries, Value.written s = .ok members ∧
        members.mapM (entryOf? keys view) = some entries ∧ Keyed.ofEntries entries = m := by
  have read : (keyed keys values).read =
      braced "a map" (foldMembers (keyMember keys values) .empty true) := by
    funext s
    rw [braced.eq_def]
    rfl
  have follows := followsValues_keyMember keys views
  rw [decode, read, whole_braced_eq_ok_iff]
  simp only [Value.written, whole_braced_eq_ok_iff, TakesBraced, takes_appendMembers_iff,
    takes_foldMembers_iff_members follows, foldlM_insert_eq, Option.map_eq_some_iff]
  constructor
  · rintro ⟨tail, rest, eq, ⟨members, h, entries, known, rfl⟩, blank⟩
    exact ⟨members, entries, ⟨tail, rest, eq, h, blank⟩, known, rfl⟩
  · rintro ⟨members, entries, ⟨tail, rest, eq, h, blank⟩, known, rfl⟩
    exact ⟨tail, rest, eq, ⟨members, h, entries, known, rfl⟩, blank⟩

end Keyed

end Intake.Json.Codec
