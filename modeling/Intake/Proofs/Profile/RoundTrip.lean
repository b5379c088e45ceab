import Intake.Proofs.Json.RoundTrip
import Intake.Proofs.Profile.Strict

/-!
Profiles written as texts. The profile of a document is read back from its text, and the text holds
the document again, without the known parts that have the wrong type.
-/

set_option autoImplicit false
set_option relaxedAutoImplicit false

namespace Intake.Profile

open Json Reader

/-- A known name with a document of another type than its part has. -/
def isMistyped (name : String) (v : Value) : Bool :=
  if name = "id" then v.natural?.isNone else knownNames.contains name && v.string?.isNone

/-- A known part as a document. -/
def part? (p : Profile) : (name : String) → Option Value
  | "id" => p.id.map fun n => .number (.natural n)
  | "name" => p.name.map .string
  | "email" => p.email.map .string
  | "role" => p.role.map .string
  | "status" => p.status.map .string
  | _ => none

/-- The members of a profile as documents, in the order of writing. -/
def members (p : Profile) : List (String × Value) :=
  (knownNames.filterMap fun name => (p.part? name).map (Prod.mk name)) ++ p.extra.entries

theorem entries_eq (p : Profile) : p.entries = Value.memberTexts p.members := by
  obtain ⟨id, name, email, role, status, extra⟩ := p
  simp only [entries, members, Value.memberChars_eq, Value.memberTexts, List.map_append]
  cases id <;> cases name <;> cases email <;> cases role <;> cases status <;> rfl

private theorem valuesOf_filterMap {names : List String} (distinct : names.Nodup)
    (f : String → Option Value) (key : String) :
    valuesOf key (names.filterMap fun name => (f name).map (Prod.mk name)) =
      if key ∈ names then (f key).toList else [] := by
  induction names with
  | nil => rfl
  | cons name names ih =>
    obtain ⟨fresh, distinct⟩ := List.nodup_cons.1 distinct
    have later := ih distinct
    by_cases eq : name = key
    · subst eq
      rw [if_neg fresh] at later
      cases h : f name with
      | none => simpa [List.filterMap_cons, h] using later
      | some v => simpa [List.filterMap_cons, h, valuesOf] using later
    · cases h : f name <;> simpa [List.filterMap_cons, h, valuesOf, eq, Ne.symm eq] using later

theorem valuesOf_members (p : Profile) (key : String) :
    valuesOf key p.members =
      (if key ∈ knownNames then (p.part? key).toList else []) ++ (p.extra.get? key).toList := by
  have known := valuesOf_filterMap (by decide : knownNames.Nodup) p.part? key
  rw [members, valuesOf, List.filter_append, List.map_append, ← valuesOf_entries]
  exact congrArg (· ++ valuesOf key p.extra.entries) known

private theorem bind_natural? (v : Option Value) :
    ((v.bind Value.natural?).map fun n => Value.number (.natural n)) =
      v.filter fun v => !v.natural?.isNone := by
  cases v with
  | none => rfl
  | some v =>
    cases v with
    | number n => cases n <;> rfl
    | _ => rfl

private theorem bind_string? (v : Option Value) :
    (v.bind Value.string?).map Value.string = v.filter fun v => !v.string?.isNone := by
  cases v with
  | none => rfl
  | some v => cases v <;> rfl

private theorem part?_ofObject (object : Object) {name : String} (h : name ∈ knownNames) :
    (ofObject object).part? name = (object.get? name).filter fun v => !isMistyped name v := by
  simp only [knownNames, List.mem_cons, List.not_mem_nil, or_false] at h
  rcases h with rfl | rfl | rfl | rfl | rfl
  · exact bind_natural? _
  all_goals exact bind_string? _

private theorem isMistyped_eq_false {name : String} (h : name ∉ knownNames) (v : Value) :
    isMistyped name v = false := by
  have other : name ≠ "id" := by
    rintro rfl
    exact h (by decide)
  simp [isMistyped, other, h]

/-- What is written of the profile of an object: its members, without the mistyped ones. -/
theorem valuesOf_members_ofObject (object : Object) (key : String) :
    valuesOf key (ofObject object).members =
      ((object.filter fun e => !isMistyped e.1 e.2).get? key).toList := by
  have extra : (ofObject object).extra.get? key =
      (object.get? key).filter fun _ => !knownNames.contains key := Keyed.get?_filter _ _ key
  rw [valuesOf_members, Keyed.get?_filter, extra]
  by_cases h : key ∈ knownNames
  · rw [if_pos h, part?_ofObject object h]
    simp [h]
  · simp [h, isMistyped_eq_false h]

theorem ofEntries_members_ofObject (object : Object) :
    Keyed.ofEntries (ofObject object).members = object.filter fun e => !isMistyped e.1 e.2 := by
  -- The known parts are written first, out of order; by key there is no difference.
  refine Keyed.ext fun key => ?_
  rw [← getLast?_valuesOf, valuesOf_members_ofObject]
  cases (object.filter fun e => !isMistyped e.1 e.2).get? key <;> rfl

private theorem bind_filter {β : Type} (v : Option Value) (view : Value → Option β) :
    (v.filter fun v => !(view v).isNone).bind view = v.bind view := by
  cases v with
  | none => rfl
  | some v => cases h : view v <;> simp [Option.filter, h]

/-- A mistyped part is unknown, whether it is there or not. -/
theorem ofObject_filter_isMistyped (object : Object) :
    ofObject (object.filter fun e => !isMistyped e.1 e.2) = ofObject object := by
  have id : ((object.filter fun e => !isMistyped e.1 e.2).get? "id").bind Value.natural? =
      (object.get? "id").bind Value.natural? := by
    rw [Keyed.get?_filter]
    exact bind_filter _ Value.natural?
  have text {name : String} (h : name ∈ knownNames) (other : name ≠ "id") :
      ((object.filter fun e => !isMistyped e.1 e.2).get? name).bind Value.string? =
        (object.get? name).bind Value.string? := by
    rw [Keyed.get?_filter]
    simp only [isMistyped, other, if_false, List.contains_eq_mem, h, decide_true, Bool.true_and]
    exact bind_filter _ Value.string?
  have extra : (object.filter fun e => !isMistyped e.1 e.2).filter
      (fun e => !knownNames.contains e.1) = object.filter fun e => !knownNames.contains e.1 := by
    refine Keyed.ext fun key => ?_
    rw [Keyed.get?_filter, Keyed.get?_filter, Keyed.get?_filter, Option.filter_filter]
    by_cases h : key ∈ knownNames
    · simp [h]
    · simp [h, isMistyped_eq_false h]
  simp only [ofObject, id, extra, text (by decide : "name" ∈ knownNames) (by decide),
    text (by decide : "email" ∈ knownNames) (by decide),
    text (by decide : "role" ∈ knownNames) (by decide),
    text (by decide : "status" ∈ knownNames) (by decide)]

/-- A document that is not mistyped suits the part of its name. -/
private theorem suits_of_not_isMistyped {name : String} (h : name ∈ knownNames) {v : Value}
    (typed : isMistyped name v = false) : Suits name v := by
  refine .inr ?_
  by_cases isId : name = "id"
  · cases v with
    | number n => cases n <;> simp_all [isMistyped, Value.natural?, Number.natural?]
    | _ => simp_all [isMistyped, Value.natural?]
  · cases v <;> simp_all [isMistyped, Value.string?]

private theorem mem_valuesOf {key : String} {v : Value} {entries : List (String × Value)} :
    v ∈ valuesOf key entries ↔ (key, v) ∈ entries := by
  simp [valuesOf]

section Object

variable {object : Object}

private theorem mem_of_mem_members {e : String × Value} (h : e ∈ (ofObject object).members) :
    e ∈ object.entries := by
  have value := mem_valuesOf.2 h
  rw [valuesOf_members_ofObject, Option.mem_toList, Keyed.get?_filter] at value
  exact Keyed.mem_entries_iff.2 (Option.filter_eq_some_iff.1 value).1

theorem length_valuesOf_members_le (key : String) :
    (valuesOf key (ofObject object).members).length ≤ 1 := by
  rw [valuesOf_members_ofObject]
  exact Option.length_toList_le

private theorem suits_members {name : String} (h : name ∈ knownNames) :
    ∀ v ∈ (Keyed.ofEntries (ofObject object).members).get? name, Suits name v := by
  intro v hv
  rw [ofEntries_members_ofObject, Keyed.get?_filter, Option.mem_def,
    Option.filter_eq_some_iff] at hv
  exact suits_of_not_isMistyped h (by simpa using hv.2)

variable (back : ∀ e ∈ object.entries, ReadsBack (document (nestingLimit - 1)) e.2.chars e.2)

include back

/-- The text of the profile of an object writes the members of the profile. -/
theorem written_encode_ofObject :
    Value.written (codec.encode (ofObject object)) = .ok (ofObject object).members := by
  have text : codec.encode (ofObject object) =
      String.ofList (objectText (Value.memberTexts (ofObject object).members)) := by
    rw [← entries_eq]
    rfl
  rw [text]
  exact Value.written_objectText fun e he => back e (mem_of_mem_members he)

theorem decode_encode_ofObject :
    codec.decode (codec.encode (ofObject object)) = .ok (ofObject object) := by
  refine decode_eq_ok_iff_written.2 ⟨_, written_encode_ofObject back,
    fun name _ => length_valuesOf_members_le name, fun name h => suits_members h, ?_⟩
  rw [ofEntries_members_ofObject, ofObject_filter_isMistyped]

theorem parse_encode_ofObject :
    Value.parse (codec.encode (ofObject object)) =
      .ok (.object (object.filter fun e => !isMistyped e.1 e.2)) :=
  parse_eq_ok_object_iff.2 ⟨_, written_encode_ofObject back, ofEntries_members_ofObject object⟩

end Object

private theorem ofValue_eq (v : Value) : ofValue v = ofObject (v.object?.getD .empty) := by
  cases v <;> rfl

/-- The profile of a document without binary numbers is read back from its text, in which each name
is written once. The text holds the document that was given, but for known parts of the wrong type;
nothing is left of what is no object. -/
theorem ofValue_round_trip (v : Value) (deep : v.depth ≤ nestingLimit) (whole : v.Whole) :
    codec.decode (codec.encode (ofValue v)) = .ok (ofValue v) ∧
      (∃ w, Value.parse (codec.encode (ofValue v)) = .ok w ∧ ofValue w = ofValue v ∧
        ∀ members, v = .object members →
          w = .object (members.filter fun e => !isMistyped e.1 e.2)) ∧
      (∃ written, Value.written (codec.encode (ofValue v)) = .ok written ∧
        ∀ key, (valuesOf key written).length ≤ 1) ∧
      ((∀ members, v ≠ .object members) → codec.encode (ofValue v) = "\x7b\x7d") := by
  have back : ∀ e ∈ (v.object?.getD .empty).entries,
      ReadsBack (document (nestingLimit - 1)) e.2.chars e.2 := by
    cases v with
    | object members => exact Value.readsBack_of_mem deep whole
    | _ => exact nofun
  rw [ofValue_eq]
  refine ⟨decode_encode_ofObject back,
    ⟨_, parse_encode_ofObject back, ofObject_filter_isMistyped _, ?_⟩,
    ⟨_, written_encode_ofObject back, length_valuesOf_members_le⟩, ?_⟩
  · rintro members rfl
    rfl
  · intro noObject
    have empty : v.object?.getD .empty = .empty := by
      cases v with
      | object members => exact absurd rfl (noObject members)
      | _ => rfl
    rw [empty]
    rfl

/-- An array inside, a quote and a line end in strings, the least whole number, and a number that is
no text. -/
theorem ofValue_round_trip_mistyped_name :
    let v : Value := .object (.ofEntries [("id", .number (.natural 7)),
      ("name", .number (.natural 1)),
      ("tags", .array [.string "\"\n", .number (.negative ⟨2 ^ 63 - 1, by decide⟩)])])
    ∃ w, Value.parse (codec.encode (ofValue v)) = .ok w ∧
      w = .object (.ofEntries [("id", .number (.natural 7)),
        ("tags", .array [.string "\"\n", .number (.negative ⟨2 ^ 63 - 1, by decide⟩)])]) := by
  intro v
  obtain ⟨_, ⟨w, parsed, _, same⟩, _⟩ := ofValue_round_trip v (by decide) (by decide)
  exact ⟨w, parsed, same _ rfl⟩

end Intake.Profile
