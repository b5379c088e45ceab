import Intake.Profile.Census
import Intake.Proofs.Json.Fields

/-!
Profiles read from texts, against profiles taken from documents. A text is refused where a document
would only be read with less in it: at a known name that is written twice, and at a known part of
the wrong type. What is read is the same.
-/

set_option autoImplicit false
set_option relaxedAutoImplicit false

namespace Intake.Profile

open Json Reader

/-- The values that documents have for the known parts. -/
def sights : fields.Sights :=
  (Codec.orNull Value.natural?, Codec.orNull Value.string?, Codec.orNull Value.string?,
    Codec.orNull Value.string?, Codec.orNull Value.string?, ())

theorem sighted_fields (limit : Nat) : fields.Sighted limit sights := by
  have id := Codec.views_optional (Codec.views_uint64 limit "u64") rfl
  have text := Codec.views_optional (Codec.views_string limit) rfl
  exact ⟨id, text, text, text, text, trivial⟩

theorem names_fields : fields.names = knownNames := rfl

/-- Takes a member whose value has been read. -/
def advance (draft : Draft) (e : String × Value) : Option Draft :=
  (advanceBoth (fun e => knownNames.contains e.1) (fields.put sights)
    (fun (extra : Object) e => some (extra.insert e.1 e.2)) (draft.known, draft.extra) e).map
      fun next => ⟨next.1, next.2⟩

private theorem takes_member_iff_of_known {draft next : Draft} {key : String} {s rest : Text}
    (h : key ∈ knownNames) :
    (∃ read, member draft key = .ok read ∧ Takes read s next rest) ↔
      ∃ known, (∃ read, fields.member? draft.known key = some (.ok read) ∧
        Takes read s known rest) ∧ ⟨known, draft.extra⟩ = next := by
  have present : fields.member? draft.known key ≠ none := by
    rw [ne_eq, Fields.member?_eq_none_iff, names_fields]
    exact not_not_intro h
  constructor
  · rintro ⟨read, hread, taken⟩
    unfold member at hread
    split at hread
    · rename_i inner hinner
      cases inner with
      | error problem => cases hread
      | ok inner =>
        cases hread
        obtain ⟨known, hknown, eq⟩ := takes_map_iff.1 taken
        exact ⟨known, ⟨inner, hinner, hknown⟩, eq⟩
    · exact absurd ‹_› present
  · rintro ⟨known, ⟨inner, hinner, hknown⟩, eq⟩
    refine ⟨Reader.map (fun known => ⟨known, draft.extra⟩) inner, ?_,
      takes_map_iff.2 ⟨known, hknown, eq⟩⟩
    rw [member, hinner]
    rfl

private theorem takes_member_iff_of_unknown {draft next : Draft} {key : String} {s rest : Text}
    (h : key ∉ knownNames) :
    (∃ read, member draft key = .ok read ∧ Takes read s next rest) ↔
      ∃ v, Takes (document (nestingLimit - 1)) s v rest ∧
        ⟨draft.known, draft.extra.insert key v⟩ = next := by
  have absent : fields.member? draft.known key = none := by
    rw [Fields.member?_eq_none_iff, names_fields]
    exact h
  have read : member draft key =
      .ok (Reader.map (fun v => { draft with extra := draft.extra.insert key v })
        (document (nestingLimit - 1))) := by
    rw [member, absent]
  rw [read]
  simp only [Except.ok.injEq, exists_eq_left', takes_map_iff]

theorem followsValues_member : FollowsValues (nestingLimit - 1) member advance := by
  intro draft key s next rest
  by_cases h : key ∈ knownNames
  · rw [takes_member_iff_of_known h]
    simp only [Fields.takes_member?_iff fields (sighted_fields (nestingLimit - 1)) draft.known key s
      rest]
    constructor
    · rintro ⟨known, ⟨v, hv, change⟩, eq⟩
      exact ⟨v, hv, by simp [advance, advanceBoth, h, change, eq]⟩
    · rintro ⟨v, hv, change⟩
      simp only [advance, advanceBoth, List.contains_eq_mem, h, decide_true, if_true,
        Option.map_map, Option.map_eq_some_iff] at change
      obtain ⟨known, change, eq⟩ := change
      exact ⟨known, ⟨v, hv, change⟩, eq⟩
  · rw [takes_member_iff_of_unknown h]
    simp [advance, advanceBoth, h]

private theorem foldlM_advance_eq (entries : List (String × Value)) (draft : Draft) :
    entries.foldlM advance draft =
      (entries.foldlM (advanceBoth (fun e => knownNames.contains e.1) (fields.put sights)
        fun (extra : Object) e => some (extra.insert e.1 e.2)) (draft.known, draft.extra)).map
          fun next => ⟨next.1, next.2⟩ := by
  induction entries generalizing draft with
  | nil => rfl
  | cons e entries ih =>
    rw [List.foldlM_cons, List.foldlM_cons, advance]
    cases next : advanceBoth (fun e => knownNames.contains e.1) (fields.put sights)
      (fun (extra : Object) e => some (extra.insert e.1 e.2)) (draft.known, draft.extra) e with
    | none => rfl
    | some both => exact ih ⟨both.1, both.2⟩

theorem foldlM_advance_iff (entries : List (String × Value)) (draft : Draft) :
    entries.foldlM advance ⟨fields.blank, .empty⟩ = some draft ↔
      fields.Filled sights entries draft.known ∧
        Keyed.ofEntries (entries.filter fun e => !knownNames.contains e.1) = draft.extra := by
  have distinct : fields.names.Nodup := by
    rw [names_fields]
    decide
  have filled := Fields.foldlM_put_own_iff distinct sights entries draft.known
  have kept (others : List (String × Value)) :
      others.foldlM (fun (extra : Object) e => some (extra.insert e.1 e.2)) .empty =
        some (Keyed.ofEntries others) :=
    List.foldlM_pure
  obtain ⟨knownParts, extra⟩ := draft
  have both := foldlM_advanceBoth_iff (fun e : String × Value => knownNames.contains e.1)
    (fields.put sights) (fun (extra : Object) e => some (extra.insert e.1 e.2)) entries
    fields.blank .empty knownParts extra
  rw [kept, Option.some.injEq, ← names_fields, filled, names_fields] at both
  rw [foldlM_advance_eq, ← both, Option.map_eq_some_iff]
  constructor
  · rintro ⟨⟨a, b⟩, run, eq⟩
    cases eq
    exact run
  · intro run
    exact ⟨_, run, rfl⟩

/-- A document that a known part may be read from: `null`, or one of its type. -/
def Suits (name : String) (v : Value) : Prop :=
  v = .null ∨ if name = "id" then ∃ n, v = .number (.natural n) else ∃ s, v = .string s

private theorem isSome_natural?_iff (v : Value) :
    v.natural?.isSome ↔ ∃ n, v = .number (.natural n) := by
  cases v with
  | number n => cases n <;> simp [Value.natural?, Number.natural?]
  | _ => simp [Value.natural?]

private theorem isSome_string?_iff (v : Value) : v.string?.isSome ↔ ∃ s, v = .string s := by
  cases v <;> simp [Value.string?]

private theorem forall_knownNames_iff {p : String → Prop} :
    (∀ name ∈ knownNames, p name) ↔ p "id" ∧ p "name" ∧ p "email" ∧ p "role" ∧ p "status" := by
  simp [knownNames]

/-- The known parts are filled when each name is written once at most, with a suitable document. -/
theorem filled_fields_iff (entries : List (String × Value)) (id : Option (Option UInt64))
    (name email role status : Option (Option String)) :
    fields.Filled sights entries (id, name, email, role, status, ()) ↔
      (∀ name ∈ knownNames, (valuesOf name entries).length ≤ 1) ∧
        (∀ name ∈ knownNames, ∀ v ∈ (Keyed.ofEntries entries).get? name, Suits name v) ∧
        id = ((Keyed.ofEntries entries).get? "id").map Value.natural? ∧
        name = ((Keyed.ofEntries entries).get? "name").map Value.string? ∧
        email = ((Keyed.ofEntries entries).get? "email").map Value.string? ∧
        role = ((Keyed.ofEntries entries).get? "role").map Value.string? ∧
        status = ((Keyed.ofEntries entries).get? "status").map Value.string? := by
  have text (key : String) (slot : Option (Option String)) :=
    Fields.holds_orNull_iff Value.string? rfl (valuesOf key entries) slot
  have number := Fields.holds_orNull_iff Value.natural? rfl (valuesOf "id" entries) id
  simp only [getLast?_valuesOf, isSome_string?_iff] at text
  simp only [getLast?_valuesOf, isSome_natural?_iff] at number
  have holds : fields.Filled sights entries (id, name, email, role, status, ()) ↔
      Fields.Holds (Codec.orNull Value.natural?) (valuesOf "id" entries) id ∧
        Fields.Holds (Codec.orNull Value.string?) (valuesOf "name" entries) name ∧
        Fields.Holds (Codec.orNull Value.string?) (valuesOf "email" entries) email ∧
        Fields.Holds (Codec.orNull Value.string?) (valuesOf "role" entries) role ∧
        Fields.Holds (Codec.orNull Value.string?) (valuesOf "status" entries) status ∧ True :=
    Iff.rfl
  rw [holds, number, text, text, text, text, forall_knownNames_iff, forall_knownNames_iff]
  simp only [Suits, String.reduceEq, if_true, if_false]
  tauto

theorem ofDraft_eq (id : Option (Option UInt64)) (name email role status : Option (Option String))
    (extra : Object) :
    ofDraft ⟨(id, name, email, role, status, ()), extra⟩ =
      .ok ⟨id.getD none, name.getD none, email.getD none, role.getD none, status.getD none,
        extra⟩ := by
  cases id <;> cases name <;> cases email <;> cases role <;> cases status <;> rfl

/-- What the members of an object become when each is taken in turn. -/
theorem ofDraft_of_foldlM_iff (entries : List (String × Value)) (profile : Profile) :
    (∃ draft, entries.foldlM advance ⟨fields.blank, .empty⟩ = some draft ∧
        ofDraft draft = .ok profile) ↔
      (∀ name ∈ knownNames, (valuesOf name entries).length ≤ 1) ∧
        (∀ name ∈ knownNames, ∀ v ∈ (Keyed.ofEntries entries).get? name, Suits name v) ∧
        profile = ofObject (Keyed.ofEntries entries) := by
  have profile_eq : ofDraft ⟨(((Keyed.ofEntries entries).get? "id").map Value.natural?,
      ((Keyed.ofEntries entries).get? "name").map Value.string?,
      ((Keyed.ofEntries entries).get? "email").map Value.string?,
      ((Keyed.ofEntries entries).get? "role").map Value.string?,
      ((Keyed.ofEntries entries).get? "status").map Value.string?, ()),
      Keyed.ofEntries (entries.filter fun e => !knownNames.contains e.1)⟩ =
        .ok (ofObject (Keyed.ofEntries entries)) := by
    have rest := Keyed.filter_ofEntries entries fun name => !knownNames.contains name
    have known {α : Type} (v : Option Value) (view : Value → Option α) :
        (v.map view).getD none = v.bind view := by
      cases v <;> rfl
    rw [ofDraft_eq, ofObject, rest]
    simp only [known]
  simp only [foldlM_advance_iff]
  constructor
  · rintro ⟨⟨⟨id, name, email, role, status, _⟩, extra⟩, ⟨filled, kept⟩, eq⟩
    obtain ⟨once, suits, rfl, rfl, rfl, rfl, rfl⟩ :=
      (filled_fields_iff entries id name email role status).1 filled
    cases kept
    exact ⟨once, suits, (Except.ok.inj (profile_eq.symm.trans eq)).symm⟩
  · rintro ⟨once, suits, rfl⟩
    exact ⟨_, ⟨(filled_fields_iff entries _ _ _ _ _).2 ⟨once, suits, rfl, rfl, rfl, rfl, rfl⟩, rfl⟩,
      profile_eq⟩

private theorem decode_eq (text : String) :
    codec.decode text = whole (afterBlanks (braced "struct UserRecord"
      (check (foldMembers member ⟨fields.blank, .empty⟩ true) ofDraft))) text.toList := by
  rfl

theorem decode_eq_ok_iff_written {text : String} {profile : Profile} :
    codec.decode text = .ok profile ↔ ∃ written, Value.written text = .ok written ∧
      (∀ name ∈ knownNames, (valuesOf name written).length ≤ 1) ∧
      (∀ name ∈ knownNames, ∀ v ∈ (Keyed.ofEntries written).get? name, Suits name v) ∧
      profile = ofObject (Keyed.ofEntries written) := by
  simp only [decode_eq, whole_braced_foldMembers_iff followsValues_member, ofDraft_of_foldlM_iff]

private theorem parse_of_decode {text : String} {profile : Profile}
    (h : codec.decode text = .ok profile) :
    ∃ members, Value.parse text = .ok (.object members) ∧ profile = ofObject members := by
  obtain ⟨written, hwritten, _, _, eq⟩ := decode_eq_ok_iff_written.1 h
  exact ⟨_, parse_eq_ok_object_iff.2 ⟨written, hwritten, rfl⟩, eq⟩

private theorem parse_texts_of_decode {texts : List String} {batch : List Profile}
    (h : texts.mapM codec.decode = .ok batch) :
    ∃ values, texts.mapM Value.parse = .ok values ∧ batch = values.map ofValue := by
  induction texts generalizing batch with
  | nil =>
    cases h
    exact ⟨[], rfl, rfl⟩
  | cons text texts ih =>
    rw [List.mapM_cons] at h
    cases first : codec.decode text with
    | error failure =>
      rw [first] at h
      cases h
    | ok profile =>
      cases later : texts.mapM codec.decode with
      | error failure =>
        rw [first, later] at h
        cases h
      | ok profiles =>
        rw [first, later] at h
        cases h
        obtain ⟨members, hmembers, rfl⟩ := parse_of_decode first
        obtain ⟨values, hvalues, rfl⟩ := ih later
        refine ⟨.object members :: values, ?_, rfl⟩
        rw [List.mapM_cons, hmembers, hvalues]
        rfl

private theorem get?_extra_ofObject {written : List (String × Value)} {key : String}
    (h : key ∉ knownNames) :
    (ofObject (Keyed.ofEntries written)).extra.get? key = (valuesOf key written).getLast? := by
  have rest := Keyed.filter_ofEntries written fun name => !knownNames.contains name
  rw [ofObject, rest, ← getLast?_valuesOf, valuesOf_filter]
  rintro e rfl
  simpa using h

/-- A text is read as a profile exactly when it holds an object that writes no known name twice and
a suitable document for each known name it writes. Then the profile is that of the object, with the
last document of every other name, and so batches of texts count as batches of documents do. -/
theorem decode_agrees_with_ofValue :
    (∀ text profile, codec.decode text = .ok profile ↔
      ∃ (members : Object) (written : List (String × Value)),
        Value.parse text = .ok (.object members) ∧ Value.written text = .ok written ∧
        (∀ name ∈ knownNames, (valuesOf name written).length ≤ 1) ∧
        (∀ name ∈ knownNames, ∀ v ∈ members.get? name, Suits name v) ∧
        profile = ofValue (.object members)) ∧
    (∀ text members, Value.parse text = .ok (.object members) ↔
      ∃ written, Value.written text = .ok written ∧ Keyed.ofEntries written = members) ∧
    (∀ text profile written, codec.decode text = .ok profile → Value.written text = .ok written →
      ∀ key, key ∉ knownNames → profile.extra.get? key = (valuesOf key written).getLast?) ∧
    (∀ (texts : List String) (batch : List Profile), texts.mapM codec.decode = .ok batch →
      ∃ values, texts.mapM Value.parse = .ok values ∧
        ∀ meter : Meter, meter.process batch = meter.processValues values) := by
  refine ⟨?_, fun text members => parse_eq_ok_object_iff, ?_, ?_⟩
  · intro text profile
    rw [decode_eq_ok_iff_written]
    constructor
    · rintro ⟨written, hwritten, once, suits, eq⟩
      exact ⟨_, written, parse_eq_ok_object_iff.2 ⟨written, hwritten, rfl⟩, hwritten, once, suits,
        eq⟩
    · rintro ⟨members, written, hmembers, hwritten, once, suits, eq⟩
      obtain ⟨same, hsame, rfl⟩ := parse_eq_ok_object_iff.1 hmembers
      cases hsame.symm.trans hwritten
      exact ⟨written, hwritten, once, suits, eq⟩
  · intro text profile written hprofile hwritten key unknown
    obtain ⟨same, hsame, _, _, rfl⟩ := decode_eq_ok_iff_written.1 hprofile
    cases hsame.symm.trans hwritten
    exact get?_extra_ofObject unknown
  · intro texts batch h
    obtain ⟨values, hvalues, rfl⟩ := parse_texts_of_decode h
    exact ⟨values, hvalues, fun _ => rfl⟩

/-- Of an unknown name that is written twice the last document is kept. -/
theorem decode_agrees_with_ofValue_repeated_name :
    ∃ profile, codec.decode "\x7b\"id\":1,\"x\":1,\"name\":null,\"x\":[2]\x7d" = .ok profile ∧
      profile.extra.get? "x" = some (.array [.number (.natural 2)]) := by
  have decoded : codec.decode "\x7b\"id\":1,\"x\":1,\"name\":null,\"x\":[2]\x7d" =
      .ok { id := some 1, extra := .ofEntries [("x", .array [.number (.natural 2)])] } := by cbv
  have written : Value.written "\x7b\"id\":1,\"x\":1,\"name\":null,\"x\":[2]\x7d" =
      .ok [("id", .number (.natural 1)), ("x", .number (.natural 1)), ("name", .null),
        ("x", .array [.number (.natural 2)])] := by cbv
  refine ⟨_, decoded, ?_⟩
  rw [decode_agrees_with_ofValue.2.2.1 _ _ _ decoded written "x" (by decide)]
  rfl

end Intake.Profile
