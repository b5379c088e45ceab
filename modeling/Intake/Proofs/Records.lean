import Intake.Directory.Remote
import Intake.Profile.Census
import Intake.Proofs.Json.Lawful
import Intake.Proofs.Log.Tally
import Intake.Settings

/-!
The records of the library in texts: each is read back from what is written of it. For settings the
tolerant reader agrees, and passes nothing over.
-/

set_option autoImplicit false
set_option relaxedAutoImplicit false

namespace Intake

open Json

theorem Directory.User.lawful_codec : Directory.User.codec.Lawful :=
  Record.lawful
    ⟨Codec.lawful_uint64 _, by decide, Codec.lawful_string, by decide, Codec.lawful_string,
      by decide, trivial⟩
    fun _ => rfl

theorem Profile.Census.lawful_codec : Profile.Census.codec.Lawful :=
  Record.lawful
    ⟨Codec.lawful_uint64 _, by decide, Codec.lawful_uint64 _, by decide, Codec.lawful_uint64 _,
      by decide, Codec.lawful_uint64 _, by decide, trivial⟩
    fun _ => rfl

theorem Directory.Access.lawful_codec : Directory.Access.codec.Lawful :=
  Record.lawful
    ⟨Codec.lawful_string, by decide, Codec.lawful_string, by decide, Codec.lawful_uint64 _,
      by decide, trivial⟩
    fun _ => rfl

theorem Format.lawful_codec : Format.codec.Lawful := by
  refine Codec.lawful_choice fun format => ?_
  cases format <;> decide

theorem Settings.lawful_codec : Settings.codec.Lawful :=
  Record.lawful
    ⟨Codec.lawful_uint32, by decide, Codec.lawful_uint64 _, by decide,
      Codec.lawful_list Format.lawful_codec, by decide, trivial⟩
    fun _ => rfl

theorem Log.Tally.lawful_codec : Log.Tally.codec.Lawful := by
  refine Codec.lawful_keyed (fun level => ?_) (Codec.lawful_uint64 _)
  cases level <;> decide

namespace Settings

/-- Settings as the members of a document, in the order of writing. -/
def members (s : Settings) : List (String × Value) :=
  [("max_retries", .number (.natural s.maxRetries.toUInt64)),
    ("default_timeout", .number (.natural s.timeout)),
    ("supported_formats", .array (s.formats.map fun format => .string format.name))]

theorem encode_eq (s : Settings) :
    codec.encode s = String.ofList (objectText (Value.memberTexts s.members)) := by
  have formats : (Codec.list Format.codec).write s.formats =
      (Value.array (s.formats.map fun format => .string format.name)).chars := by
    rw [Value.chars, Value.itemChars_eq, List.map_map]
    rfl
  have retries : Codec.uint32.write s.maxRetries = (Number.natural s.maxRetries.toUInt64).text := by
    rw [Number.text, UInt32.toNat_toUInt64]
    rfl
  have fields : codec.encode s = String.ofList (objectText
      [("max_retries", Codec.uint32.write s.maxRetries),
        ("default_timeout", (Number.natural s.timeout).text),
        ("supported_formats", (Codec.list Format.codec).write s.formats)]) := rfl
  rw [fields, retries, formats]
  rfl

theorem written_encode (s : Settings) : Value.written (codec.encode s) = .ok s.members := by
  rw [encode_eq]
  refine Value.written_objectText fun e he => ?_
  simp only [members, List.mem_cons, List.not_mem_nil, or_false] at he
  rcases he with rfl | rfl | rfl
  · exact readsBack_natural _ s.maxRetries.toUInt64
  · exact readsBack_natural _ s.timeout
  · refine readsBack_array fun v hv => ?_
    obtain ⟨format, _, rfl⟩ := List.mem_map.1 hv
    exact readsBack_string _ format.name

theorem readFormats_names (formats : List Format) :
    readFormats (formats.map fun format => .string format.name) = ⟨formats, []⟩ := by
  induction formats with
  | nil => rfl
  | cons format formats ih =>
    have named : Format.ofName? format.name.toList = some format := by
      cases format <;> decide
    simp [readFormats, named, ih]

/-- What is written of settings is read tolerantly without loss. -/
theorem ofObject_members (s : Settings) : ofObject (Keyed.ofEntries s.members) = ⟨s, []⟩ := by
  have retries : (Keyed.ofEntries s.members).get? "max_retries" =
      some (.number (.natural s.maxRetries.toUInt64)) := by
    simp [Keyed.get?_ofEntries, members]
  have timeout : (Keyed.ofEntries s.members).get? "default_timeout" =
      some (.number (.natural s.timeout)) := by
    simp [Keyed.get?_ofEntries, members]
  have formats : (Keyed.ofEntries s.members).get? "supported_formats" =
      some (.array (s.formats.map fun format => .string format.name)) := by
    simp [Keyed.get?_ofEntries, members]
  have inRange : retries? s.maxRetries.toUInt64 = some s.maxRetries := by
    simp [retries?, s.maxRetries.toNat_lt]
  simp [ofObject, retries, timeout, formats, inRange, Value.natural?, Number.natural?,
    Value.array?, readFormats_names]

end Settings

/-- Users, counts of profiles, settings, the access to a service and tallies are read back as they
were written, settings also by the tolerant reader and without a warning. -/
theorem decode_encode_records :
    (∀ user : Directory.User, Directory.User.codec.decode (Directory.User.codec.encode user) =
      .ok user) ∧
    (∀ census : Profile.Census,
      Profile.Census.codec.decode (Profile.Census.codec.encode census) = .ok census) ∧
    (∀ settings : Settings,
      Settings.codec.decode (Settings.codec.encode settings) = .ok settings ∧
        ∃ config : Object, Value.parse (Settings.codec.encode settings) = .ok (.object config) ∧
          Settings.ofObject config = ⟨settings, []⟩) ∧
    (∀ access : Directory.Access,
      Directory.Access.codec.decode (Directory.Access.codec.encode access) = .ok access) ∧
    (∀ tally : Log.Tally,
      Log.Tally.codec.decode (Log.Tally.codec.encode tally) = .ok tally) := by
  refine ⟨fun user => (Directory.User.lawful_codec user).decode_encode,
    fun census => (Profile.Census.lawful_codec census).decode_encode, fun settings => ⟨?_, ?_⟩,
    fun access => (Directory.Access.lawful_codec access).decode_encode,
    fun tally => (Log.Tally.lawful_codec tally).decode_encode⟩
  · exact (Settings.lawful_codec settings).decode_encode
  · exact ⟨_, parse_eq_ok_object_iff.2 ⟨_, settings.written_encode, rfl⟩,
      settings.ofObject_members⟩

/-- A tally with the largest count and with a count of zero. -/
theorem decode_encode_records_tally :
    let tally : Log.Tally := .ofEntries [(.fatal, 0), (.error, 0xFFFFFFFFFFFFFFFF)]
    tally.entries = [(.error, 0xFFFFFFFFFFFFFFFF), (.fatal, 0)] ∧
      Log.Tally.codec.decode (Log.Tally.codec.encode tally) = .ok tally :=
  ⟨by decide, decode_encode_records.2.2.2.2 _⟩

end Intake
