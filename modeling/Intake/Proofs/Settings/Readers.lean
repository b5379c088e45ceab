import Intake.Proofs.Json.Agreement
import Intake.Proofs.Json.Keys
import Intake.Settings

/-!
Settings read from a text, against settings taken from the document of the same text. Where the
text is accepted both ways they are equal, but for formats that are written as the key of an object,
which only the reader of texts takes for formats.
-/

set_option autoImplicit false
set_option relaxedAutoImplicit false

namespace Intake.Settings

open Json Reader

/-- A format in the list of a text: its name, or an object with its name for the only key and
`null` for the value. -/
inductive FormatEntry where
  | named (format : Format)
  | keyed (format : Format)
  deriving DecidableEq, Repr

namespace FormatEntry

def format : FormatEntry → Format
  | named format => format
  | keyed format => format

def written : FormatEntry → Value
  | named format => .string format.name
  | keyed format => .object (.ofEntries [(format.name, .null)])

def isNamed : FormatEntry → Bool
  | named _ => true
  | keyed _ => false

theorem named?_eq_some_iff {v : Value} {format : Format} :
    Codec.named? Format.choice v = some format ↔
      ∃ entry : FormatEntry, entry.written = v ∧ entry.format = format := by
  have found (format : Format) : Format.choice.find? format.name = some format := by
    cases format <;> decide
  constructor
  · intro known
    unfold Codec.named? at known
    split at known
    · rename_i name
      exact ⟨named format, congrArg Value.string (Codec.name_of_find? known), rfl⟩
    · rename_i members
      split at known
      · rename_i name only
        have same : format.name = name := Codec.name_of_find? known
        exact ⟨keyed format, by rw [written, same, ← only, Keyed.ofEntries_entries], rfl⟩
      · cases known
    · cases known
  · rintro ⟨entry, rfl, rfl⟩
    cases entry <;> exact found _

theorem exists_of_map_named? {items : List Value} {formats : List Format}
    (known : items.map (Codec.named? Format.choice) = formats.map some) :
    ∃ entries : List FormatEntry, items = entries.map written ∧ formats = entries.map format := by
  induction items generalizing formats with
  | nil =>
    have none : formats = [] := List.map_eq_nil_iff.1 known.symm
    exact ⟨[], rfl, none⟩
  | cons item items ih =>
    cases formats with
    | nil => cases known
    | cons first formats =>
      obtain ⟨own, others⟩ := List.cons.inj known
      obtain ⟨entry, rfl, rfl⟩ := named?_eq_some_iff.1 own
      obtain ⟨entries, rfl, rfl⟩ := ih others
      exact ⟨entry :: entries, rfl, rfl⟩

theorem exists_of_itemsOf {v : Value} {formats : List Format}
    (h : Codec.itemsOf (Codec.named? Format.choice) v = some formats) :
    ∃ entries : List FormatEntry, v = .array (entries.map written) ∧
      formats = entries.map format := by
  obtain ⟨items, isArray, known⟩ := Option.bind_eq_some_iff.1 h
  have array : v = .array items := by
    cases v <;> cases isArray
    rfl
  obtain ⟨entries, rfl, eq⟩ := exists_of_map_named? (mapM_eq_some_iff.1 known)
  exact ⟨entries, array, eq⟩

/-- Where every entry is a string, all of them are names. -/
theorem filter_isNamed_of_strings {entries : List FormatEntry}
    (strings : ∀ v ∈ entries.map written, ∃ name, v = .string name) :
    entries.filter isNamed = entries := by
  apply List.filter_eq_self.2
  intro entry mem
  obtain ⟨name, eq⟩ := strings entry.written (List.mem_map_of_mem mem)
  cases entry with
  | named format => rfl
  | keyed format => cases eq

end FormatEntry

/-- Of the entries of a list the named ones are taken, and none is reported. -/
theorem readFormats_written (entries : List FormatEntry) :
    readFormats (entries.map FormatEntry.written) =
      ⟨(entries.filter FormatEntry.isNamed).map FormatEntry.format, []⟩ := by
  induction entries with
  | nil => rfl
  | cons entry entries ih =>
    cases entry with
    | keyed format => exact ih
    | named format =>
      have known : Format.ofName? format.name.toList = some format := by cases format <;> decide
      simp only [List.map_cons, FormatEntry.written, readFormats, known, ih]
      rfl

/-- The values that documents have for the settings. -/
def sights : record.fields.Sights :=
  (Codec.below? UInt32.size UInt64.toUInt32, Value.natural?,
    Codec.itemsOf (Codec.named? Format.choice), ())

theorem seen_fields : record.fields.Seen (nestingLimit - 1) sights := by
  have retries := (Codec.views_natural 126 "u32" UInt32.size UInt64.toUInt32).sees
  have timeout := (Codec.views_uint64 126 "u64").sees
  have formats := Codec.sees_list (Codec.sees_choice 124 Format.choice)
  exact ⟨retries, timeout, formats, trivial⟩

/-- What is written for a field, if anything is, is a document that has the value of the field. -/
private theorem get?_of_holds {α : Type} {view : Value → Option α} {name : String}
    {entries : List (String × Value)} {slot : Option α}
    (h : Fields.Holds view (valuesOf name entries) slot) :
    ((Keyed.ofEntries entries).get? name).map view = slot.map some := by
  rw [← getLast?_valuesOf]
  generalize valuesOf name entries = values at h
  match values, h with
  | [], missing =>
    cases missing
    rfl
  | [v], written =>
    obtain ⟨a, value, rfl⟩ := written
    simp [value]

/-- A text that is accepted as settings has a value for each setting that it writes, and the usual
value stands in for each that it leaves out. -/
theorem eq_of_decode {text : String} {m : Object} {s : Settings}
    (parsed : Value.parse text = .ok (.object m)) (decoded : codec.decode text = .ok s) :
    ∃ (maxRetries : Option UInt32) (timeout : Option UInt64) (formats : Option (List Format)),
      s = ⟨maxRetries.getD standard.maxRetries, timeout.getD standard.timeout,
        formats.getD standard.formats⟩ ∧
      (m.get? "max_retries").map (fun v => v.natural?.bind retries?) = maxRetries.map some ∧
      (m.get? "default_timeout").map Value.natural? = timeout.map some ∧
      (m.get? "supported_formats").map (Codec.itemsOf (Codec.named? Format.choice)) =
        formats.map some := by
  obtain ⟨entries, written, rfl⟩ := parse_eq_ok_object_iff.1 parsed
  have distinct : record.fields.names.Nodup := by decide
  obtain ⟨⟨maxRetries, timeout, formats, _⟩, filled, complete⟩ :=
    Record.filled_of_decode distinct seen_fields written decoded
  obtain ⟨ownRetries, ownTimeout, ownFormats, _⟩ := filled
  refine ⟨maxRetries, timeout, formats, ?_, get?_of_holds ownRetries, get?_of_holds ownTimeout,
    get?_of_holds ownFormats⟩
  have orUsual {α : Type} (slot : Option α) (usual : α) :
      (slot <|> some usual) = some (slot.getD usual) := by
    cases slot <;> rfl
  simp only [record, Fields.complete, orUsual, Except.map, Except.ok.injEq] at complete
  exact complete.symm

private theorem bind_of_map {α β : Type} {found : Option α} {view : α → Option β}
    {slot : Option β} (h : found.map view = slot.map some) : found.bind view = slot := by
  have bound := congrArg (fun values => values.bind id) h
  simpa [Option.bind_map] using bound

/-- Settings that are taken from the document of a text that is accepted as settings are those of
the text, without the formats that are written as keys. -/
theorem ofObject_of_decode {text : String} {m : Object} {s : Settings}
    (parsed : Value.parse text = .ok (.object m)) (decoded : codec.decode text = .ok s) :
    (ofObject m).value.maxRetries = s.maxRetries ∧ (ofObject m).value.timeout = s.timeout ∧
      (ofObject m).events = [] ∧
      ((m.get? "supported_formats" = none ∧ s.formats = standard.formats ∧
          (ofObject m).value.formats = standard.formats) ∨
        ∃ entries : List FormatEntry,
          m.get? "supported_formats" = some (.array (entries.map FormatEntry.written)) ∧
          s.formats = entries.map FormatEntry.format ∧
          (ofObject m).value.formats =
            (entries.filter FormatEntry.isNamed).map FormatEntry.format) ∧
      ((∀ items, m.get? "supported_formats" = some (.array items) →
          ∀ v ∈ items, ∃ name, v = .string name) → ofObject m = ⟨s, []⟩) := by
  obtain ⟨maxRetries, timeout, formats, rfl, ownRetries, ownTimeout, ownFormats⟩ :=
    eq_of_decode parsed decoded
  have retries : ((m.get? "max_retries").bind Value.natural?).bind retries? = maxRetries := by
    rw [Option.bind_assoc]
    exact bind_of_map ownRetries
  have seconds : (m.get? "default_timeout").bind Value.natural? = timeout := bind_of_map ownTimeout
  cases found : m.get? "supported_formats" with
  | none =>
    have missing : formats = none := by
      rw [found] at ownFormats
      exact Option.map_eq_none_iff.1 ownFormats.symm
    have taken : ofObject m =
        ⟨⟨maxRetries.getD standard.maxRetries, timeout.getD standard.timeout,
          standard.formats⟩, []⟩ := by
      simp [ofObject, retries, seconds, found]
    rw [taken, missing]
    exact ⟨rfl, rfl, rfl, .inl ⟨rfl, rfl, rfl⟩, fun _ => rfl⟩
  | some v =>
    rw [found, Option.map_some] at ownFormats
    obtain ⟨list, rfl, known⟩ := Option.map_eq_some_iff.1 ownFormats.symm
    obtain ⟨entries, rfl, rfl⟩ := FormatEntry.exists_of_itemsOf known.symm
    have taken : ofObject m =
        ⟨⟨maxRetries.getD standard.maxRetries, timeout.getD standard.timeout,
          (entries.filter FormatEntry.isNamed).map FormatEntry.format⟩, []⟩ := by
      simp [ofObject, retries, seconds, found, Value.array?, readFormats_written]
    rw [taken]
    refine ⟨rfl, rfl, rfl, .inr ⟨entries, rfl, rfl, rfl⟩, ?_⟩
    intro strings
    rw [FormatEntry.filter_isNamed_of_strings (strings _ rfl)]
    rfl

/-- A format that is written as a key is left out, and a member that is no setting does not
matter. -/
theorem ofObject_of_decode_keyed_format :
    ∃ members s,
      Value.parse
        "\x7b\"x\":[\x7b\"a\":[]\x7d,-7],\"supported_formats\":[\"xml\",\x7b\"csv\":null\x7d]\x7d" =
          .ok (.object members) ∧
      codec.decode
        "\x7b\"x\":[\x7b\"a\":[]\x7d,-7],\"supported_formats\":[\"xml\",\x7b\"csv\":null\x7d]\x7d" =
          .ok s ∧
      s.formats = [.xml, .csv] ∧
      ofObject members = ⟨⟨s.maxRetries, s.timeout, [.xml]⟩, []⟩ := by
  have parsed : Value.parse
      "\x7b\"x\":[\x7b\"a\":[]\x7d,-7],\"supported_formats\":[\"xml\",\x7b\"csv\":null\x7d]\x7d" =
      .ok (.object (.ofEntries
        [("supported_formats", .array [.string "xml", .object (.ofEntries [("csv", .null)])]),
          ("x", .array [.object (.ofEntries [("a", .array [])]), .number (.negative 6)])])) := by
    cbv
  have decoded : codec.decode
      "\x7b\"x\":[\x7b\"a\":[]\x7d,-7],\"supported_formats\":[\"xml\",\x7b\"csv\":null\x7d]\x7d" =
      .ok ⟨3, 30, [.xml, .csv]⟩ := by cbv
  obtain ⟨retries, timeout, events, -, -⟩ := ofObject_of_decode parsed decoded
  refine ⟨_, _, parsed, decoded, rfl, ?_⟩
  rw [← retries, ← timeout, ← events]
  rfl

end Intake.Settings
