import Intake.Proofs.Settings.Names
import Intake.Settings

/-!
Settings taken from the members of a document. Each setting comes from its own key alone and stands
at its default where the value does not fit; of a list of formats every string is either taken or
reported, in the order of the list.
-/

set_option autoImplicit false
set_option relaxedAutoImplicit false

namespace Intake.Settings

open Json

variable {config : Object}

/-! ### Whole numbers -/

theorem natural?_eq_some_iff {v : Value} {n : UInt64} :
    v.natural? = some n ↔ v = .number (.natural n) := by
  constructor
  · intro whole
    cases v with
    | number m => cases m <;> cases whole; rfl
    | null | bool | string | array | object => cases whole
  · rintro rfl
    rfl

theorem bind_natural?_eq_some_iff {key : String} {n : UInt64} :
    (config.get? key).bind Value.natural? = some n ↔
      config.get? key = some (.number (.natural n)) := by
  simp [Option.bind_eq_some_iff, natural?_eq_some_iff]

theorem bind_natural?_eq_none {key : String}
    (h : ∀ n, config.get? key ≠ some (.number (.natural n))) :
    (config.get? key).bind Value.natural? = none := by
  rw [Option.eq_none_iff_forall_not_mem]
  exact fun n found => h n (bind_natural?_eq_some_iff.1 found)

theorem maxRetries_ofObject (config : Object) :
    (ofObject config).value.maxRetries =
      (((config.get? "max_retries").bind Value.natural?).bind retries?).getD 3 := rfl

theorem timeout_ofObject (config : Object) :
    (ofObject config).value.timeout =
      ((config.get? "default_timeout").bind Value.natural?).getD 30 := rfl

theorem maxRetries_eq_of_lt {n : UInt64}
    (h : config.get? "max_retries" = some (.number (.natural n))) (small : n.toNat < 2 ^ 32) :
    (ofObject config).value.maxRetries.toNat = n.toNat := by
  rw [maxRetries_ofObject, bind_natural?_eq_some_iff.2 h, Option.bind_some, retries?,
    if_pos (show n.toNat < UInt32.size from small), Option.getD_some, UInt64.toNat_toUInt32,
    Nat.mod_eq_of_lt small]

/-- A number that is too large counts as none. -/
theorem maxRetries_eq_default
    (h : ∀ n, config.get? "max_retries" = some (.number (.natural n)) → 2 ^ 32 ≤ n.toNat) :
    (ofObject config).value.maxRetries = 3 := by
  rw [maxRetries_ofObject]
  cases whole : (config.get? "max_retries").bind Value.natural? with
  | none => rfl
  | some n =>
    have large : UInt32.size ≤ n.toNat := h n (bind_natural?_eq_some_iff.1 whole)
    rw [Option.bind_some, retries?, if_neg (Nat.not_lt.2 large), Option.getD_none]

/-! ### Lists of formats -/

/-- The strings of a list that name no format. -/
def unknownNames (names : List String) : List String :=
  names.filter fun name => (Format.ofName? name.toList).isNone

/-- The strings of a list name formats or are reported, each in the order of the list. -/
theorem readFormats_eq (items : List Value) :
    readFormats items =
      ⟨(items.filterMap Value.string?).filterMap fun name => Format.ofName? name.toList,
        (unknownNames (items.filterMap Value.string?)).map unknownFormat⟩ := by
  induction items with
  | nil => rfl
  | cons item items ih =>
    cases item with
    | string name =>
      rw [readFormats, ih]
      cases known : Format.ofName? name.toList <;> simp [unknownNames, Value.string?, known]
    | null | bool | number | array | object =>
      rw [readFormats, ih, List.filterMap_cons_none rfl]
      nofun

theorem length_readFormats (names : List String) :
    (names.filterMap fun name => Format.ofName? name.toList).length +
      (unknownNames names).length = names.length := by
  induction names with
  | nil => rfl
  | cons name names ih =>
    cases known : Format.ofName? name.toList <;> simp [unknownNames, known] at ih ⊢ <;> omega

theorem formats_of_array {items : List Value}
    (h : config.get? "supported_formats" = some (.array items)) :
    (ofObject config).value.formats = (readFormats items).value ∧
      (ofObject config).events = (readFormats items).events := by
  simp only [ofObject, h, Option.bind_some, Value.array?, and_self]

theorem formats_eq_default
    (h : ∀ items, config.get? "supported_formats" ≠ some (.array items)) :
    (ofObject config).value.formats = [.json, .csv, .xml] ∧ (ofObject config).events = [] := by
  have missing : (config.get? "supported_formats").bind Value.array? = none := by
    rw [Option.eq_none_iff_forall_not_mem]
    intro items found
    obtain ⟨v, own, list⟩ := Option.bind_eq_some_iff.1 found
    cases v <;> cases list
    exact h items own
  rw [ofObject, missing]
  exact ⟨rfl, rfl⟩

/-! ### One key for each setting -/

theorem formats_congr {other : Object}
    (same : config.get? "supported_formats" = other.get? "supported_formats") :
    (ofObject config).value.formats = (ofObject other).value.formats ∧
      (ofObject config).events = (ofObject other).events := by
  simp only [ofObject, same, and_self]

/-- Settings taken from a document: the number of retries and the timeout are the values of their
keys where these are whole numbers in range. A list of formats is read through: its strings name
formats, up to the case of ASCII letters, or are reported unchanged, both in the order of the list,
and what is no string does neither. Anything else leaves the default, and no key but its own
matters to a setting. -/
theorem ofObject_by_key (config : Object) :
    (∀ n, config.get? "max_retries" = some (.number (.natural n)) → n.toNat < 2 ^ 32 →
      (ofObject config).value.maxRetries.toNat = n.toNat) ∧
    ((∀ n, config.get? "max_retries" = some (.number (.natural n)) → 2 ^ 32 ≤ n.toNat) →
      (ofObject config).value.maxRetries = 3) ∧
    (∀ n, config.get? "default_timeout" = some (.number (.natural n)) →
      (ofObject config).value.timeout = n) ∧
    ((∀ n, config.get? "default_timeout" ≠ some (.number (.natural n))) →
      (ofObject config).value.timeout = 30) ∧
    (∀ items, config.get? "supported_formats" = some (.array items) →
      let names := items.filterMap Value.string?
      (ofObject config).value.formats =
          names.filterMap (fun name => Format.ofName? name.toList) ∧
        (ofObject config).events = (unknownNames names).map unknownFormat ∧
        (ofObject config).value.formats.length + (ofObject config).events.length =
          names.length) ∧
    ((∀ items, config.get? "supported_formats" ≠ some (.array items)) →
      (ofObject config).value.formats = [.json, .csv, .xml] ∧ (ofObject config).events = []) ∧
    (∀ (name : String) (format : Format), Format.ofName? name.toList = some format ↔
      name.toList.map Text.lowerAscii = format.name.toList) ∧
    (∀ name, (unknownFormat name).severity = .warning ∧
      (unknownFormat name).details = [("format", name)]) ∧
    ∀ other : Object,
      (config.get? "max_retries" = other.get? "max_retries" →
        (ofObject config).value.maxRetries = (ofObject other).value.maxRetries) ∧
      (config.get? "default_timeout" = other.get? "default_timeout" →
        (ofObject config).value.timeout = (ofObject other).value.timeout) ∧
      (config.get? "supported_formats" = other.get? "supported_formats" →
        (ofObject config).value.formats = (ofObject other).value.formats ∧
          (ofObject config).events = (ofObject other).events) := by
  refine ⟨fun n => maxRetries_eq_of_lt, maxRetries_eq_default, fun n own => ?_, fun missing => ?_,
    fun items list => ?_, formats_eq_default, fun name format => ofName?_eq_some_iff,
    fun name => ⟨rfl, rfl⟩, fun other => ⟨fun same => ?_, fun same => ?_, formats_congr⟩⟩
  · rw [timeout_ofObject, bind_natural?_eq_some_iff.2 own, Option.getD_some]
  · rw [timeout_ofObject, bind_natural?_eq_none missing, Option.getD_none]
  · obtain ⟨formats, events⟩ := formats_of_array list
    rw [formats, events, readFormats_eq, List.length_map]
    exact ⟨rfl, rfl, length_readFormats _⟩
  · rw [maxRetries_ofObject, maxRetries_ofObject, same]
  · rw [timeout_ofObject, timeout_ofObject, same]

/-- A document whose list holds a format twice, one letter that only looks like an ASCII letter, and
a number; its retries are one beyond the range. -/
def mixed : Object :=
  .ofEntries
    [("default_timeout", .number (.natural 18446744073709551615)),
      ("max_retries", .number (.natural 4294967296)),
      ("supported_formats",
        .array [.string "Xml", .number (.natural 1), .string "ｊson", .string "xML"])]

theorem ofObject_by_key_mixed :
    (ofObject mixed).value.maxRetries = 3 ∧
    (ofObject mixed).value.timeout = 18446744073709551615 ∧
    (ofObject mixed).value.formats = [.xml, .xml] ∧
    (ofObject mixed).events = [unknownFormat "ｊson"] ∧
    (ofObject (mixed.insert "log" .null)).value.maxRetries =
      (ofObject mixed).value.maxRetries := by
  obtain ⟨_, retries, timeout, _, formats, _⟩ := ofObject_by_key mixed
  have beyond : mixed.get? "max_retries" = some (.number (.natural 4294967296)) := by decide
  have seconds : mixed.get? "default_timeout" =
      some (.number (.natural 18446744073709551615)) := by decide
  have list : mixed.get? "supported_formats" =
      some (.array [.string "Xml", .number (.natural 1), .string "ｊson", .string "xML"]) := by
    decide
  obtain ⟨known, unknown, _⟩ := formats _ list
  refine ⟨retries fun n own => ?_, timeout _ seconds, known.trans (by decide +kernel),
    unknown.trans (by decide +kernel), ?_⟩
  · cases beyond.symm.trans own
    decide
  · have others := (ofObject_by_key (mixed.insert "log" .null)).2.2.2.2.2.2.2.2 mixed
    exact others.1 (Keyed.get?_insert_of_ne mixed .null (by decide))

end Intake.Settings
