import Intake.Config
import Intake.Proofs.Json.Accepted
import Intake.Proofs.Log.Reads
import Intake.Proofs.Text.Decoding
import Intake.Settings

/-!
What comes of loading a configuration, and of counting a log, for everything that may come of
reading the file. A configuration must be text in UTF-8, a document and an object; a log may be any
bytes. Where a loader falls back on an empty result, the log has the fault instead of the success.
-/

set_option autoImplicit false
set_option relaxedAutoImplicit false

namespace Intake

open Json Text

namespace Config

/-- Loading a configuration: one case for each fault, with the condition for it, and one for
success, which alone is logged. A document that is no object is refused by the name of its kind. -/
inductive Loads (path : String) : Storage.Outcome → Logged (Except Fault Object) → Prop where
  | absent : Loads path .absent ⟨.error (.absent path), []⟩
  | refused {reason : String} :
      Loads path (.refused reason) ⟨.error (.unreadable reason), []⟩
  | notText {bytes : List UInt8} (invalid : ∀ text, Utf8.encode text ≠ bytes) :
      Loads path (.contents bytes) ⟨.error (.unreadable badEncoding), []⟩
  | notDocument {text : String} {failure : Failure} (none : ∀ v : Value, ¬ v.IsOf text)
      (reason : Value.parse text = .error failure) :
      Loads path (.contents (Utf8.encode text))
        ⟨.error (.noDocument (failure.located text.toList)), []⟩
  | null {text : String} (document : Value.null.IsOf text) :
      Loads path (.contents (Utf8.encode text)) ⟨.error (.noObject "null"), []⟩
  | boolean {text : String} {b : Bool} (document : (Value.bool b).IsOf text) :
      Loads path (.contents (Utf8.encode text)) ⟨.error (.noObject "boolean"), []⟩
  | number {text : String} {n : Number} (document : (Value.number n).IsOf text) :
      Loads path (.contents (Utf8.encode text)) ⟨.error (.noObject "number"), []⟩
  | string {text content : String} (document : (Value.string content).IsOf text) :
      Loads path (.contents (Utf8.encode text)) ⟨.error (.noObject "string"), []⟩
  | array {text : String} {items : List Value} (document : (Value.array items).IsOf text) :
      Loads path (.contents (Utf8.encode text)) ⟨.error (.noObject "array"), []⟩
  | loaded {text : String} {config : Object} {entries : List (String × Value)}
      (document : (Value.object config).IsOf text) (written : Value.written text = .ok entries) :
      Loads path (.contents (Utf8.encode text))
        ⟨.ok config, [{
          severity := .debug
          message := "Loaded config"
          details :=
            [("path", path), ("keys", toString (entries.map Prod.fst).toFinset.card)] }]⟩

theorem ofOutcome_encode (path text : String) :
    ofOutcome path (.contents (Utf8.encode text)) = ofText text.toList := by
  rw [ofOutcome, Utf8.decode?_encode]

theorem size_of_written {text : String} {config : Object} {entries : List (String × Value)}
    (document : (Value.object config).IsOf text) (written : Value.written text = .ok entries) :
    config.size = (entries.map Prod.fst).toFinset.card := by
  obtain ⟨others, same, rfl⟩ := parse_eq_ok_object_iff.1 (parse_eq_ok_iff.2 document)
  cases written.symm.trans same
  exact Keyed.size_ofEntries entries

theorem Loads.load_eq {path : String} {outcome : Storage.Outcome}
    {run : Logged (Except Fault Object)} (h : Loads path outcome run) :
    load path outcome = run := by
  cases h with
  | absent | refused => rfl
  | notText invalid =>
    rw [load, ofOutcome, Utf8.decode?_eq_none_iff.2 invalid]
  | notDocument _ reason =>
    rw [load, ofOutcome_encode, ofText, String.ofList_toList, reason]
  | null document | boolean document | number document | string document | array document =>
    rw [load, ofOutcome_encode, ofText, String.ofList_toList, parse_eq_ok_iff.2 document]
    rfl
  | loaded document written =>
    rw [load, ofOutcome_encode, ofText, String.ofList_toList, parse_eq_ok_iff.2 document]
    simp only [Config.loaded, size_of_written document written]

theorem loads_load (path : String) (outcome : Storage.Outcome) :
    Loads path outcome (load path outcome) := by
  cases outcome with
  | absent => exact .absent
  | refused reason => exact .refused
  | contents bytes =>
    cases decoded : Utf8.decode? bytes with
    | none =>
      rw [load, ofOutcome, decoded]
      exact .notText (Utf8.decode?_eq_none_iff.1 decoded)
    | some chars =>
      rw [← Utf8.decode?_eq_some_iff.1 decoded, load, ofOutcome_encode, ofText,
        String.ofList_toList]
      cases parsed : Value.parse (String.ofList chars) with
      | error failure =>
        exact .notDocument (exists_parse_eq_error_iff.1 ⟨failure, parsed⟩) parsed
      | ok v =>
        have document := parse_eq_ok_iff.1 parsed
        cases v with
        | object config =>
          obtain ⟨entries, written, rfl⟩ := parse_eq_ok_object_iff.1 parsed
          simp only [Config.loaded, size_of_written document written]
          exact .loaded document written
        | null => exact .null document
        | bool => exact .boolean document
        | number => exact .number document
        | string => exact .string document
        | array => exact .array document

end Config

namespace Log

/-- Counting a log: it fails only if the file cannot be read; its bytes are counted, whatever they
are and in whatever parts they come. -/
inductive Reports (path : String) : Storage.Outcome → Logged (Except Fault Tally) → Prop where
  | absent : Reports path .absent ⟨.error (.absent path), []⟩
  | refused {reason : String} :
      Reports path (.refused reason) ⟨.error (.unreadable reason), []⟩
  | counted {bytes : List UInt8} {t : Tally}
      (count : ∀ parts : List (List UInt8), [] ∉ parts → parts.flatten = bytes →
        countReads (parts.map .bytes) = .ok t) :
      Reports path (.contents bytes)
        ⟨.ok t, [{
          severity := .debug
          message := "Parsed log file"
          details := [("path", path), ("lines", toString t.total.toNat)] }]⟩

private theorem flatMap_stream {parts : List (List UInt8)} (h : [] ∉ parts) :
    (parts.map Read.bytes).flatMap Read.stream = parts.flatten := by
  induction parts with
  | nil => rfl
  | cons part parts ih =>
    obtain ⟨filled, later⟩ := not_or.1 (mt List.mem_cons.2 h)
    have stream : (Read.bytes part).stream = part := by
      cases part with
      | nil => exact absurd rfl filled
      | cons => rfl
    rw [List.map_cons, List.flatMap_cons, stream, ih later, List.flatten_cons]

theorem countReads_parts {parts : List (List UInt8)} (h : [] ∉ parts) :
    countReads (parts.map .bytes) = .ok (tally parts.flatten) := by
  have noEmpty : Read.bytes [] ∉ parts.map .bytes := by simpa using h
  have noFailure : (parts.map Read.bytes).findSome? Read.failure? = none := by simp [Read.failure?]
  rw [countReads_eq_outcome, reached_of_notMem false noEmpty, noFailure, flatMap_stream h]

theorem reports_report (path : String) (outcome : Storage.Outcome) :
    Reports path outcome (report path outcome) := by
  cases outcome with
  | absent => exact .absent
  | refused reason => exact .refused
  | contents bytes =>
    refine .counted fun parts noEmpty eq => ?_
    rw [countReads_parts noEmpty, eq]

theorem Reports.report_eq {path : String} {outcome : Storage.Outcome}
    {run : Logged (Except Fault Tally)} (h : Reports path outcome run) :
    report path outcome = run := by
  cases h with
  | absent | refused => rfl
  | @counted bytes t count =>
    have parts : ∃ parts : List (List UInt8), [] ∉ parts ∧ parts.flatten = bytes := by
      cases bytes with
      | nil => exact ⟨[], List.not_mem_nil, rfl⟩
      | cons b bytes => exact ⟨[b :: bytes], by simp, by simp⟩
    obtain ⟨parts, noEmpty, rfl⟩ := parts
    cases (countReads_parts noEmpty).symm.trans (count parts noEmpty rfl)
    rfl

end Log

/-- The same result with the same log, or a fallback where there is a fault, with the fault in the
log. -/
def Logged.orElse {α φ : Type} (fallback : α) (message : φ → String) (path : String) :
    Logged (Except φ α) → Logged α
  | ⟨.ok a, events⟩ => ⟨a, events⟩
  | ⟨.error fault, _⟩ =>
    ⟨fallback, [{ severity := .error, message := message fault, details := [("path", path)] }]⟩

theorem Config.loadOrEmpty_eq (path : String) (outcome : Storage.Outcome) :
    loadOrEmpty path outcome = (load path outcome).orElse .empty Fault.message path := by
  rw [loadOrEmpty, load]
  cases ofOutcome path outcome <;> rfl

theorem Log.reportOrEmpty_eq (path : String) (outcome : Storage.Outcome) :
    reportOrEmpty path outcome = (report path outcome).orElse .empty Fault.message path := by
  rw [reportOrEmpty, report]
  cases ofOutcome path outcome <;> rfl

/-- Whatever comes of reading a file, loading it as a configuration goes by one case of `Loads`, and
counting it as a log by one case of `Reports`. Where there is no fault, falling back makes no
difference; else the result is empty, and the fault is all there is in the log. Then the settings
are the standard ones, without a warning. What is loaded is nested to the limit at most. -/
theorem load_and_report (path : String) (outcome : Storage.Outcome) :
    (∀ run, Config.Loads path outcome run ↔ Config.load path outcome = run) ∧
    (∀ config, (Config.load path outcome).value = .ok config →
      (Value.object config).depth ≤ nestingLimit) ∧
    Config.loadOrEmpty path outcome =
      (Config.load path outcome).orElse .empty Config.Fault.message path ∧
    (∀ fault, (Config.load path outcome).value = .error fault →
      Settings.ofObject (Config.loadOrEmpty path outcome).value = ⟨.standard, []⟩) ∧
    (∀ run, Log.Reports path outcome run ↔ Log.report path outcome = run) ∧
    Log.reportOrEmpty path outcome =
      (Log.report path outcome).orElse .empty Log.Fault.message path := by
  have loads := Config.loads_load path outcome
  have reports := Log.reports_report path outcome
  refine ⟨fun run => ⟨Config.Loads.load_eq, fun eq => eq ▸ loads⟩, ?_,
    Config.loadOrEmpty_eq path outcome, ?_,
    fun run => ⟨Log.Reports.report_eq, fun eq => eq ▸ reports⟩, Log.reportOrEmpty_eq path outcome⟩
  · intro config ok
    generalize Config.load path outcome = run at loads ok
    cases loads with
    | loaded document =>
      cases ok
      exact document.depth_le
    | absent | refused | notText | notDocument => cases ok
    | null | boolean | number | string | array => cases ok
  · intro fault failed
    rw [Config.loadOrEmpty_eq]
    cases run : Config.load path outcome with
    | mk value events =>
      rw [run] at failed
      subst failed
      rfl

/-- Bytes that are no text: no configuration, but a log with one line of a level. And the document
`[1]`, which is no object: the fault names its kind. -/
theorem load_and_report_invalid_text :
    let outcome : Storage.Outcome := .contents [69, 82, 82, 79, 82, 0xFF, 10]
    let list : Storage.Outcome := .contents (Text.Utf8.encode "[1]")
    Config.load "f" outcome = ⟨.error (.unreadable Config.badEncoding), []⟩ ∧
      Settings.ofObject (Config.loadOrEmpty "f" outcome).value = ⟨.standard, []⟩ ∧
      Log.Reports "f" outcome
        ⟨.ok (.ofEntries [(.error, 1)]),
          [⟨.debug, "Parsed log file", [("path", "f"), ("lines", "1")]⟩]⟩ ∧
      Config.load "f" list = ⟨.error (.noObject "array"), []⟩ ∧
      Config.loadOrEmpty "f" list =
        ⟨.empty,
          [⟨.error, "Config root must be a JSON object, found array", [("path", "f")]⟩]⟩ := by
  intro outcome list
  obtain ⟨loads, -, -, standard, reports, -⟩ := load_and_report "f" outcome
  obtain ⟨loadsList, -, fallsBack, -⟩ := load_and_report "f" list
  have load := (loads _).1 (.notText (Text.Utf8.decode?_eq_none_iff.1 (by decide)))
  have document : (Value.array [.number (.natural 1)]).IsOf "[1]" := parse_eq_ok_iff.1 (by cbv)
  have loadList := (loadsList _).1 (.array document)
  refine ⟨load, standard _ (congrArg Logged.value load), (reports _).2 (by decide), loadList, ?_⟩
  rw [fallsBack, loadList]
  rfl

end Intake
