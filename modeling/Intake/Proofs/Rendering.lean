import Intake.Fault
import Intake.Proofs.Json.RoundTrip

/-!
Faults as they are shown. Every wording of a fault begins with a heading of its own and goes on with
what is special to the fault, so the line of a fault can be read back. The line follows from the
code and the message, and the document of a fault holds just these.
-/

set_option autoImplicit false
set_option relaxedAutoImplicit false

namespace Intake

/-! ### Texts with headings -/

/-- How a text may begin, and what it stands for by how it goes on. -/
structure Wording (α : Type) where
  heading : String
  meaning : String → Option α

namespace Wording

variable {α β : Type}

def map (f : α → β) (wording : Wording α) : Wording β :=
  ⟨wording.heading, fun rest => (wording.meaning rest).map f⟩

def opens (wording : Wording α) (s : String) : Bool := wording.heading.toList.isPrefixOf s.toList

/-- Reads a text by the first wording that opens it. -/
def read (wordings : List (Wording α)) (s : String) : Option α :=
  (wordings.find? (·.opens s)).bind fun wording =>
    wording.meaning (String.ofList (s.toList.drop wording.heading.toList.length))

/-- No text begins with both headings. -/
def Apart (heading other : String) : Prop :=
  ¬ heading.toList <+: other.toList ∧ ¬ other.toList <+: heading.toList

instance : DecidableRel Apart := fun _ _ => inferInstanceAs (Decidable (_ ∧ _))

theorem opens_iff {wording : Wording α} {s : String} :
    wording.opens s = true ↔ wording.heading.toList <+: s.toList :=
  List.isPrefixOf_iff_prefix

theorem not_apart {v w : Wording α} {s : String} (hv : v.opens s = true) (hw : w.opens s = true) :
    ¬ Apart v.heading w.heading := fun apart =>
  (List.prefix_or_prefix_of_prefix (opens_iff.1 hv) (opens_iff.1 hw)).elim apart.1 apart.2

/-- Where all headings are apart, a text is read by the wording in which it was written. -/
theorem read_append {wordings : List (Wording α)}
    (apart : wordings.Pairwise fun v w => Apart v.heading w.heading) {wording : Wording α}
    (i : Nat) (listed : wordings[i]? = some wording) (rest : String) :
    read wordings (wording.heading ++ rest) = wording.meaning rest := by
  have own : wording.opens (wording.heading ++ rest) = true := by
    rw [opens_iff, String.toList_append]
    exact List.prefix_append _ _
  have first : wordings.find? (·.opens (wording.heading ++ rest)) = some wording := by
    obtain ⟨front, back, rfl⟩ := List.append_of_mem (List.mem_of_getElem? listed)
    -- An earlier wording that opens the text as well would have a heading that is not apart.
    refine List.find?_eq_some_iff_append.2 ⟨own, front, back, rfl, fun other before => ?_⟩
    have differ := (List.pairwise_append.1 apart).2.2 other before _ List.mem_cons_self
    rw [Bool.not_eq_true', ← Bool.not_eq_true]
    exact fun opens => not_apart opens own differ
  rw [read, first, Option.bind_some, String.toList_append, List.drop_left, String.ofList_toList]

end Wording

/-! ### The wordings of faults -/

/-- The wordings of a configuration's faults. -/
def Config.Fault.wordings : List (Wording Config.Fault) :=
  [⟨"Config file not found: ", some ∘ absent⟩,
    ⟨"Failed to read config file: ", some ∘ unreadable⟩,
    ⟨"Invalid JSON in config: ", some ∘ noDocument⟩,
    ⟨"Config root must be a JSON object, found ", some ∘ noObject⟩]

theorem Config.Fault.read_message (fault : Config.Fault) :
    Wording.read wordings fault.message = some fault := by
  have apart : wordings.Pairwise fun v w => Wording.Apart v.heading w.heading := by decide
  cases fault with
  | absent path => exact Wording.read_append apart 0 rfl path
  | unreadable reason => exact Wording.read_append apart 1 rfl reason
  | noDocument reason => exact Wording.read_append apart 2 rfl reason
  | noObject kind => exact Wording.read_append apart 3 rfl kind

def Log.Fault.wordings : List (Wording Log.Fault) :=
  [⟨"Log file not found: ", some ∘ absent⟩, ⟨"Failed to read log: ", some ∘ unreadable⟩]

theorem Log.Fault.read_message (fault : Log.Fault) :
    Wording.read wordings fault.message = some fault := by
  have apart : wordings.Pairwise fun v w => Wording.Apart v.heading w.heading := by decide
  cases fault with
  | absent path => exact Wording.read_append apart 0 rfl path
  | unreadable reason => exact Wording.read_append apart 1 rfl reason

def Signup.Fault.wordings : List (Wording Signup.Fault) :=
  [⟨"Missing required field: ", some ∘ missing⟩, ⟨"Invalid email format", fun _ => some badEmail⟩]

theorem Signup.Fault.read_message (fault : Signup.Fault) :
    Wording.read wordings fault.message = some fault := by
  have apart : wordings.Pairwise fun v w => Wording.Apart v.heading w.heading := by decide
  cases fault with
  | missing field => exact Wording.read_append apart 0 rfl field
  | badEmail => exact Wording.read_append apart 1 rfl ""

namespace Directory.Fault

/-- A status and a body from `status: body`. -/
def statusOf (s : String) : Fault :=
  let digits := s.toList.takeWhile Char.isDigit
  .status (UInt16.ofNat (Nat.ofDigitChars 10 digits 0))
    (String.ofList (s.toList.drop (digits.length + 2)))

theorem statusOf_append (code : UInt16) (body : String) :
    statusOf (toString code.toNat ++ ": " ++ body) = .status code body := by
  have colon : ": ".toList = [':', ' '] := rfl
  have whole : (toString code.toNat ++ ": " ++ body).toList =
      Nat.toDigits 10 code.toNat ++ ':' :: ' ' :: body.toList := by
    rw [String.toList_append, String.toList_append, Nat.toString_eq_ofList_toDigits,
      String.toList_ofList, colon, List.append_assoc]
    rfl
  have digits : (toString code.toNat ++ ": " ++ body).toList.takeWhile Char.isDigit =
      Nat.toDigits 10 code.toNat := by
    rw [whole, List.takeWhile_append_of_pos, List.takeWhile_cons_of_neg (by decide),
      List.append_nil]
    exact fun c mem => Nat.isDigit_of_mem_toDigits (by decide) (by decide) mem
  have rest : (toString code.toNat ++ ": " ++ body).toList.drop
      ((Nat.toDigits 10 code.toNat).length + 2) = body.toList := by
    rw [whole, ← List.drop_drop, List.drop_left]
    rfl
  rw [statusOf, digits, rest, Nat.ofDigitChars_ten_toDigits, UInt16.ofNat_toNat,
    String.ofList_toList]

/-- The wordings of a directory's faults; data that were refused are worded as by their check. -/
def wordings : List (Wording Fault) :=
  Signup.Fault.wordings.map (Wording.map refused) ++
    [⟨"Network error: ", some ∘ network⟩, ⟨"HTTP ", some ∘ statusOf⟩,
      ⟨"Invalid response: ", some ∘ answer⟩]

theorem read_message (fault : Fault) : Wording.read wordings fault.message = some fault := by
  have apart : wordings.Pairwise fun v w => Wording.Apart v.heading w.heading := by decide
  cases fault with
  | refused fault =>
    cases fault with
    | missing field => exact Wording.read_append apart 0 rfl field
    | badEmail => exact Wording.read_append apart 1 rfl ""
  | network reason => exact Wording.read_append apart 2 rfl reason
  | status code body =>
    have worded : (status code body).message = "HTTP " ++ toString code.toNat ++ ": " ++ body := rfl
    have grouped : "HTTP " ++ toString code.toNat ++ ": " ++ body =
        "HTTP " ++ (toString code.toNat ++ ": " ++ body) := by
      simp only [String.append_assoc]
    rw [worded, grouped]
    exact (Wording.read_append apart 3 rfl (toString code.toNat ++ ": " ++ body)).trans
      (congrArg some (statusOf_append code body))
  | answer reason => exact Wording.read_append apart 4 rfl reason

end Directory.Fault

namespace Fault

/-- The wordings of the lines of faults. -/
def wordings : List (Wording Fault) :=
  [⟨"Config error: ", fun rest => (Wording.read Config.Fault.wordings rest).map config⟩,
    ⟨"Log parse error: ", fun rest => (Wording.read Log.Fault.wordings rest).map log⟩,
    ⟨"Validation error: ", fun rest => (Wording.read Signup.Fault.wordings rest).map signup⟩,
    ⟨"Directory error: ", fun rest => (Wording.read Directory.Fault.wordings rest).map directory⟩,
    ⟨"Internal error: ", some ∘ internal⟩]

theorem read_line (fault : Fault) : Wording.read wordings fault.line = some fault := by
  have apart : wordings.Pairwise fun v w => Wording.Apart v.heading w.heading := by decide
  cases fault with
  | config fault =>
    exact (Wording.read_append apart 0 rfl fault.message).trans
      (congrArg (Option.map config) fault.read_message)
  | log fault =>
    exact (Wording.read_append apart 1 rfl fault.message).trans
      (congrArg (Option.map log) fault.read_message)
  | signup fault =>
    exact (Wording.read_append apart 2 rfl fault.message).trans
      (congrArg (Option.map signup) fault.read_message)
  | directory fault =>
    exact (Wording.read_append apart 3 rfl fault.message).trans
      (congrArg (Option.map directory) fault.read_message)
  | internal message => exact Wording.read_append apart 4 rfl message

theorem line_inj {a b : Fault} : a.line = b.line ↔ a = b := by
  refine ⟨fun same => ?_, congrArg line⟩
  have readings := congrArg (Wording.read wordings) same
  rwa [read_line, read_line, Option.some.injEq] at readings

/-! ### Codes and documents -/

/-- The headings of lines, by code. -/
def headings : List (String × String) :=
  [("CONFIG_ERROR", "Config error: "), ("LOG_PARSE_ERROR", "Log parse error: "),
    ("VALIDATION_ERROR", "Validation error: "), ("DIRECTORY_ERROR", "Directory error: "),
    ("INTERNAL_ERROR", "Internal error: ")]

theorem lookup_code (fault : Fault) : headings.lookup fault.code = some fault.heading := by
  cases fault <;> rfl

/-- A code and a message belong to one fault. -/
theorem code_message_inj {a b : Fault} : a.code = b.code ∧ a.message = b.message ↔ a = b := by
  constructor
  · rintro ⟨code, message⟩
    have heading : some a.heading = some b.heading := by rw [← lookup_code, code, lookup_code]
    rw [← line_inj, line, line, Option.some.inj heading, message]
  · rintro rfl
    exact ⟨rfl, rfl⟩

/-- The document of a fault holds its code and its message. -/
theorem parse_text (fault : Fault) :
    Json.Value.parse fault.text =
      .ok (.object
        (.ofEntries [("code", .string fault.code), ("message", .string fault.message)])) := by
  have text : fault.text = String.ofList (Json.objectText (Json.Value.memberTexts
      [("code", .string fault.code), ("message", .string fault.message)])) := rfl
  rw [text]
  refine Json.Value.parse_objectText fun e he => ?_
  rcases List.mem_pair.1 he with rfl | rfl
  · exact Json.readsBack_string _ fault.code
  · exact Json.readsBack_string _ fault.message

/-- The document of a fault is that of its answer and is read back as its code and its message; its
line is the heading for the code and the message. Data that a directory refused are worded as by
their check, under another code. And no two faults are shown alike, be it by code and message, by
the line or by the document. -/
theorem renderings_agree (a : Fault) :
    a.text = a.answer.text ∧
    Json.Value.parse a.text =
      .ok (.object (.ofEntries [("code", .string a.code), ("message", .string a.message)])) ∧
    (∃ heading, headings.lookup a.code = some heading ∧ a.line = heading ++ a.message) ∧
    (∀ fault : Signup.Fault,
      (directory (.refused fault)).message = (signup fault).message ∧
        (signup fault).code = "VALIDATION_ERROR" ∧
        (directory (.refused fault)).code = "DIRECTORY_ERROR") ∧
    ∀ b : Fault, (a.code = b.code ∧ a.message = b.message ↔ a = b) ∧ (a.line = b.line ↔ a = b) ∧
      (a.text = b.text ↔ a = b) := by
  refine ⟨rfl, a.parse_text, ⟨a.heading, a.lookup_code, rfl⟩, fun fault => ⟨rfl, rfl, rfl⟩,
    fun b => ⟨code_message_inj, line_inj, fun same => ?_, congrArg text⟩⟩
  have parsed := a.parse_text
  rw [same, b.parse_text] at parsed
  have members := Json.Value.object.inj (Except.ok.inj parsed)
  have code : b.code = a.code := by
    simpa [Keyed.get?_ofEntries] using congrArg (fun m => m.get? "code") members
  have message : b.message = a.message := by
    simpa [Keyed.get?_ofEntries] using congrArg (fun m => m.get? "message") members
  exact (code_message_inj.1 ⟨code, message⟩).symm

end Fault

end Intake
