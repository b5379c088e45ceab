import Intake.Json.Codec.Choice
import Intake.Proofs.Json.Fields
import Intake.Proofs.Json.RoundTrip

/-!
Codecs that read back what they write. Lists, choices, maps and records have this law from their
parts; a record needs names that are all different, since a repeated one is refused.
-/

set_option autoImplicit false
set_option relaxedAutoImplicit false

namespace Intake.Json

open Reader

variable {α β τ : Type}

/-- Every written value is read back. -/
def Codec.Lawful (c : Codec α) : Prop := ∀ a, ReadsBack c.read (c.write a) a

theorem ReadsBack.decode_encode {c : Codec α} {a b : α} (h : ReadsBack c.read (c.write a) b) :
    c.decode (c.encode a) = .ok b := by
  rw [Codec.decode, Codec.encode, String.toList_ofList]
  exact h.afterBlanks.whole_eq_ok

namespace Codec

theorem readsBack_readNumber {wanted : String} {f : Number → Except Problem α} {n : Number} {a : α}
    (whole : ∀ x finite, n ≠ .float x finite) (value : f n = .ok a) :
    ReadsBack (readNumber wanted f) n.text a where
  begins :=
    have text : ReadsBack (document 0) n.text (.number n) := readsBack_number whole
    text.begins
  takes rest ends :=
    (takes_readNumber_iff 0).2 ⟨n, (readsBack_number whole).takes rest ends, value⟩

theorem readsBack_readString {wanted : String} {f : String → Except Problem α} {str : String}
    {a : α} (value : f str = .ok a) : ReadsBack (readString wanted f) (stringText str) a where
  begins := (readsBack_string 0 str).begins
  takes rest ends :=
    (takes_readString_iff 0).2 ⟨str, (readsBack_string 0 str).takes rest ends, value⟩

theorem lawful_uint64 (wanted : String) : (uint64 wanted).Lawful := fun n =>
  readsBack_readNumber (n := .natural n) nofun (by simp [natural, n.toNat_lt])

theorem lawful_uint32 : uint32.Lawful := fun n =>
  readsBack_readNumber (n := .natural n.toUInt64) nofun (by simp [natural, n.toNat_lt])

theorem lawful_string : string.Lawful := fun _ => readsBack_readString rfl

theorem takes_opened {read : Reader α} {s rest : Text} {a : α} (first : Char)
    (h : Takes read s a rest) :
    ∃ less : rest.length < (first :: s).length,
      Taken.widen (length_le_cons s) (read s) = .ok (a, ⟨rest, less⟩) :=
  (takes_widen_iff (length_le_cons s)).2 h

theorem lawful_list {c : Codec α} (h : c.Lawful) : (list c).Lawful := by
  intro items
  refine ⟨⟨'[', _, rfl, by decide⟩, fun rest _ => ?_⟩
  have taken := takes_items (fun a (_ : a ∈ items) => h a) rest
  have text : (list c).write items ++ rest =
      '[' :: ([','].intercalate (items.map c.write) ++ ']' :: rest) := arrayText_append _ rest
  rw [text]
  exact takes_opened '[' (takes_map_iff.2 ⟨_, taken, items.reverse_reverse⟩)

/-- Each value of a choice is found by its name. -/
theorem lawful_choice {ch : Choice α} (found : ∀ a, ch.find? (ch.name a) = some a) :
    (choice ch).Lawful := by
  intro a
  refine ⟨⟨'"', _, rfl, by decide⟩, fun rest _ => ?_⟩
  have selected : ch.select (ch.name a) = .ok a := by simp [Choice.select, found]
  have text : (choice ch).write a ++ rest =
      '"' :: (escapeAll (ch.name a).toList ++ '"' :: rest) := by
    simp [choice, stringText]
  rw [text]
  exact takes_opened '"'
    (takes_check_iff.2 ⟨ch.name a, takes_stringBody (ch.name a) rest, selected⟩)

section Keyed

variable [DecidableEq α] [LT α] [DecidableLT α] [LE α] [Std.LawfulOrderLT α]
  [Std.IsLinearOrder α]

/-- Takes the value of a key, which is the name of a choice. -/
private def keyedMember (keys : Choice α) (values : Codec β) (m : Keyed α β) (name : String) :
    Except Problem (Reader (Keyed α β)) :=
  match keys.select name with
  | .ok k => .ok (Reader.map (fun b => m.insert k b) values.read)
  | .error problem => .error problem

/-- A map is read back, if each of its keys is found by its name. -/
theorem lawful_keyed {keys : Choice α} {values : Codec β}
    (found : ∀ k, keys.find? (keys.name k) = some k) (h : values.Lawful) :
    (keyed keys values).Lawful := by
  intro m
  refine ⟨⟨'\x7b', _, rfl, by decide⟩, fun rest _ => ?_⟩
  have leads (entries : List (α × β)) (before : Keyed α β) :
      LeadsTo (keyedMember keys values) before
        (entries.map fun e => (keys.name e.1, values.write e.2))
        (entries.foldl (fun m e => m.insert e.1 e.2) before) := by
    induction entries generalizing before with
    | nil => exact .nil before
    | cons e entries ih =>
      have known : keyedMember keys values before (keys.name e.1) =
          .ok (Reader.map (fun b => before.insert e.1 b) values.read) := by
        simp [keyedMember, Choice.select, found]
      exact .cons known ((h e.2).map fun b => before.insert e.1 b) (ih _)
  have taken : Takes _ _ (Keyed.ofEntries m.entries) rest := (leads m.entries .empty).takes rest
  rw [Keyed.ofEntries_entries] at taken
  have text := objectText_append (m.entries.map fun e => (keys.name e.1, values.write e.2)) rest
  exact text ▸ takes_opened '\x7b' taken

end Keyed

end Codec

namespace Fields

/-- Each field has a lawful codec, and a name of its own. -/
def Lawful : {τ : Type} → Fields τ → Prop
  | _, nil => True
  | _, field name codec _ more => codec.Lawful ∧ name ∉ more.names ∧ more.Lawful

/-- What has been read when the values of all fields have. -/
def full : {τ : Type} → (f : Fields τ) → τ → f.Draft
  | _, nil, _ => ()
  | _, field _ _ _ more, (a, rest) => (some a, more.full rest)

theorem complete_full (missing : Nat → String → Problem) (f : Fields τ) (place : Nat) (values : τ) :
    f.complete missing place (f.full values) = .ok values := by
  induction f generalizing place with
  | nil => rfl
  | field name codec fallback more ih =>
    obtain ⟨a, rest⟩ := values
    simp [complete, full, ih, Except.map]

/-- Reads the value of a field, and takes no other member. -/
private def fieldOnly (f : Fields τ) (draft : f.Draft) (key : String) :
    Except Problem (Reader f.Draft) :=
  (f.member? draft key).getD (.error (.missingField key))

private theorem member?_of_fieldOnly {f : Fields τ} {draft : f.Draft} {key : String}
    {read : Reader f.Draft} (h : f.fieldOnly draft key = .ok read) :
    f.member? draft key = some (.ok read) := by
  unfold fieldOnly at h
  cases member : f.member? draft key with
  | none =>
    rw [member] at h
    cases h
  | some result =>
    rw [member] at h
    exact congrArg some h

/-- What is read into later fields is read beside an earlier one, if none of it has its name. -/
private theorem leadsTo_beside {name : String} (codec : Codec α) (fallback : Option α)
    {more : Fields τ} {draft last : more.Draft} {entries : List (String × Text)}
    (h : LeadsTo more.fieldOnly draft entries last) (fresh : ∀ e ∈ entries, e.1 ≠ name)
    (slot : Option α) :
    LeadsTo (field name codec fallback more).fieldOnly (slot, draft) entries (slot, last) := by
  induction h with
  | nil => exact .nil _
  | cons known own _ ih =>
    have other := fresh _ List.mem_cons_self
    refine .cons ?_ (own.map fun rest => (slot, rest))
      (ih fun e he => fresh e (List.mem_cons_of_mem _ he))
    have reads := member?_of_fieldOnly known
    simp only [fieldOnly, member?, if_neg other, reads, Option.map_some, Option.getD_some]
    rfl

theorem fst_mem_names (f : Fields τ) (values : τ) :
    ∀ e ∈ f.entries values, e.1 ∈ f.names := by
  induction f with
  | nil => exact nofun
  | field name codec fallback more ih =>
    obtain ⟨a, rest⟩ := values
    intro e he
    rcases List.mem_cons.1 he with rfl | he
    · exact List.mem_cons_self
    · exact List.mem_cons_of_mem _ (ih rest e he)

/-- The fields have names of their own, and what is written of one value of each is read as
another. -/
def ReadsAs : {τ : Type} → (f : Fields τ) → (values others : τ) → Prop
  | _, nil, _, _ => True
  | _, field name codec _ more, (a, rest), (b, others) =>
    ReadsBack codec.read (codec.write a) b ∧ name ∉ more.names ∧ more.ReadsAs rest others

theorem Lawful.readsAs {f : Fields τ} (h : f.Lawful) (values : τ) : f.ReadsAs values values := by
  induction f with
  | nil => trivial
  | field name codec fallback more ih =>
    obtain ⟨own, fresh, later⟩ := h
    exact ⟨own values.1, fresh, ih later values.2⟩

/-- The written fields are read one after the other. -/
private theorem leadsTo_entries {f : Fields τ} {values others : τ} (h : f.ReadsAs values others) :
    LeadsTo f.fieldOnly f.blank (f.entries values) (f.full others) := by
  induction f with
  | nil => exact .nil _
  | field name codec fallback more ih =>
    obtain ⟨a, rest⟩ := values
    obtain ⟨b, others⟩ := others
    obtain ⟨own, fresh, later⟩ := h
    -- The later fields are read beside the first, which none of them can change.
    have otherNames : ∀ e ∈ more.entries rest, e.1 ≠ name := by
      rintro e he rfl
      exact fresh (fst_mem_names more rest e he)
    have beside := leadsTo_beside codec fallback (ih later) otherNames (some b)
    refine .cons ?_ (own.map fun b => (some b, more.blank)) beside
    simp only [fieldOnly, member?, blank, if_pos, Option.getD_some]
    rfl

theorem takes_readMembers {f : Fields τ} {values others : τ} (h : f.ReadsAs values others)
    (rest : Text) :
    Takes f.readMembers
      ([','].intercalate ((f.entries values).map entryText) ++ '\x7d' :: rest) (f.full others)
      rest := by
  refine LeadsTo.takes ((leadsTo_entries h).mono ?_) rest
  intro draft key read known
  rw [member?_of_fieldOnly known]

end Fields

namespace Record

variable {r : Record α τ}

/-- A record is read from what is written of another, if its fields are. -/
theorem readsBack_codec {a : α} {others : τ} (fields : r.fields.ReadsAs (r.toTuple a) others) :
    ReadsBack r.codec.read (r.codec.write a) (r.ofTuple others) := by
  refine ⟨⟨'\x7b', _, rfl, by decide⟩, fun rest _ => ?_⟩
  have complete : (r.fields.complete (fun _ name => .missingField name) 0
      (r.fields.full others)).map r.ofTuple = .ok (r.ofTuple others) := by
    rw [Fields.complete_full, Except.map]
  have taken : Takes r.readObject _ (r.ofTuple others) rest :=
    takes_check_iff.2 ⟨_, Fields.takes_readMembers fields rest, complete⟩
  have text := objectText_append (r.fields.entries (r.toTuple a)) rest
  exact text ▸ Codec.takes_opened '\x7b' taken

/-- A record with lawful fields that are taken apart and put together again is read back. -/
theorem lawful (fields : r.fields.Lawful) (inverse : ∀ a, r.ofTuple (r.toTuple a) = a) :
    r.codec.Lawful := by
  intro a
  have reads := readsBack_codec (fields.readsAs (r.toTuple a))
  rwa [inverse] at reads

end Record

end Intake.Json
