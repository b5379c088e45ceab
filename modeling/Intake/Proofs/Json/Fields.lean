import Intake.Json.Codec.Record
import Intake.Proofs.Json.Members

/-!
Fields of a record by the documents that stand for their values. Reading members into fields goes
well if each name is written once at most, with a document that has a value for its field.
-/

set_option autoImplicit false
set_option relaxedAutoImplicit false

namespace Intake.Json

open Reader

section Both

variable {σ ρ ε : Type}

/-- A step of one of two states, by what is taken. -/
def advanceBoth (isFirst : ε → Bool) (first : σ → ε → Option σ) (second : ρ → ε → Option ρ)
    (state : σ × ρ) (e : ε) : Option (σ × ρ) :=
  if isFirst e then (first state.1 e).map fun next => (next, state.2)
  else (second state.2 e).map fun next => (state.1, next)

/-- Each of two states takes its own part of what is taken. -/
theorem foldlM_advanceBoth_iff (isFirst : ε → Bool) (first : σ → ε → Option σ)
    (second : ρ → ε → Option ρ) (taken : List ε) (a : σ) (b : ρ) (a' : σ) (b' : ρ) :
    taken.foldlM (advanceBoth isFirst first second) (a, b) = some (a', b') ↔
      (taken.filter isFirst).foldlM first a = some a' ∧
        (taken.filter fun e => !isFirst e).foldlM second b = some b' := by
  induction taken generalizing a b with
  | nil => simp
  | cons e taken ih =>
    rw [List.foldlM_cons]
    by_cases h : isFirst e = true
    · have own : (e :: taken).filter isFirst = e :: taken.filter isFirst := by simp [h]
      have others : (e :: taken).filter (fun e => !isFirst e) =
          taken.filter fun e => !isFirst e := by simp [h]
      rw [own, others, List.foldlM_cons]
      cases next : first a e with
      | none => simp [advanceBoth, h, next]
      | some a => simpa [advanceBoth, h, next] using ih a b
    · have own : (e :: taken).filter isFirst = taken.filter isFirst := by simp [h]
      have others : (e :: taken).filter (fun e => !isFirst e) =
          e :: taken.filter fun e => !isFirst e := by simp [h]
      rw [own, others, List.foldlM_cons]
      cases next : second b e with
      | none => simp [advanceBoth, h, next]
      | some b => simpa [advanceBoth, h, next] using ih a b

end Both

variable {α τ : Type} {limit : Nat}

/-- A reader takes what a reader of any document takes, if the document has a value. -/
def Views (limit : Nat) (read : Reader α) (view : Value → Option α) : Prop :=
  ∀ s a rest, Takes read s a rest ↔ ∃ v, Takes (document limit) s v rest ∧ view v = some a

/-- What a reader takes is a document that has the value, though it may refuse others that have
one. -/
def Sees (limit : Nat) (read : Reader α) (view : Value → Option α) : Prop :=
  ∀ s a rest, Takes read s a rest → ∃ v, Takes (document limit) s v rest ∧ view v = some a

theorem Views.sees {read : Reader α} {view : Value → Option α} (h : Views limit read view) :
    Sees limit read view :=
  fun s a rest => (h s a rest).1

namespace Codec

private theorem not_takes_refuse {wanted : String} {s rest : Text} {a : α} :
    ¬ Takes (refuse wanted) s a rest := by
  rintro ⟨_, eq⟩
  cases eq

private theorem natural_eq_ok_iff {wanted : String} {bound : Nat} {ofNumber : UInt64 → α}
    {number : Number} {a : α} :
    natural wanted bound ofNumber number = .ok a ↔
      ∃ n, number = .natural n ∧ n.toNat < bound ∧ ofNumber n = a := by
  cases number with
  | natural n =>
    by_cases below : n.toNat < bound <;> simp [natural, below]
  | negative | float => simp [natural]

theorem takes_readNumber_iff (limit : Nat) {wanted : String} {f : Number → Except Problem α}
    {s rest : Text} {a : α} :
    Takes (readNumber wanted f) s a rest ↔
      ∃ n, Takes (document limit) s (.number n) rest ∧ f n = .ok a := by
  constructor
  · intro h
    cases s with
    | nil => exact absurd h not_takes_refuse
    | cons c tail =>
      by_cases numeric : c = '-' ∨ isDigit c = true
      · have taken : Takes (check number f) (c :: tail) a rest := by
          simpa [readNumber, Takes, numeric] using h
        obtain ⟨n, hn, value⟩ := takes_check_iff.1 taken
        exact ⟨n, (DocumentForm.number numeric hn).takes, value⟩
      · have refused : Takes (refuse wanted) (c :: tail) a rest := by
          simpa [readNumber, Takes, numeric] using h
        exact absurd refused not_takes_refuse
  · rintro ⟨n, hn, value⟩
    cases takes_document_iff.1 hn with
    | number numeric h =>
      have taken := takes_check_iff.2 ⟨n, h, value⟩
      simpa [readNumber, Takes, numeric] using taken

theorem takes_readString_iff (limit : Nat) {wanted : String} {f : String → Except Problem α}
    {s rest : Text} {a : α} :
    Takes (readString wanted f) s a rest ↔
      ∃ str, Takes (document limit) s (.string str) rest ∧ f str = .ok a := by
  constructor
  · intro h
    obtain ⟨less, eq⟩ := h
    simp only [readString] at eq
    split at eq
    · obtain ⟨str, hstr, value⟩ := takes_check_iff.1 ((takes_widen_iff _).1 ⟨less, eq⟩)
      exact ⟨str, (DocumentForm.string hstr).takes, value⟩
    · exact absurd ⟨less, eq⟩ not_takes_refuse
  · rintro ⟨str, hstr, value⟩
    cases takes_document_iff.1 hstr with
    | string h => exact (takes_widen_iff (length_le_cons _)).2 (takes_check_iff.2 ⟨str, h, value⟩)

/-- The number below a bound that a document is. -/
def below? (bound : Nat) (ofNumber : UInt64 → α) (v : Value) : Option α :=
  v.natural?.bind fun n => if n.toNat < bound then some (ofNumber n) else none

theorem views_natural (limit : Nat) (wanted : String) (bound : Nat) (ofNumber : UInt64 → α) :
    Views limit (readNumber wanted (natural wanted bound ofNumber)) (below? bound ofNumber) := by
  intro s a rest
  refine (takes_readNumber_iff limit).trans ⟨?_, ?_⟩
  · rintro ⟨number, hnumber, value⟩
    obtain ⟨n, rfl, below, rfl⟩ := natural_eq_ok_iff.1 value
    exact ⟨_, hnumber, by simp [below?, Value.natural?, Number.natural?, below]⟩
  · rintro ⟨v, hv, view⟩
    obtain ⟨n, isNatural, value⟩ := Option.bind_eq_some_iff.1 view
    obtain ⟨below, eq⟩ := Option.ite_none_right_eq_some.1 value
    have natural : v = .number (.natural n) := by
      cases v with
      | number m =>
        cases m <;> cases isNatural
        rfl
      | _ => cases isNatural
    exact ⟨.natural n, natural ▸ hv, natural_eq_ok_iff.2 ⟨n, rfl, below, Option.some.inj eq⟩⟩

theorem views_uint64 (limit : Nat) (wanted : String) :
    Views limit (uint64 wanted).read Value.natural? := by
  have all : below? UInt64.size id = Value.natural? := by
    funext v
    simp [below?, UInt64.toNat_lt_size]
  exact all ▸ views_natural limit wanted UInt64.size id

theorem views_string (limit : Nat) : Views limit string.read Value.string? := by
  intro s a rest
  refine (takes_readString_iff limit).trans ⟨?_, ?_⟩
  · rintro ⟨str, hstr, value⟩
    cases value
    exact ⟨_, hstr, rfl⟩
  · rintro ⟨v, hv, view⟩
    have string : v = .string a := by
      cases v <;> cases view
      rfl
    exact ⟨a, string ▸ hv, rfl⟩

/-- The value of a document that may also be `null`. -/
def orNull (view : Value → Option α) : Value → Option (Option α)
  | .null => some none
  | v => (view v).map some

private theorem head_ne_of_ne_null {s rest : Text} {v : Value}
    (form : DocumentForm limit s v rest) (h : v ≠ .null) (tail : Text) : s ≠ 'n' :: tail := by
  rintro rfl
  cases form with
  | null => exact h rfl
  | number numeric => revert numeric; decide

theorem views_optional {c : Codec α} {view : Value → Option α} (h : Views limit c.read view)
    (noNull : view .null = none) : Views limit (optional c).read (orNull view) := by
  intro s a rest
  constructor
  · rintro ⟨less, eq⟩
    simp only [optional] at eq
    split at eq
    · obtain ⟨_, taken, rfl⟩ := takes_map_iff.1 ⟨less, eq⟩
      exact ⟨.null, (DocumentForm.null taken).takes, rfl⟩
    · obtain ⟨b, taken, rfl⟩ := takes_map_iff.1 ⟨less, eq⟩
      obtain ⟨v, hv, value⟩ := (h s b rest).1 taken
      refine ⟨v, hv, ?_⟩
      cases v with
      | null => cases noNull.symm.trans value
      | _ => simp [orNull, value]
  · rintro ⟨v, hv, value⟩
    have form := takes_document_iff.1 hv
    by_cases isNull : v = .null
    · subst isNull
      cases value
      cases form with
      | null taken => exact takes_map_iff.2 ⟨(), taken, rfl⟩
    · have present : ∃ b, view v = some b ∧ some b = a := by
        cases v <;> first | exact absurd rfl isNull | exact Option.map_eq_some_iff.1 value
      obtain ⟨b, hb, rfl⟩ := present
      obtain ⟨less, eq⟩ := takes_map_iff.2 ⟨b, (h s b rest).2 ⟨v, hv, hb⟩, rfl⟩
      refine ⟨less, ?_⟩
      simp only [optional]
      split
      · exact absurd rfl (head_ne_of_ne_null form isNull _)
      · exact eq

end Codec

namespace Fields

/-- The names of the fields. -/
def names : {τ : Type} → Fields τ → List String
  | _, nil => []
  | _, field name _ _ more => name :: more.names

/-- For each field, the values that documents have for it. -/
def Sights : {τ : Type} → Fields τ → Type
  | _, nil => Unit
  | _, @field α _ _ _ _ more => (Value → Option α) × more.Sights

/-- The codecs of all fields read the values that documents have for them. -/
def Sighted (limit : Nat) : {τ : Type} → (f : Fields τ) → f.Sights → Prop
  | _, nil, _ => True
  | _, @field α _ _ codec _ more, sights =>
    let (view, sights) : (Value → Option α) × more.Sights := sights
    Views limit codec.read view ∧ more.Sighted limit sights

/-- The codecs of all fields take only documents that have a value for them. -/
def Seen (limit : Nat) : {τ : Type} → (f : Fields τ) → f.Sights → Prop
  | _, nil, _ => True
  | _, @field α _ _ codec _ more, sights =>
    let (view, sights) : (Value → Option α) × more.Sights := sights
    Sees limit codec.read view ∧ more.Seen limit sights

theorem Sighted.seen {f : Fields τ} {sights : f.Sights} (h : f.Sighted limit sights) :
    f.Seen limit sights := by
  induction f with
  | nil => trivial
  | field name codec fallback more ih => exact ⟨h.1.sees, ih h.2⟩

/-- Puts the value of a document into a field, unless it has one already. -/
def fill {α : Type} (view : Value → Option α) (slot : Option α) (v : Value) : Option (Option α) :=
  if slot.isSome then none else (view v).map some

/-- Puts the value of a document into the field with a name. -/
def put : {τ : Type} → (f : Fields τ) → f.Sights → f.Draft → String × Value → Option f.Draft
  | _, nil, _, _, _ => none
  | _, @field α _ name _ _ more, sights, draft, e =>
    let (view, sights) : (Value → Option α) × more.Sights := sights
    advanceBoth (fun e => e.1 = name) (fun slot e => fill view slot e.2) (more.put sights) draft e

theorem member?_eq_none_iff (f : Fields τ) (draft : f.Draft) (key : String) :
    f.member? draft key = none ↔ key ∉ f.names := by
  induction f with
  | nil => simp [member?, names]
  | field name codec fallback more ih =>
    obtain ⟨slot, rest⟩ := draft
    simp only [member?, names, List.mem_cons]
    by_cases h : key = name
    · cases slot <;> simp [h]
    · simp [h, ih]

/-- What a reader of a member takes is put into its field. -/
theorem put_of_takes_member? (f : Fields τ) {sights : f.Sights} (seen : f.Seen limit sights)
    {draft next : f.Draft} {key : String} {read : Reader f.Draft} {s rest : Text}
    (known : f.member? draft key = some (.ok read)) (taken : Takes read s next rest) :
    ∃ v, Takes (document limit) s v rest ∧ f.put sights draft (key, v) = some next := by
  induction f with
  | nil => cases known
  | field name codec fallback more ih =>
    obtain ⟨slot, others⟩ := draft
    obtain ⟨view, sights⟩ := sights
    obtain ⟨own, seen⟩ := seen
    by_cases eq : key = name
    · cases slot with
      | some a => simp [member?, eq] at known
      | none =>
        simp only [member?, eq, if_true] at known
        cases known
        obtain ⟨a, ha, rfl⟩ := takes_map_iff.1 taken
        obtain ⟨v, hv, value⟩ := own s a rest ha
        refine ⟨v, hv, ?_⟩
        simp only [put, advanceBoth, fill, eq, value, decide_true, if_true]
        rfl
    · simp only [member?, eq, if_false] at known
      obtain ⟨inner, hinner, mapped⟩ := Option.map_eq_some_iff.1 known
      cases inner with
      | error problem => cases mapped
      | ok inner =>
        cases mapped
        obtain ⟨others', hothers, rfl⟩ := takes_map_iff.1 taken
        obtain ⟨v, hv, value⟩ := ih seen hinner hothers
        refine ⟨v, hv, ?_⟩
        simp only [put, advanceBoth, eq, value, decide_false]
        rfl

/-- The reader of a member takes what its field does. -/
theorem takes_member?_iff (f : Fields τ) {sights : f.Sights} (h : f.Sighted limit sights)
    (draft : f.Draft) (key : String) (s rest : Text) (next : f.Draft) :
    (∃ read, f.member? draft key = some (.ok read) ∧ Takes read s next rest) ↔
      ∃ v, Takes (document limit) s v rest ∧ f.put sights draft (key, v) = some next := by
  refine ⟨fun ⟨read, known, taken⟩ => f.put_of_takes_member? h.seen known taken, ?_⟩
  rintro ⟨v, hv, value⟩
  induction f with
  | nil => cases value
  | field name codec fallback more ih =>
    obtain ⟨slot, others⟩ := draft
    obtain ⟨view, sights⟩ := sights
    obtain ⟨own, h⟩ := h
    by_cases eq : key = name
    · cases slot with
      | some a => simp [put, advanceBoth, fill, eq] at value
      | none =>
        simp only [member?, put, advanceBoth, fill, eq, if_pos, decide_true] at value ⊢
        obtain ⟨slot, filled, rfl⟩ := Option.map_eq_some_iff.1 value
        obtain ⟨a, ha, rfl⟩ := Option.map_eq_some_iff.1 filled
        exact ⟨_, rfl, takes_map_iff.2 ⟨a, (own s a rest).2 ⟨v, hv, ha⟩, rfl⟩⟩
    · simp only [member?, put, advanceBoth, eq, if_false, decide_false] at value ⊢
      obtain ⟨others', hothers, rfl⟩ := Option.map_eq_some_iff.1 value
      obtain ⟨inner, hinner, taken⟩ := ih h others others' hothers
      exact ⟨_, by rw [hinner]; rfl, takes_map_iff.2 ⟨others', taken, rfl⟩⟩

/-- What a field holds after some values were written for it. -/
def Holds {α : Type} (view : Value → Option α) : List Value → Option α → Prop
  | [], slot => slot = none
  | [v], slot => ∃ a, view v = some a ∧ slot = some a
  | _, _ => False

theorem holds_orNull_iff (view : Value → Option α) (noNull : view .null = none)
    (values : List Value) (slot : Option (Option α)) :
    Holds (Codec.orNull view) values slot ↔
      values.length ≤ 1 ∧ (∀ v ∈ values.getLast?, v = .null ∨ (view v).isSome) ∧
        slot = values.getLast?.map view := by
  match values with
  | [] => simp [Holds]
  | [v] =>
    by_cases isNull : v = .null
    · subst isNull
      simp [Holds, Codec.orNull, noNull]
    · have value : Codec.orNull view v = (view v).map some := by
        cases v <;> first | exact absurd rfl isNull | rfl
      cases h : view v <;> simp [Holds, value, h, isNull]
  | v :: w :: more => simp [Holds]

/-- What the fields hold after some members were written. -/
def Filled : {τ : Type} → (f : Fields τ) → f.Sights → List (String × Value) → f.Draft → Prop
  | _, nil, _, _, _ => True
  | _, @field α _ name _ _ more, sights, entries, draft =>
    let (view, sights) : (Value → Option α) × more.Sights := sights
    let (slot, rest) : Option α × more.Draft := draft
    Holds view (valuesOf name entries) slot ∧ more.Filled sights entries rest

theorem filled_congr {f : Fields τ} {entries others : List (String × Value)}
    (h : ∀ name ∈ f.names, valuesOf name entries = valuesOf name others) (sights : f.Sights)
    (draft : f.Draft) : f.Filled sights entries draft ↔ f.Filled sights others draft := by
  induction f with
  | nil => exact Iff.rfl
  | field name codec fallback more ih =>
    obtain ⟨view, sights⟩ := sights
    obtain ⟨slot, rest⟩ := draft
    have own := h name List.mem_cons_self
    have later := ih (fun name hname => h name (List.mem_cons_of_mem _ hname)) sights rest
    simp only [Filled, own, later]

private theorem foldlM_fill_iff {α : Type} (view : Value → Option α) (values : List Value)
    (slot : Option α) :
    values.foldlM (fill view) none = some slot ↔ Holds view values slot := by
  match values with
  | [] => simp [Holds, eq_comm]
  | [v] =>
    cases h : view v with
    | none => simp [Holds, fill, h]
    | some a =>
      have filled : [v].foldlM (fill view) none = some (some a) := by simp [fill, h]
      rw [filled]
      simp [Holds, h, eq_comm]
  | v :: w :: more =>
    cases h : view v with
    | none => simp [Holds, fill, h]
    | some a => simp [Holds, fill, h]

/-- Putting members into fields of different names, one after the other, fills the fields. -/
theorem foldlM_put_iff {f : Fields τ} (distinct : f.names.Nodup) (sights : f.Sights)
    {entries : List (String × Value)} (known : ∀ e ∈ entries, e.1 ∈ f.names) (draft : f.Draft) :
    entries.foldlM (f.put sights) f.blank = some draft ↔ f.Filled sights entries draft := by
  induction f generalizing entries with
  | nil =>
    cases entries with
    | nil => exact iff_of_true rfl trivial
    | cons e entries => exact absurd (known e List.mem_cons_self) List.not_mem_nil
  | field name codec fallback more ih =>
    obtain ⟨view, sights⟩ := sights
    obtain ⟨slot, rest⟩ := draft
    obtain ⟨fresh, distinct⟩ := List.nodup_cons.1 distinct
    have own := foldlM_fill_iff view (valuesOf name entries) slot
    rw [valuesOf, List.foldlM_map] at own
    have knownLater : ∀ e ∈ entries.filter fun e => !decide (e.1 = name), e.1 ∈ more.names := by
      intro e he
      obtain ⟨he, ne⟩ := List.mem_filter.1 he
      exact (List.mem_cons.1 (known e he)).resolve_left (by simpa using ne)
    have others := ih distinct sights knownLater rest
    have same : ∀ other ∈ more.names,
        valuesOf other (entries.filter fun e => !decide (e.1 = name)) = valuesOf other entries := by
      intro other hother
      apply valuesOf_filter
      intro e he
      have ne : e.1 ≠ name := fun eq => fresh (eq ▸ he ▸ hother)
      simpa using ne
    have both := foldlM_advanceBoth_iff (fun e : String × Value => decide (e.1 = name))
      (fun slot e => fill view slot e.2) (more.put sights) entries none more.blank slot rest
    exact both.trans (and_congr own (others.trans (filled_congr same sights rest)))

/-- Putting those members into fields that have the name of one fills the fields. -/
theorem foldlM_put_own_iff {f : Fields τ} (distinct : f.names.Nodup) (sights : f.Sights)
    (entries : List (String × Value)) (draft : f.Draft) :
    (entries.filter fun e => f.names.contains e.1).foldlM (f.put sights) f.blank = some draft ↔
      f.Filled sights entries draft := by
  have known : ∀ e ∈ entries.filter fun e => f.names.contains e.1, e.1 ∈ f.names := by
    intro e he
    simpa using (List.mem_filter.1 he).2
  have same : ∀ name ∈ f.names,
      valuesOf name (entries.filter fun e => f.names.contains e.1) = valuesOf name entries := by
    intro name hname
    apply valuesOf_filter
    rintro e rfl
    simpa using hname
  exact (foldlM_put_iff distinct sights known draft).trans (filled_congr same sights draft)

end Fields

end Intake.Json
