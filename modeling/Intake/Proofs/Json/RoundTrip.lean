import Intake.Proofs.Json.ReadBack

/-!
Documents and their own texts. A document without binary numbers is read from its text, if it is
not nested too deep; and the members of an object are read as they were written, whatever their
order.
-/

set_option autoImplicit false
set_option relaxedAutoImplicit false

namespace Intake.Json

open Reader

namespace Value

mutual

/-- A document and everything inside of it. -/
def parts : Value → List Value
  | array items => array items :: itemParts items
  | object members => object members :: memberParts members
  | v => [v]

def itemParts : List Value → List Value
  | [] => []
  | v :: rest => v.parts ++ itemParts rest

def memberParts : Keyed String Value → List Value
  | ⟨_, _, value⟩ => (List.ofFn fun i => (value i).parts).flatten

end

mutual

/-- How deep the arrays and objects of a document stand inside each other. -/
def depth : Value → Nat
  | array items => itemsDepth items + 1
  | object members => membersDepth members + 1
  | _ => 0

def itemsDepth : List Value → Nat
  | [] => 0
  | v :: rest => max v.depth (itemsDepth rest)

def membersDepth : Keyed String Value → Nat
  | ⟨_, _, value⟩ => (List.ofFn fun i => (value i).depth).foldr max 0

end

/-- All numbers in a document are whole. -/
def Whole (v : Value) : Prop := ∀ x finite, number (.float x finite) ∉ v.parts

def isFloat : Value → Bool
  | number (.float ..) => true
  | _ => false

theorem whole_iff {v : Value} : v.Whole ↔ ∀ w ∈ v.parts, w.isFloat = false := by
  constructor
  · intro whole w mem
    cases w with
    | number n =>
      cases n with
      | float x finite => exact absurd mem (whole x finite)
      | _ => rfl
    | _ => rfl
  · exact fun none x finite mem => Bool.noConfusion (none _ mem)

instance (v : Value) : Decidable v.Whole := decidable_of_iff _ whole_iff.symm

/-- What holds of an array if it holds of its items, and of an object if it holds of the values of
its members, holds of every document. -/
@[elab_as_elim]
theorem inductionOn {motive : Value → Prop} (v : Value) (null : motive null)
    (bool : ∀ b, motive (bool b)) (number : ∀ n, motive (number n))
    (string : ∀ s, motive (string s))
    (array : ∀ items, (∀ v ∈ items, motive v) → motive (array items))
    (object : ∀ members, (∀ e ∈ members.entries, motive e.2) → motive (object members)) :
    motive v := by
  refine @Value.rec motive (fun items => ∀ v ∈ items, motive v)
    (fun members => ∀ e ∈ members.entries, motive e.2)
    null bool number string array object ?_ ?_ ?_ v
  · exact fun _ h => nomatch h
  · exact fun w rest own others => List.forall_mem_cons.2 ⟨own, others⟩
  · intro keys increasing value own e he
    obtain ⟨i, rfl⟩ := List.mem_ofFn.1 he
    exact own i

theorem itemChars_eq (items : List Value) : itemChars items = items.map chars := by
  induction items with
  | nil => rfl
  | cons v rest ih => rw [itemChars, ih, List.map_cons]

/-- Members with the texts of their values. -/
def memberTexts (members : List (String × Value)) : List (String × Text) :=
  members.map fun e => (e.1, e.2.chars)

theorem memberChars_eq (members : Object) : memberChars members = memberTexts members.entries := by
  rw [memberTexts, Keyed.entries, List.map_ofFn]
  cases members
  rfl

theorem memberParts_eq (members : Object) :
    memberParts members = members.entries.flatMap fun e => e.2.parts := by
  rw [List.flatMap_def, Keyed.entries, List.map_ofFn]
  cases members
  rfl

theorem membersDepth_eq (members : Object) :
    membersDepth members = (members.entries.map fun e => e.2.depth).foldr max 0 := by
  rw [Keyed.entries, List.map_ofFn]
  cases members
  rfl

theorem mem_itemParts {items : List Value} {v w : Value} (hv : v ∈ items) (hw : w ∈ v.parts) :
    w ∈ itemParts items := by
  induction items with
  | nil => cases hv
  | cons head rest ih =>
    rw [itemParts, List.mem_append]
    rcases List.mem_cons.1 hv with rfl | hv
    · exact .inl hw
    · exact .inr (ih hv)

theorem mem_memberParts {members : Object} {e : String × Value} {w : Value}
    (he : e ∈ members.entries) (hw : w ∈ e.2.parts) : w ∈ memberParts members := by
  rw [memberParts_eq, List.mem_flatMap]
  exact ⟨e, he, hw⟩

theorem itemsDepth_le_iff {items : List Value} {n : Nat} :
    itemsDepth items ≤ n ↔ ∀ v ∈ items, v.depth ≤ n := by
  induction items with
  | nil => simp [itemsDepth]
  | cons v items ih => simp [itemsDepth, ih]

theorem depth_le_itemsDepth {items : List Value} {v : Value} (h : v ∈ items) :
    v.depth ≤ itemsDepth items :=
  itemsDepth_le_iff.1 le_rfl v h

theorem membersDepth_le_iff {members : Object} {n : Nat} :
    membersDepth members ≤ n ↔ ∀ e ∈ members.entries, e.2.depth ≤ n := by
  rw [membersDepth_eq]
  induction members.entries with
  | nil => simp
  | cons e rest ih => simp [ih]

theorem depth_le_membersDepth {members : Object} {e : String × Value} (h : e ∈ members.entries) :
    e.2.depth ≤ membersDepth members :=
  membersDepth_le_iff.1 le_rfl e h

end Value

theorem visible_of_numeric {c : Char} (h : c = '-' ∨ isDigit c = true) :
    isBlank c = false ∧ c ≠ ']' := by
  constructor
  · by_contra blank
    simp only [isBlank, Bool.not_eq_false, Bool.or_eq_true, beq_iff_eq] at blank
    rcases blank with ((rfl | rfl) | rfl) | rfl <;> revert h <;> decide
  · rintro rfl
    revert h
    decide

private theorem readsBack_word {w : String} {limit : Nat} {v : Value} {c : Char} {tail : Text}
    (text : w.toList = c :: tail) (visible : isBlank c = false ∧ c ≠ ']')
    (form : ∀ {more rest : Text}, Takes (word w) (c :: more) () rest →
      DocumentForm limit (c :: more) v rest) : ReadsBack (document limit) w.toList v where
  begins := ⟨c, tail, text, visible⟩
  takes rest _ := by
    have expected (word : Text) : ∃ h, expectWord word (word ++ rest) = .ok ⟨rest, h⟩ := by
      induction word with
      | nil => exact ⟨length_le_self _, rfl⟩
      | cons d word ih =>
        obtain ⟨h, eq⟩ := ih
        exact ⟨Nat.le_succ_of_le h, by simp [expectWord, eq]⟩
    obtain ⟨h, eq⟩ := expected tail
    have taken : Takes (word w) (c :: (tail ++ rest)) () rest :=
      ⟨Nat.lt_succ_of_le h, by simp [word, text, eq]⟩
    rw [text]
    exact (form taken).takes

theorem readsBack_null (limit : Nat) : ReadsBack (document limit) "null".toList .null :=
  readsBack_word rfl (by decide) .null

/-- The text of a whole number is read back as a document. -/
theorem readsBack_number {limit : Nat} {n : Number} (whole : ∀ x finite, n ≠ .float x finite) :
    ReadsBack (document limit) n.text (.number n) := by
  cases n with
  | natural n =>
    obtain ⟨c, tail, digits, digit⟩ := exists_digitChars_eq_cons n.toNat
    refine ⟨⟨c, tail, digits, visible_of_numeric (.inr digit)⟩, fun rest ends => ?_⟩
    have taken := takes_number_natural n ends
    rw [digits] at taken
    rw [Number.text, digits]
    exact (DocumentForm.number (.inr digit) taken).takes
  | negative k =>
    refine ⟨⟨'-', _, rfl, by decide⟩, fun rest ends => ?_⟩
    exact (DocumentForm.number (.inl rfl) (takes_number_negative k ends)).takes
  | float x finite => exact absurd rfl (whole x finite)

theorem readsBack_natural (limit : Nat) (n : UInt64) :
    ReadsBack (document limit) (Value.number (.natural n)).chars (.number (.natural n)) := by
  have whole : ∀ x finite, Number.natural n ≠ .float x finite := nofun
  exact readsBack_number whole

theorem readsBack_string (limit : Nat) (str : String) :
    ReadsBack (document limit) (stringText str) (.string str) where
  begins := ⟨'"', _, rfl, by decide⟩
  takes rest _ := by
    have taken := takes_stringBody str rest
    rw [stringText, List.cons_append, List.append_assoc]
    exact (DocumentForm.string taken).takes

theorem readsBack_array {limit : Nat} {items : List Value}
    (h : ∀ v ∈ items, ReadsBack (document limit) v.chars v) :
    ReadsBack (document (limit + 1)) (Value.array items).chars (.array items) where
  begins := ⟨'[', _, rfl, by decide⟩
  takes rest _ := by
    have taken := takes_items h rest
    have form := DocumentForm.array taken
    rw [List.reverse_reverse] at form
    rw [Value.chars, Value.itemChars_eq, arrayText_append]
    exact form.takes

/-- Documents for the keys of an object are read one after the other from their texts. -/
theorem LeadsTo.of_texts {σ : Type} {limit : Nat}
    {member : σ → String → Except Problem (Reader σ)} {f : σ → String × Value → σ}
    (keeps : ∀ state key,
      member state key = .ok (Reader.map (fun v => f state (key, v)) (document limit)))
    {entries : List (String × Text × Value)}
    (h : ∀ e ∈ entries, ReadsBack (document limit) e.2.1 e.2.2) (state : σ) :
    LeadsTo member state (entries.map fun e => (e.1, e.2.1))
      ((entries.map fun e => (e.1, e.2.2)).foldl f state) := by
  induction entries generalizing state with
  | nil => exact .nil state
  | cons e rest ih =>
    have own := (h e List.mem_cons_self).map fun v => f state (e.1, v)
    exact .cons (keeps state e.1) own (ih (fun e' he => h e' (List.mem_cons_of_mem _ he)) _)

/-- The members of an object, each with its own text. -/
def withTexts (members : List (String × Value)) : List (String × Text × Value) :=
  members.map fun e => (e.1, e.2.chars, e.2)

theorem texts_withTexts (members : List (String × Value)) :
    (withTexts members).map (fun e => (e.1, e.2.1)) = Value.memberTexts members := by
  rw [withTexts, List.map_map]
  rfl

theorem values_withTexts (members : List (String × Value)) :
    (withTexts members).map (fun e => (e.1, e.2.2)) = members := by
  rw [withTexts, List.map_map]
  exact List.map_id _

theorem forall_withTexts {limit : Nat} {members : List (String × Value)}
    (h : ∀ e ∈ members, ReadsBack (document limit) e.2.chars e.2) :
    ∀ e ∈ withTexts members, ReadsBack (document limit) e.2.1 e.2.2 := by
  intro e he
  obtain ⟨member, hm, rfl⟩ := List.mem_map.1 he
  exact h member hm

theorem readsBack_object {limit : Nat} {members : Object}
    (h : ∀ e ∈ members.entries, ReadsBack (document limit) e.2.chars e.2) :
    ReadsBack (document (limit + 1)) (Value.object members).chars (.object members) where
  begins := ⟨'\x7b', _, rfl, by decide⟩
  takes rest _ := by
    let insert (m : Object) (e : String × Value) : Object := m.insert e.1 e.2
    have keeps (m : Object) (key : String) :
        objectMember limit m key =
          .ok (Reader.map (fun v => insert m (key, v)) (document limit)) := rfl
    have leads := LeadsTo.of_texts keeps (forall_withTexts h) .empty
    rw [texts_withTexts, values_withTexts] at leads
    have taken : Takes _ _ (Keyed.ofEntries members.entries) rest := leads.takes rest
    rw [Keyed.ofEntries_entries] at taken
    rw [Value.chars, Value.memberChars_eq, objectText_append]
    exact (DocumentForm.object taken).takes

namespace Value

private theorem whole_of_mem {v w : Value} (h : v.Whole) (sub : ∀ u ∈ w.parts, u ∈ v.parts) :
    w.Whole := fun x finite hx => h x finite (sub _ hx)

/-- A document is read back from its text. -/
theorem readsBack (v : Value) {limit : Nat} (deep : v.depth ≤ limit) (whole : v.Whole) :
    ReadsBack (document limit) v.chars v := by
  -- Each array and each object takes one from the limit, so the limit goes down with the document.
  induction v using inductionOn generalizing limit with
  | null => exact readsBack_null limit
  | bool b =>
    cases b with
    | true => exact readsBack_word rfl (by decide) .true
    | false => exact readsBack_word rfl (by decide) .false
  | number n => exact readsBack_number fun x finite eq => whole x finite (eq ▸ List.mem_cons_self)
  | string s => exact readsBack_string limit s
  | array items ih =>
    cases limit with
    | zero => cases deep
    | succ limit =>
      refine readsBack_array fun v hv => ?_
      have inside : ∀ u ∈ v.parts, u ∈ (Value.array items).parts := fun u hu =>
        List.mem_cons_of_mem _ (mem_itemParts hv hu)
      exact ih v hv ((depth_le_itemsDepth hv).trans (Nat.le_of_succ_le_succ deep))
        (whole_of_mem whole inside)
  | object members ih =>
    cases limit with
    | zero => cases deep
    | succ limit =>
      refine readsBack_object fun e he => ?_
      have inside : ∀ u ∈ e.2.parts, u ∈ (Value.object members).parts := fun u hu =>
        List.mem_cons_of_mem _ (mem_memberParts he hu)
      exact ih e he ((depth_le_membersDepth he).trans (Nat.le_of_succ_le_succ deep))
        (whole_of_mem whole inside)

/-- The text of a document is read as that document. -/
theorem parse_text (v : Value) (deep : v.depth ≤ nestingLimit) (whole : v.Whole) :
    parse v.text = .ok v := by
  rw [parse, text, String.toList_ofList]
  exact (v.readsBack deep whole).afterBlanks.whole_eq_ok

theorem readsBack_of_mem {members : Object} {limit : Nat}
    (deep : (object members).depth ≤ limit + 1) (whole : (object members).Whole) :
    ∀ e ∈ members.entries, ReadsBack (document limit) e.2.chars e.2 := by
  intro e he
  have inside : ∀ u ∈ e.2.parts, u ∈ (object members).parts := fun u hu =>
    List.mem_cons_of_mem _ (mem_memberParts he hu)
  exact e.2.readsBack ((depth_le_membersDepth he).trans (Nat.le_of_succ_le_succ deep))
    (whole_of_mem whole inside)

/-- The members of an object are read from their texts, in any order and repeated or not. -/
theorem written_of_texts {entries : List (String × Text × Value)}
    (h : ∀ e ∈ entries, ReadsBack (document (nestingLimit - 1)) e.2.1 e.2.2) :
    written (String.ofList (objectText (entries.map fun e => (e.1, e.2.1)))) =
      .ok (entries.map fun e => (e.1, e.2.2)) := by
  let append (entries : List (String × Value)) (e : String × Value) := entries ++ [e]
  have all (before members : List (String × Value)) :
      members.foldl append before = before ++ members := by
    induction members generalizing before with
    | nil => simp
    | cons e rest ih =>
      rw [List.foldl_cons, ih]
      simp [append]
  have keeps (entries : List (String × Value)) (key : String) :
      appendMember (nestingLimit - 1) entries key =
        .ok (Reader.map (fun v => append entries (key, v)) (document (nestingLimit - 1))) := rfl
  have taken := (LeadsTo.of_texts keeps h []).takes []
  rw [all, List.nil_append] at taken
  have text := objectText_append (entries.map fun e => (e.1, e.2.1)) []
  rw [List.append_nil] at text
  rw [written, String.toList_ofList, whole_braced_eq_ok_iff, text]
  exact ⟨_, [], trimBlanks_cons (by decide) _, taken, rfl⟩

/-- The members of an object are read as they are written. -/
theorem written_objectText {members : List (String × Value)}
    (h : ∀ e ∈ members, ReadsBack (document (nestingLimit - 1)) e.2.chars e.2) :
    written (String.ofList (objectText (memberTexts members))) = .ok members := by
  have read := written_of_texts (forall_withTexts h)
  rwa [texts_withTexts, values_withTexts] at read

theorem parse_objectText {members : List (String × Value)}
    (h : ∀ e ∈ members, ReadsBack (document (nestingLimit - 1)) e.2.chars e.2) :
    parse (String.ofList (objectText (memberTexts members))) =
      .ok (.object (Keyed.ofEntries members)) :=
  parse_eq_ok_object_iff.2 ⟨members, written_objectText h, rfl⟩

end Value

end Intake.Json
