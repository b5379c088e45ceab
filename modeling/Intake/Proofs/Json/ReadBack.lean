import Intake.Proofs.Json.Between
import Intake.Proofs.Json.Members
import Intake.Proofs.Json.Numeral

/-!
Texts that are read back, whatever follows them. Between brackets, what was written part by part is
read part by part: the items of an array, and the entries of an object with a state that each of
them may change.
-/

set_option autoImplicit false
set_option relaxedAutoImplicit false

namespace Intake.Json

open Reader

variable {α σ : Type}

/-- A text that a reader takes as `a`, whatever follows that does not go on with a number. It can
be told from a blank and from the end of an array. -/
structure ReadsBack (read : Reader α) (text : Text) (a : α) : Prop where
  begins : ∃ c tail, text = c :: tail ∧ isBlank c = false ∧ c ≠ ']'
  takes : ∀ rest, EndsNumber rest → Takes read (text ++ rest) a rest

theorem trimBlanks_cons {c : Char} (h : isBlank c = false) (s : Text) :
    trimBlanks (c :: s) = c :: s := by
  simp [trimBlanks, h]

namespace ReadsBack

variable {read : Reader α} {text : Text} {a : α}

theorem trimBlanks_append (h : ReadsBack read text a) (rest : Text) :
    trimBlanks (text ++ rest) = text ++ rest := by
  obtain ⟨c, tail, rfl, visible, _⟩ := h.begins
  exact trimBlanks_cons visible (tail ++ rest)

theorem afterBlanks (h : ReadsBack read text a) : ReadsBack (Reader.afterBlanks read) text a where
  begins := h.begins
  takes rest ends := by
    rw [takes_afterBlanks_iff, h.trimBlanks_append]
    exact h.takes rest ends

theorem map {β : Type} (h : ReadsBack read text a) (f : α → β) :
    ReadsBack (Reader.map f read) text (f a) where
  begins := h.begins
  takes rest ends := takes_map_iff.2 ⟨a, h.takes rest ends, rfl⟩

/-- A text that is read back is read as a whole. -/
theorem whole_eq_ok (h : ReadsBack read text a) : whole read text = .ok a := by
  have taken := h.takes [] endsNumber_nil
  rw [List.append_nil] at taken
  exact whole_eq_ok_iff.2 ⟨[], taken, rfl⟩

end ReadsBack

/-! ### Arrays -/

section Items

variable {item : σ → Reader σ} {state next last : σ} {text more rest : Text}
  (own : ReadsBack (item state) text next) (ends : EndsNumber more)
  (later : Takes (foldItems item next false) more last rest)

include own ends later

private theorem takes_foldItems_first :
    Takes (foldItems item state true) (text ++ more) last rest := by
  obtain ⟨c, tail, rfl, _, opens⟩ := own.begins
  obtain ⟨start, hstart, eq⟩ := nextItem_first_iff.2 ⟨own.trimBlanks_append more, opens⟩
  exact takes_foldItems_iff.2 (.inr ⟨start, next, more, hstart, eq ▸ own.takes more ends, later⟩)

private theorem takes_foldItems_later :
    Takes (foldItems item state false) (',' :: (text ++ more)) last rest := by
  obtain ⟨c, tail, rfl, _, opens⟩ := own.begins
  have comma := trimBlanks_cons (c := ',') (by decide) (c :: tail ++ more)
  obtain ⟨start, hstart, eq⟩ :=
    nextItem_later_iff.2 ⟨_, comma, own.trimBlanks_append more, opens⟩
  exact takes_foldItems_iff.2 (.inr ⟨start, next, more, hstart, eq ▸ own.takes more ends, later⟩)

end Items

private theorem takes_foldItems_closed {item : σ → Reader σ} (state : σ) (isFirst : Bool)
    (rest : Text) : Takes (foldItems item state isFirst) (']' :: rest) state rest := by
  obtain ⟨closed, next, eq⟩ :=
    nextItem_closed_iff.2 (trimBlanks_cons (c := ']') (by decide) rest)
  exact takes_foldItems_iff.2 (.inl ⟨closed, next, eq, rfl⟩)

theorem intercalate_cons {β : Type} (sep : List β) (x : List β) (xs : List (List β)) :
    sep.intercalate (x :: xs) = x ++ xs.flatMap (sep ++ ·) := by
  induction xs generalizing x with
  | nil => simp
  | cons y xs ih => rw [List.intercalate_cons_cons, ih]; simp

theorem arrayText_append (items : List Text) (rest : Text) :
    arrayText items ++ rest = '[' :: ([','].intercalate items ++ ']' :: rest) := by
  rw [arrayText, bracketed, List.cons_append, List.append_assoc, List.singleton_append]

/-- Puts each value that a reader takes in front of those before it. -/
def collect (read : Reader α) (items : List α) : Reader (List α) :=
  Reader.map (fun a => a :: items) read

private theorem endsNumber_later (texts : List Text) {c : Char} (closes : c = ']' ∨ c = '\x7d')
    (rest : Text) : EndsNumber (texts.flatMap (fun t => ',' :: t) ++ c :: rest) := by
  cases texts with
  | nil => rcases closes with rfl | rfl <;> simp [endsNumber_cons] <;> decide
  | cons t texts => simp [endsNumber_cons]; decide

section List

variable {read : Reader α} {write : α → Text}

private theorem takes_laterItems {items : List α} (h : ∀ a ∈ items, ReadsBack read (write a) a)
    (before : List α) (rest : Text) :
    Takes (foldItems (collect read) before false)
      ((items.map write).flatMap (fun t => ',' :: t) ++ ']' :: rest) (items.reverse ++ before)
      rest := by
  -- Each item is put in front of those before it, so they end up in reverse.
  induction items generalizing before with
  | nil => exact takes_foldItems_closed before false rest
  | cons a items ih =>
    have own : ReadsBack (collect read before) (write a) (a :: before) :=
      (h a List.mem_cons_self).map (· :: before)
    have later := ih (fun b hb => h b (List.mem_cons_of_mem _ hb)) (a :: before)
    have taken := takes_foldItems_later own (endsNumber_later _ (.inl rfl) rest) later
    simpa using taken

/-- The text of an array is read item by item, up to its closing bracket. -/
theorem takes_items {items : List α} (h : ∀ a ∈ items, ReadsBack read (write a) a) (rest : Text) :
    Takes (foldItems (collect read) [] true)
      ([','].intercalate (items.map write) ++ ']' :: rest) items.reverse rest := by
  cases items with
  | nil => exact takes_foldItems_closed [] true rest
  | cons a items =>
    have own : ReadsBack (collect read []) (write a) [a] :=
      (h a List.mem_cons_self).map (· :: [])
    have later := takes_laterItems (fun b hb => h b (List.mem_cons_of_mem _ hb)) [a] rest
    have taken := takes_foldItems_first own (endsNumber_later _ (.inl rfl) rest) later
    rw [List.map_cons, intercalate_cons, List.append_assoc, List.reverse_cons]
    exact taken

end List

/-! ### Objects -/

private theorem takes_colon (rest : Text) : Takes colon (':' :: rest) () rest := by
  rw [colon, takes_afterBlanks_iff, trimBlanks_cons (by decide)]
  exact ⟨length_lt_cons rest, rfl⟩

theorem takes_stringBody (s : String) (rest : Text) :
    Takes stringBody (escapeAll s.toList ++ '"' :: rest) s rest :=
  takes_map_iff.2 ⟨s.toList, takes_escapeAll s.toList rest, String.ofList_toList⟩

/-- The text of one member of an object. -/
def entryText (e : String × Text) : Text := stringText e.1 ++ ':' :: e.2

theorem objectText_append (entries : List (String × Text)) (rest : Text) :
    objectText entries ++ rest =
      '\x7b' :: ([','].intercalate (entries.map entryText) ++ '\x7d' :: rest) := by
  have text : objectText entries =
      '\x7b' :: ([','].intercalate (entries.map entryText) ++ ['\x7d']) := rfl
  rw [text, List.cons_append, List.append_assoc, List.singleton_append]

/-- Reading the entries one after the other leads from one state to another. -/
inductive LeadsTo (member : σ → String → Except Problem (Reader σ)) :
    σ → List (String × Text) → σ → Prop where
  | nil (state : σ) : LeadsTo member state [] state
  | cons {state next last : σ} {key : String} {text : Text} {entries : List (String × Text)}
      {read : Reader σ} (known : member state key = .ok read) (own : ReadsBack read text next)
      (later : LeadsTo member next entries last) :
      LeadsTo member state ((key, text) :: entries) last

section Entries

variable {member : σ → String → Except Problem (Reader σ)} {state next last : σ} {key : String}
  {text more rest : Text} {read : Reader σ}

private theorem takes_readMember (known : member state key = .ok read)
    (own : ReadsBack read text next) (ends : EndsNumber more) :
    Takes (readMember member state) (escapeAll key.toList ++ '"' :: ':' :: (text ++ more)) next
      more :=
  takes_readMember_iff.2 ⟨key, _, _, read, takes_stringBody key _, known, takes_colon _,
    own.afterBlanks.takes more ends⟩

section Step

variable (known : member state key = .ok read) (own : ReadsBack read text next)
  (ends : EndsNumber more) (later : Takes (foldMembers member next false) more last rest)

include known own ends later

private theorem takes_foldMembers_first :
    Takes (foldMembers member state true) (entryText (key, text) ++ more) last rest := by
  obtain ⟨start, hstart, eq⟩ :=
    nextKey_first_iff.2 (trimBlanks_cons (by decide)
      (escapeAll key.toList ++ '"' :: ':' :: (text ++ more)))
  have taken := takes_foldMembers_iff.2
    (.inr ⟨start, next, more, hstart, eq ▸ takes_readMember known own ends, later⟩)
  simpa [entryText, stringText] using taken

private theorem takes_foldMembers_later :
    Takes (foldMembers member state false) (',' :: (entryText (key, text) ++ more)) last rest := by
  obtain ⟨start, hstart, eq⟩ :=
    nextKey_later_iff.2 ⟨_, trimBlanks_cons (c := ',') (by decide) _, trimBlanks_cons (by decide)
      (escapeAll key.toList ++ '"' :: ':' :: (text ++ more))⟩
  have taken := takes_foldMembers_iff.2
    (.inr ⟨start, next, more, hstart, eq ▸ takes_readMember known own ends, later⟩)
  simpa [entryText, stringText] using taken

end Step

private theorem takes_foldMembers_closed (state : σ) (isFirst : Bool) (rest : Text) :
    Takes (foldMembers member state isFirst) ('\x7d' :: rest) state rest := by
  obtain ⟨closed, hclosed, eq⟩ :=
    nextKey_closed_iff.2 (trimBlanks_cons (c := '\x7d') (by decide) rest)
  exact takes_foldMembers_iff.2 (.inl ⟨closed, hclosed, eq, rfl⟩)

namespace LeadsTo

/-- A reader that takes more members takes these as well. -/
theorem mono {other : σ → String → Except Problem (Reader σ)} {entries : List (String × Text)}
    (h : LeadsTo member state entries last)
    (sub : ∀ state key read, member state key = .ok read → other state key = .ok read) :
    LeadsTo other state entries last := by
  induction h with
  | nil => exact .nil _
  | cons known own _ ih => exact .cons (sub _ _ _ known) own ih

private theorem takes_later {entries : List (String × Text)}
    (h : LeadsTo member state entries last) (rest : Text) :
    Takes (foldMembers member state false)
      ((entries.map entryText).flatMap (fun t => ',' :: t) ++ '\x7d' :: rest) last rest := by
  induction h with
  | nil state => exact takes_foldMembers_closed state false rest
  | cons known own _ ih =>
    have taken := takes_foldMembers_later known own (endsNumber_later _ (.inr rfl) rest) ih
    simpa using taken

/-- The text of an object is read entry by entry, up to its closing brace. -/
theorem takes {entries : List (String × Text)} (h : LeadsTo member state entries last)
    (rest : Text) :
    Takes (foldMembers member state true)
      ([','].intercalate (entries.map entryText) ++ '\x7d' :: rest) last rest := by
  cases h with
  | nil => exact takes_foldMembers_closed state true rest
  | cons known own later =>
    rw [List.map_cons, intercalate_cons, List.append_assoc]
    exact takes_foldMembers_first known own (endsNumber_later _ (.inr rfl) rest)
      (later.takes_later rest)

end LeadsTo

end Entries

end Intake.Json
