import Intake.Proofs.Json.Keys
import Intake.Proofs.Records

/-!
What a tally stores after any changes. A level that is recorded has an entry that is not zero, but a
text may give levels the count zero: such an entry stays until its level is recorded, or until the
tally is replaced or reset. Without one, a tally is empty exactly when its total is zero.
-/

set_option autoImplicit false
set_option relaxedAutoImplicit false

namespace Intake.Log

open Json

/-- A change of a tally. -/
inductive Change where
  | level (level : Level)
  | line (line : List Char)
  /-- Replaces the tally by the one that a text holds, if it holds one. -/
  | load (text : String)
  | reset

namespace Tally

def apply (t : Tally) : Change → Tally
  | .level level => t.record level
  | .line line => t.recordLine line
  | .load text =>
    match codec.decode text with
    | .ok loaded => loaded
    | .error _ => t
  | .reset => .empty

/-- The empty tally after some changes. -/
def after (changes : List Change) : Tally := changes.foldl apply .empty

/-- The number of lines that the entries count, without bound. -/
def lines (t : Tally) : Nat := (t.entries.map fun e => e.2.toNat).sum

/-- Stores levels that occurred, and no others. -/
structure OnlySeen (t : Tally) : Prop where
  stored : ∀ e ∈ t.entries, e.2 ≠ 0
  empty : t.isEmpty = true ↔ t.total = 0
  written : ∃ members, Value.written (codec.encode t) = .ok members ∧
    ∀ e ∈ members, e.2 ≠ .number (.natural 0)

end Tally

/-- How a tally came about: the one that replaced it last, and the levels recorded since. -/
structure Course where
  base : Tally := .empty
  since : List Level := []

namespace Course

/-- The tally at the end. -/
def tally (c : Course) : Tally := c.base.recordLevels c.since

/-- The number of lines that the tally stands for. -/
def lines (c : Course) : Nat := c.base.lines + c.since.length

def apply (c : Course) : Change → Course
  | .level level => { c with since := c.since ++ [level] }
  | .line line => { c with since := c.since ++ (Level.ofLine? line).toList }
  | .load text =>
    match Tally.codec.decode text with
    | .ok loaded => { base := loaded }
    | .error _ => c
  | .reset => {}

def after (changes : List Change) : Course := changes.foldl apply {}

theorem tally_apply (c : Course) (change : Change) :
    (c.apply change).tally = c.tally.apply change := by
  cases change with
  | level level => exact Tally.recordLevels_append c.base c.since [level]
  | line line =>
    have recorded := Tally.recordLevels_append c.base c.since (Level.ofLine? line).toList
    rw [apply, tally, Tally.apply, Tally.recordLine, recorded]
    cases Level.ofLine? line <;> rfl
  | load text =>
    rw [apply, Tally.apply]
    cases Tally.codec.decode text <;> rfl
  | reset => rfl

theorem after_concat (changes : List Change) (change : Change) :
    after (changes ++ [change]) = (after changes).apply change :=
  List.foldl_concat ..

theorem tally_after (changes : List Change) : (after changes).tally = Tally.after changes := by
  induction changes using List.reverseRecOn with
  | nil => rfl
  | append_singleton changes change ih =>
    rw [after_concat, tally_apply, ih]
    exact (List.foldl_concat ..).symm

/-- Without a text that was loaded, the tally began empty. -/
theorem base_after (changes : List Change) :
    (after changes).base = .empty ∨
      ∃ text, .load text ∈ changes ∧ Tally.codec.decode text = .ok (after changes).base := by
  induction changes using List.reverseRecOn with
  | nil => exact .inl rfl
  | append_singleton changes change ih =>
    have before : (after changes).base = .empty ∨
        ∃ text, .load text ∈ changes ++ [change] ∧
          Tally.codec.decode text = .ok (after changes).base :=
      ih.imp_right fun ⟨text, mem, loaded⟩ => ⟨text, List.mem_append_left _ mem, loaded⟩
    rw [after_concat]
    cases change with
    | level | line => exact before
    | load text =>
      rw [apply]
      cases loaded : Tally.codec.decode text with
      | ok t => exact .inr ⟨text, List.mem_append_right _ List.mem_cons_self, loaded⟩
      | error _ => exact before
    | reset => exact .inl rfl

end Course

namespace Tally

/-- The tally that a text holds is that of the entries it writes, with the last of each level. -/
theorem decode_eq_ok_iff {text : String} {t : Tally} :
    codec.decode text = .ok t ↔
      ∃ members entries, Value.written text = .ok members ∧
        members.mapM (Codec.entryOf? Level.choice Value.natural?) = some entries ∧
        Keyed.ofEntries entries = t :=
  Codec.decode_keyed_iff Level.choice (Codec.views_uint64 _ _)

end Tally

private theorem toNat_eq_zero_iff (n : UInt64) : n.toNat = 0 ↔ n = 0 :=
  UInt64.toNat_inj (b := 0)

namespace Tally

/-- A tally as the members of a document. -/
def members (t : Tally) : List (String × Value) :=
  t.entries.map fun e => (e.1.marker, .number (.natural e.2))

theorem written_encode (t : Tally) : Value.written (codec.encode t) = .ok t.members := by
  have text : codec.encode t = String.ofList (objectText (Value.memberTexts t.members)) := by
    rw [Value.memberTexts, members, List.map_map]
    rfl
  rw [text]
  refine Value.written_objectText fun e he => ?_
  obtain ⟨entry, -, rfl⟩ := List.mem_map.1 he
  exact readsBack_natural _ entry.2

theorem lines_eq_sum (t : Tally) :
    t.lines = (Level.priority.map fun level => (t.count level).toNat).sum := by
  rw [lines, List.sum_eq_foldr, List.sum_eq_foldr, List.foldr_map, List.foldr_map]
  exact t.foldr_entries_eq_foldr_count (f := fun n s => n.toNat + s) Nat.zero_add 0

theorem toNat_total {t : Tally} (few : t.lines < 2 ^ 64) : t.total.toNat = t.lines := by
  rw [lines] at few ⊢
  rw [total]
  generalize t.entries = entries at few ⊢
  induction entries with
  | nil => rfl
  | cons e rest ih =>
    rw [List.map_cons, List.sum_cons] at few
    have others := ih (Nat.lt_of_le_of_lt (Nat.le_add_left _ _) few)
    rw [List.map_cons, List.foldr_cons, UInt64.toNat_add, others, Nat.mod_eq_of_lt few,
      List.map_cons, List.sum_cons]

theorem toNat_count_le_lines (t : Tally) (level : Level) : (t.count level).toNat ≤ t.lines := by
  cases entry : t.get? level with
  | none =>
    rw [count, entry]
    exact Nat.zero_le _
  | some n =>
    have mem : n.toNat ∈ t.entries.map fun e => e.2.toNat :=
      List.mem_map.2 ⟨(level, n), Keyed.mem_entries_iff.2 entry, rfl⟩
    rw [count, entry]
    exact List.le_sum_of_mem mem

theorem lines_eq_zero_iff (t : Tally) : t.lines = 0 ↔ ∀ e ∈ t.entries, e.2 = 0 := by
  simp only [lines, List.sum_eq_zero_iff, List.forall_mem_map, toNat_eq_zero_iff]

theorem get?_eq_some_iff {t : Tally} {level : Level} {n : UInt64} :
    t.get? level = some n ↔ (t.get? level).isSome = true ∧ t.count level = n := by
  cases h : t.get? level <;> simp [count, h]

end Tally

namespace Course

variable {c : Course}

/-- A level has an entry if it had one in the beginning, or was recorded. -/
theorem isSome_get?_tally (c : Course) (level : Level) :
    (c.tally.get? level).isSome = true ↔ (c.base.get? level).isSome = true ∨ level ∈ c.since :=
  Tally.isSome_get?_recordLevels c.base c.since level

theorem isEmpty_tally_iff (c : Course) :
    c.tally.isEmpty = true ↔ c.base = .empty ∧ c.since = [] := by
  constructor
  · intro none
    have absent (level : Level) : ¬ ((c.base.get? level).isSome = true ∨ level ∈ c.since) := by
      rw [← isSome_get?_tally, Keyed.isEmpty_iff.1 none, Keyed.get?_empty]
      exact Bool.false_ne_true
    constructor
    · refine Keyed.ext fun level => ?_
      rw [Keyed.get?_empty]
      exact Option.not_isSome_iff_eq_none.1 fun own => absent level (.inl own)
    · exact List.eq_nil_iff_forall_not_mem.2 fun level mem => absent level (.inr mem)
  · rintro ⟨base, since⟩
    rw [tally, base, since]
    rfl

theorem mem_tally_zero_iff (few : c.lines < 2 ^ 64) (level : Level) :
    (level, 0) ∈ c.tally.entries ↔ (level, 0) ∈ c.base.entries ∧ level ∉ c.since := by
  have counted : (c.tally.count level).toNat =
      (c.base.count level).toNat + c.since.count level := by
    have base := Tally.toNat_count_le_lines c.base level
    have since : c.since.count level ≤ c.since.length := List.count_le_length
    have bound : (c.base.count level).toNat + c.since.count level < 2 ^ 64 := by
      rw [lines] at few
      omega
    have small : c.since.count level < 2 ^ 64 := Nat.lt_of_le_of_lt (Nat.le_add_left _ _) bound
    rw [tally, Tally.count_recordLevels, UInt64.toNat_add, UInt64.toNat_ofNat_of_lt' small,
      Nat.mod_eq_of_lt bound]
  have absent : c.tally.count level = 0 ↔ c.base.count level = 0 ∧ level ∉ c.since := by
    rw [← toNat_eq_zero_iff, counted, Nat.add_eq_zero_iff, toNat_eq_zero_iff, List.count_eq_zero]
  rw [Keyed.mem_entries_iff, Keyed.mem_entries_iff, Tally.get?_eq_some_iff,
    Tally.get?_eq_some_iff, isSome_get?_tally, absent]
  tauto

theorem toNat_total (few : c.lines < 2 ^ 64) : c.tally.total.toNat = c.lines := by
  have base : c.base.total.toNat = c.base.lines :=
    Tally.toNat_total (Nat.lt_of_le_of_lt (Nat.le_add_right _ _) few)
  have since : c.since.length < 2 ^ 64 := Nat.lt_of_le_of_lt (Nat.le_add_left _ _) few
  rw [tally, Tally.total_recordLevels, UInt64.toNat_add, base, UInt64.toNat_ofNat_of_lt' since]
  exact Nat.mod_eq_of_lt few

theorem total_eq_zero_iff (few : c.lines < 2 ^ 64) :
    c.tally.total = 0 ↔ (∀ e ∈ c.base.entries, e.2 = 0) ∧ c.since = [] := by
  rw [← toNat_eq_zero_iff, toNat_total few, lines, Nat.add_eq_zero_iff,
    Tally.lines_eq_zero_iff, List.length_eq_zero_iff]

/-- Only levels that occurred are stored exactly if each level that the text gave the count zero
was recorded since. -/
theorem onlySeen_tally_iff (few : c.lines < 2 ^ 64) :
    c.tally.OnlySeen ↔ ∀ level, (level, 0) ∈ c.base.entries → level ∈ c.since := by
  constructor
  · intro seen level mem
    by_contra unseen
    exact seen.stored _ ((mem_tally_zero_iff few level).2 ⟨mem, unseen⟩) rfl
  · intro recorded
    have stored : ∀ e ∈ c.tally.entries, e.2 ≠ 0 := by
      rintro ⟨level, n⟩ mem rfl
      obtain ⟨base, unseen⟩ := (mem_tally_zero_iff few level).1 mem
      exact unseen (recorded level base)
    refine ⟨stored, ?_, _, Tally.written_encode c.tally, ?_⟩
    · rw [isEmpty_tally_iff, total_eq_zero_iff few]
      refine and_congr_left fun none => ⟨?_, fun zeros => ?_⟩
      · intro base
        rw [base, Keyed.entries_empty]
        exact nofun
      · refine Keyed.ext_entries ?_
        rw [Keyed.entries_empty]
        refine List.eq_nil_iff_forall_not_mem.2 fun e mem => ?_
        have base : (e.1, 0) ∈ c.base.entries := zeros e mem ▸ mem
        exact List.not_mem_nil (none ▸ recorded e.1 base)
    · rintro e mem zero
      obtain ⟨entry, own, rfl⟩ := List.mem_map.1 mem
      exact stored entry own (Number.natural.inj (Value.number.inj zero))

end Course

/-- A tally that is never loaded stores only levels that occurred. -/
theorem onlySeen_of_no_load {changes : List Change} (recorded : ∀ text, .load text ∉ changes)
    (few : (Course.after changes).lines < 2 ^ 64) : (Tally.after changes).OnlySeen := by
  rw [← Course.tally_after, Course.onlySeen_tally_iff few]
  rcases Course.base_after changes with base | ⟨text, mem, _⟩
  · rw [base, Keyed.entries_empty]
    exact fun _ mem => absurd mem List.not_mem_nil
  · exact absurd mem (recorded text)

/-- After any changes, a level has the count zero exactly if the text that the tally was loaded from
last gave it so, and it was not recorded since. So only levels that occurred are stored exactly if
all such levels were recorded; and the tally has entries but the total zero exactly if nothing was
recorded since a text was loaded that gave its levels no other count. -/
theorem onlySeen_after_iff (changes : List Change)
    (few : (Course.after changes).lines < 2 ^ 64) :
    let c := Course.after changes
    let t := Tally.after changes
    t = c.base.recordLevels c.since ∧
    (c.base = .empty ∨ ∃ text, .load text ∈ changes ∧ Tally.codec.decode text = .ok c.base) ∧
    (∀ level, (level, 0) ∈ t.entries ↔ (level, 0) ∈ c.base.entries ∧ level ∉ c.since) ∧
    (t.OnlySeen ↔ ∀ level, (level, 0) ∈ c.base.entries → level ∈ c.since) ∧
    (t.isEmpty = false ∧ t.total = 0 ↔
      c.base ≠ .empty ∧ (∀ e ∈ c.base.entries, e.2 = 0) ∧ c.since = []) := by
  intro c t
  have tally : c.tally = t := Course.tally_after changes
  rw [← tally]
  refine ⟨rfl, Course.base_after changes, Course.mem_tally_zero_iff few,
    Course.onlySeen_tally_iff few, ?_⟩
  rw [Course.total_eq_zero_iff few, ← Bool.not_eq_true, Course.isEmpty_tally_iff]
  tauto

private theorem decode_zero (level : Level) :
    Tally.codec.decode (Tally.codec.encode (.ofEntries [(level, 0)])) =
      .ok (.ofEntries [(level, 0)]) :=
  (Tally.lawful_codec _).decode_encode

/-- A level that a text gave the count zero, recorded afterwards. -/
theorem onlySeen_after_iff_recorded :
    let changes : List Change :=
      [.level .fatal, .load "\x7b\"INFO\":0\x7d", .line "INFO up".toList]
    (Course.after changes).lines < 2 ^ 64 ∧ (Tally.after changes).OnlySeen := by
  intro changes
  have text : Tally.codec.encode (.ofEntries [(.info, 0)]) = "\x7b\"INFO\":0\x7d" := by decide
  have loaded := decode_zero .info
  rw [text] at loaded
  have marked : Level.ofLine? "INFO up".toList = some .info := by decide
  have course : Course.after changes = ⟨.ofEntries [(.info, 0)], [.info]⟩ := by
    simp only [changes, Course.after, List.foldl_cons, List.foldl_nil, Course.apply, loaded, marked]
    rfl
  have few : (Course.after changes).lines < 2 ^ 64 := by
    rw [course]
    decide
  refine ⟨few, (onlySeen_after_iff changes few).2.2.2.1.2 ?_⟩
  rw [course]
  intro level mem
  rw [(Prod.mk.inj (List.mem_singleton.1 mem)).1]
  exact List.mem_cons_self

/-- A text that gives a level the count zero: the level is stored, with a total of zero. -/
theorem not_onlySeen_after_load :
    let t := Tally.after [.load "\x7b\"DEBUG\":0\x7d"]
    ¬ t.OnlySeen ∧ t.entries = [(.debug, 0)] ∧ t.isEmpty = false ∧ t.total = 0 ∧
      Tally.codec.encode t = "\x7b\"DEBUG\":0\x7d" := by
  intro t
  have stored : t = .ofEntries [(.debug, 0)] := by
    have text : Tally.codec.encode (.ofEntries [(.debug, 0)]) = "\x7b\"DEBUG\":0\x7d" := by decide
    have loaded := decode_zero .debug
    rw [text] at loaded
    simp only [t, Tally.after, List.foldl_cons, List.foldl_nil, Tally.apply, loaded]
  rw [stored]
  exact ⟨fun seen => seen.stored (.debug, 0) (by decide) rfl, by decide, by decide, by decide,
    by decide⟩

end Intake.Log
