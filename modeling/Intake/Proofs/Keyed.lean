import Intake.Keyed
import Mathlib

/-!
What finite maps hold. A key has one entry at most, which is where the map has its value, so maps
with the same values are the same; in a map of a list of entries the last entry of a key counts.
-/

set_option autoImplicit false
set_option relaxedAutoImplicit false

namespace Intake.Keyed

variable {κ α : Type} [LT κ]

@[simp]
theorem entries_empty : (empty : Keyed κ α).entries = [] := entries_ofIncreasing [] .nil

@[simp]
theorem entries_filter (m : Keyed κ α) (keep : κ × α → Bool) :
    (m.filter keep).entries = m.entries.filter keep :=
  entries_ofIncreasing _ _

theorem isEmpty_iff {m : Keyed κ α} : m.isEmpty = true ↔ m = empty := by
  constructor
  · intro none
    refine ext_entries ?_
    rw [entries_empty, ← List.map_eq_nil_iff (f := Prod.fst), map_fst_entries]
    exact List.isEmpty_iff.1 none
  · rintro rfl
    rfl

/-- Keys in order that have values, with their values. -/
theorem increasing_filterMap_map {keys : List κ} (h : keys.Pairwise (· < ·)) (f : κ → Option α) :
    Increasing (keys.filterMap fun k => (f k).map (Prod.mk k)) := by
  refine List.Pairwise.filterMap _ ?_ h
  intro a b below e he e' he'
  obtain ⟨_, _, rfl⟩ := Option.map_eq_some_iff.1 he
  obtain ⟨_, _, rfl⟩ := Option.map_eq_some_iff.1 he'
  exact below

variable [DecidableEq κ]

theorem get?_ofIncreasing {entries : List (κ × α)} (h : Increasing entries) (key : κ) :
    (ofIncreasing entries h).get? key = entries.lookup key := by
  rw [get?, entries_ofIncreasing]

@[simp]
theorem get?_empty (key : κ) : (empty : Keyed κ α).get? key = none := by
  rw [get?, entries_empty, List.lookup_nil]

theorem isSome_get?_iff (m : Keyed κ α) (key : κ) :
    (m.get? key).isSome = true ↔ key ∈ m.keys := by
  rw [get?, List.lookup_isSome_iff, ← map_fst_entries, List.mem_map]
  exact exists_congr fun e => and_congr_right fun _ => beq_iff_eq.trans eq_comm

omit [LT κ] in
theorem lookup_filterMap_map (keys : List κ) (f : κ → Option α) (key : κ) :
    (keys.filterMap fun k => (f k).map (Prod.mk k)).lookup key =
      if key ∈ keys then f key else none := by
  induction keys with
  | nil => rfl
  | cons k keys ih =>
    rw [List.filterMap_cons]
    by_cases eq : key = k
    · subst eq
      cases hf : f key with
      | none => simp [ih, hf]
      | some a => simp
    · have other : (key == k) = false := beq_eq_false_iff_ne.2 eq
      have member : key ∈ k :: keys ↔ key ∈ keys := by simp [eq]
      cases hf : f k with
      | none => simp [ih, member]
      | some a => simp [List.lookup_cons, other, ih, member]

section Order

variable [LE κ] [Std.LawfulOrderLT κ]

/-- In order, what is found is what is there. -/
theorem Increasing.lookup_eq_some_iff {entries : List (κ × α)} (h : Increasing entries) {key : κ}
    {a : α} : entries.lookup key = some a ↔ (key, a) ∈ entries := by
  induction entries with
  | nil => simp
  | cons first rest ih =>
    obtain ⟨k, b⟩ := first
    obtain ⟨below, later⟩ := List.pairwise_cons.1 h
    by_cases eq : key = k
    · subst eq
      have alone : (key, a) ∉ rest := fun mem => Std.lt_irrefl (below (key, a) mem)
      simp [alone, eq_comm]
    · simp [List.lookup_cons, beq_eq_false_iff_ne.2 eq, ih later, eq]

/-- The entries are the keys that have a value, with that value. -/
theorem mem_entries_iff {m : Keyed κ α} {key : κ} {a : α} :
    (key, a) ∈ m.entries ↔ m.get? key = some a :=
  m.increasing_entries.lookup_eq_some_iff.symm

theorem get?_filter (m : Keyed κ α) (keep : κ × α → Bool) (key : κ) :
    (m.filter keep).get? key = (m.get? key).filter fun a => keep (key, a) := by
  ext a
  rw [← mem_entries_iff, entries_filter, List.mem_filter, mem_entries_iff,
    Option.filter_eq_some_iff]

variable [Std.IsLinearOrder κ]

omit [DecidableEq κ] in
private theorem Increasing.eq_of_mem_iff {entries others : List (κ × α)} (h : Increasing entries)
    (h' : Increasing others) (same : ∀ e, e ∈ entries ↔ e ∈ others) : entries = others := by
  have irreflexive : Std.Irrefl fun a b : κ × α => a.1 < b.1 := ⟨fun _ => Std.lt_irrefl⟩
  have antisymmetric : Std.Antisymm fun a b : κ × α => a.1 < b.1 :=
    ⟨fun _ _ below above => absurd (Std.lt_trans below above) Std.lt_irrefl⟩
  exact List.Pairwise.eq_of_mem_iff h h' same

/-- Maps with the same values are the same. -/
theorem ext {m n : Keyed κ α} (h : ∀ key, m.get? key = n.get? key) : m = n := by
  refine ext_entries (m.increasing_entries.eq_of_mem_iff n.increasing_entries fun e => ?_)
  rw [mem_entries_iff, mem_entries_iff, h]

/-- A key has one entry at most. -/
theorem filter_entries_key (m : Keyed κ α) (key : κ) :
    m.entries.filter (fun e => e.1 = key) = ((m.get? key).map (Prod.mk key)).toList := by
  have own : Increasing ((m.get? key).map (Prod.mk key)).toList := by
    cases m.get? key <;> simp [Increasing]
  have kept : Increasing (m.entries.filter fun e => e.1 = key) := m.increasing_entries.filter _
  refine kept.eq_of_mem_iff own fun e => ?_
  obtain ⟨k, a⟩ := e
  simp only [List.mem_filter, mem_entries_iff, decide_eq_true_eq, Option.mem_toList,
    Option.map_eq_some_iff, Prod.mk.injEq]
  constructor
  · rintro ⟨found, rfl⟩
    exact ⟨a, found, rfl, rfl⟩
  · rintro ⟨_, found, rfl, rfl⟩
    exact ⟨found, rfl⟩

variable [DecidableLT κ]

theorem get?_insert (m : Keyed κ α) (key other : κ) (a : α) :
    (m.insert key a).get? other = if other = key then some a else m.get? other := by
  by_cases h : other = key
  · rw [if_pos h, h, get?_insert_self]
  · rw [if_neg h, get?_insert_of_ne m a h]

theorem ofEntries_append_singleton (entries : List (κ × α)) (e : κ × α) :
    ofEntries (entries ++ [e]) = (ofEntries entries).insert e.1 e.2 := by
  simp only [ofEntries, List.foldl_append, List.foldl_cons, List.foldl_nil]

/-- The last entry of a key counts. -/
theorem get?_ofEntries (entries : List (κ × α)) (key : κ) :
    (ofEntries entries).get? key =
      ((entries.filter fun e => e.1 = key).getLast?).map Prod.snd := by
  induction entries using List.reverseRecOn with
  | nil => exact get?_empty key
  | append_singleton entries e ih =>
    rw [ofEntries_append_singleton, get?_insert, List.filter_append]
    by_cases h : e.1 = key
    · simp [h]
    · rw [if_neg (Ne.symm h), ih]
      simp [h]

/-- The entries of a map are among those that were written. -/
theorem mem_of_mem_ofEntries {entries : List (κ × α)} {e : κ × α}
    (h : e ∈ (ofEntries entries).entries) : e ∈ entries := by
  have last := mem_entries_iff.1 h
  rw [get?_ofEntries] at last
  obtain ⟨written, found, value⟩ := Option.map_eq_some_iff.1 last
  obtain ⟨mem, key⟩ := List.mem_filter.1 (List.mem_of_getLast? found)
  rwa [Prod.ext (of_decide_eq_true key) value] at mem

/-- A map is the map of its entries. -/
@[simp]
theorem ofEntries_entries (m : Keyed κ α) : ofEntries m.entries = m := by
  refine ext fun key => ?_
  rw [get?_ofEntries, filter_entries_key]
  cases m.get? key <;> rfl

/-- A map has as many entries as different keys were written. -/
theorem size_ofEntries (entries : List (κ × α)) :
    (ofEntries entries).size = (entries.map Prod.fst).toFinset.card := by
  have distinct : (ofEntries entries).keys.Nodup :=
    (ofEntries entries).increasing.imp Std.ne_of_lt
  have keys : (ofEntries entries).keys.toFinset = (entries.map Prod.fst).toFinset := by
    ext key
    rw [List.mem_toFinset, List.mem_toFinset, ← isSome_get?_iff, get?_ofEntries]
    simp
  rw [← keys, List.toFinset_card_of_nodup distinct, size]

theorem filter_ofEntries (entries : List (κ × α)) (keep : κ → Bool) :
    (ofEntries entries).filter (fun e => keep e.1) =
      ofEntries (entries.filter fun e => keep e.1) := by
  refine ext fun key => ?_
  have own : (entries.filter fun e => keep e.1).filter (fun e => e.1 = key) =
      (entries.filter fun e => e.1 = key).filter fun _ => keep key := by
    rw [List.filter_filter, List.filter_filter]
    refine List.filter_congr fun e _ => ?_
    by_cases same : e.1 = key
    · simp [same]
    · simp [same]
  have left : ((ofEntries entries).filter fun e => keep e.1).get? key =
      ((ofEntries entries).get? key).filter fun _ => keep key := get?_filter _ _ key
  rw [left, get?_ofEntries, get?_ofEntries, own]
  cases keep key with
  | true =>
    rw [List.filter_true]
    cases (entries.filter fun e => e.1 = key).getLast?.map Prod.snd <;> rfl
  | false =>
    rw [List.filter_false]
    cases (entries.filter fun e => e.1 = key).getLast?.map Prod.snd <;> rfl

end Order

end Intake.Keyed
