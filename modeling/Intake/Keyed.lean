/-!
Finite maps: keys in strictly increasing order, and a value for each. A key has one entry, writing
it again replaces its value, and the order of writing leaves no trace.
-/

set_option autoImplicit false
set_option relaxedAutoImplicit false

namespace Intake

/-- A finite map. The values are given by the places of their keys, not in pairs with them, so that
maps can be among the values: the order is a matter of the keys alone. -/
structure Keyed (κ α : Type) [LT κ] where
  keys : List κ
  increasing : keys.Pairwise (· < ·)
  value : Fin keys.length → α

namespace Keyed

variable {κ α : Type} [LT κ]

/-- The keys increase strictly from entry to entry. -/
def Increasing (entries : List (κ × α)) : Prop := entries.Pairwise fun a b => a.1 < b.1

instance [DecidableLT κ] (entries : List (κ × α)) : Decidable (Increasing entries) :=
  inferInstanceAs (Decidable (entries.Pairwise fun a b => a.1 < b.1))

/-- The keys with their values. -/
def entries (m : Keyed κ α) : List (κ × α) := List.ofFn fun i => (m.keys[i], m.value i)

/-- The map with some entries in order. -/
def ofIncreasing (entries : List (κ × α)) (h : Increasing entries) : Keyed κ α where
  keys := entries.map Prod.fst
  increasing := List.pairwise_map.2 h
  value i := (entries.get (i.cast (List.length_map _))).2

@[simp]
theorem map_fst_entries (m : Keyed κ α) : m.entries.map Prod.fst = m.keys := by
  refine List.ext_getElem (by simp [entries]) fun i _ _ => ?_
  simp [entries]

theorem increasing_entries (m : Keyed κ α) : Increasing m.entries := by
  have keys := m.increasing
  rw [← m.map_fst_entries] at keys
  exact List.pairwise_map.1 keys

@[simp]
theorem entries_ofIncreasing (entries : List (κ × α)) (h : Increasing entries) :
    (ofIncreasing entries h).entries = entries := by
  refine List.ext_getElem (by simp [Keyed.entries, ofIncreasing]) fun i _ _ => ?_
  simp [Keyed.entries, ofIncreasing]

/-- Maps with the same entries are the same. -/
theorem ext_entries {m n : Keyed κ α} (h : m.entries = n.entries) : m = n := by
  have keys : m.keys = n.keys := by rw [← map_fst_entries, h, map_fst_entries]
  obtain ⟨_, _, f⟩ := m
  obtain ⟨_, _, g⟩ := n
  subst keys
  have value : f = g := by
    funext i
    simpa [entries] using congrArg (·[i.val]?) h
  rw [value]

instance [DecidableEq κ] [DecidableEq α] : DecidableEq (Keyed κ α) := fun m n =>
  decidable_of_iff (m.entries = n.entries) ⟨ext_entries, congrArg entries⟩

instance [Repr κ] [Repr α] : Repr (Keyed κ α) := ⟨fun m n => reprPrec m.entries n⟩

def empty : Keyed κ α := ofIncreasing [] .nil

instance : Inhabited (Keyed κ α) := ⟨empty⟩

def size (m : Keyed κ α) : Nat := m.keys.length

def isEmpty (m : Keyed κ α) : Bool := m.keys.isEmpty

/-- Leaves out the entries that do not pass a test. -/
def filter (m : Keyed κ α) (keep : κ × α → Bool) : Keyed κ α :=
  ofIncreasing (m.entries.filter keep) (m.increasing_entries.filter keep)

section

variable [DecidableEq κ]

def get? (m : Keyed κ α) (key : κ) : Option α := m.entries.lookup key

def contains (m : Keyed κ α) (key : κ) : Bool := (m.get? key).isSome

variable [DecidableLT κ]

/-- Puts an entry in its place among others, instead of the one with its key. -/
def place (key : κ) (a : α) : List (κ × α) → List (κ × α)
  | [] => [(key, a)]
  | (k, b) :: rest =>
    if key < k then (key, a) :: (k, b) :: rest
    else if key = k then (key, a) :: rest
    else (k, b) :: place key a rest

theorem mem_place {key : κ} {a : α} {entries : List (κ × α)} {e : κ × α}
    (h : e ∈ place key a entries) : e = (key, a) ∨ e ∈ entries := by
  induction entries with
  | nil => exact .inl (List.mem_singleton.1 h)
  | cons first rest ih =>
    simp only [place] at h
    split at h
    · exact List.mem_cons.1 h
    · split at h
      · exact (List.mem_cons.1 h).imp id (List.mem_cons_of_mem _)
      · rcases List.mem_cons.1 h with rfl | h
        · exact .inr List.mem_cons_self
        · exact (ih h).imp id (List.mem_cons_of_mem _)

theorem lookup_place_self (key : κ) (a : α) (entries : List (κ × α)) :
    (place key a entries).lookup key = some a := by
  induction entries with
  | nil => simp [place]
  | cons first rest ih =>
    obtain ⟨k, b⟩ := first
    simp only [place]
    split
    · simp
    · split
      · simp
      · rename_i other
        rw [List.lookup_cons, beq_eq_false_iff_ne.2 other, ih]

theorem lookup_place_of_ne {key other : κ} (a : α) (entries : List (κ × α)) (h : other ≠ key) :
    (place key a entries).lookup other = entries.lookup other := by
  have unequal : (other == key) = false := beq_eq_false_iff_ne.2 h
  induction entries with
  | nil => rw [place, List.lookup_cons, unequal]
  | cons first rest ih =>
    obtain ⟨k, b⟩ := first
    simp only [place]
    split
    · rw [List.lookup_cons, unequal]
    · split
      · rename_i same
        rw [List.lookup_cons, unequal, List.lookup_cons, ← same, unequal]
      · rw [List.lookup_cons, List.lookup_cons, ih]

variable [LE κ] [Std.LawfulOrderLT κ] [Std.IsLinearOrder κ]

theorem increasing_place (key : κ) (a : α) {entries : List (κ × α)} (h : Increasing entries) :
    Increasing (place key a entries) := by
  induction entries with
  | nil => exact List.pairwise_singleton _ _
  | cons first rest ih =>
    obtain ⟨below, later⟩ := List.pairwise_cons.1 h
    simp only [place]
    split
    · rename_i before
      refine List.pairwise_cons.2 ⟨fun e mem => ?_, h⟩
      rcases List.mem_cons.1 mem with rfl | mem
      · exact before
      · exact Std.lt_trans before (below e mem)
    · split
      · rename_i same
        exact List.pairwise_cons.2 ⟨fun e mem => same ▸ below e mem, later⟩
      · rename_i notBefore other
        refine List.pairwise_cons.2 ⟨fun e mem => ?_, ih later⟩
        rcases mem_place mem with rfl | mem
        · exact Std.lt_of_le_of_ne (Std.not_lt.1 notBefore) (Ne.symm other)
        · exact below e mem

/-- Writes the value of a key, in place of an earlier one. -/
def insert (m : Keyed κ α) (key : κ) (a : α) : Keyed κ α :=
  ofIncreasing (place key a m.entries) (increasing_place key a m.increasing_entries)

/-- The map of a list of entries, where the last entry of a key counts. -/
def ofEntries (entries : List (κ × α)) : Keyed κ α :=
  entries.foldl (fun m e => m.insert e.1 e.2) empty

theorem entries_insert (m : Keyed κ α) (key : κ) (a : α) :
    (m.insert key a).entries = place key a m.entries :=
  entries_ofIncreasing _ _

@[simp]
theorem get?_insert_self (m : Keyed κ α) (key : κ) (a : α) :
    (m.insert key a).get? key = some a := by
  rw [get?, entries_insert, lookup_place_self]

theorem get?_insert_of_ne (m : Keyed κ α) {key other : κ} (a : α) (h : other ≠ key) :
    (m.insert key a).get? other = m.get? other := by
  rw [get?, entries_insert, lookup_place_of_ne _ _ h, get?]

end

end Keyed

end Intake
