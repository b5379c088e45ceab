import Intake.Proofs.Log.Lines

/-!
The level of two texts that are joined. Joining loses no marker, so no level gets lower; a marker
that neither text has alone must lie across the cut, and where none does the higher of the two
levels is that of the whole.
-/

set_option autoImplicit false
set_option relaxedAutoImplicit false

namespace Intake.Log

namespace Level

/-- How late the level of a line comes in the order of priority; no level comes after all others. -/
def standing : Option Level → Nat
  | some level => level.rank
  | none => priority.length

/-- The one of two that comes first in the order of priority. -/
def higher (x y : Option Level) : Option Level := if standing x ≤ standing y then x else y

theorem rank_lt_standing_none (level : Level) : level.rank < standing none := by
  cases level <;> decide

theorem standing_le_none (x : Option Level) : standing x ≤ standing none := by
  cases x with
  | none => exact Nat.le_refl _
  | some level => exact (rank_lt_standing_none level).le

theorem standing_injective : Function.Injective standing := by
  intro x y h
  cases x with
  | none =>
    cases y with
    | none => rfl
    | some level => exact absurd h (rank_lt_standing_none level).ne'
  | some level =>
    cases y with
    | none => exact absurd h (rank_lt_standing_none level).ne
    | some other => rw [rank_inj h]

theorem standing_higher (x y : Option Level) :
    standing (higher x y) = min (standing x) (standing y) := by
  unfold higher
  split
  · rename_i le
    rw [Nat.min_eq_left le]
  · rename_i lt
    rw [Nat.min_eq_right (Nat.le_of_not_le lt)]

/-! ### Markers in a text -/

variable {s t a b : List Char} {level : Level}

theorem infix_of_ofLine?_eq_some (h : ofLine? s = some level) : level.marker.toList <:+: s := by
  rw [ofLine?] at h
  have marked := List.find?_some h
  exact occursIn_eq_true_iff.1 marked

/-- The level of a text comes no later than any whose marker it holds. -/
theorem standing_ofLine?_le_rank (h : level.marker.toList <:+: s) :
    standing (ofLine? s) ≤ level.rank := by
  have sorted : priority.Pairwise (· < ·) := by decide
  have listed : level ∈ priority := by cases level <;> decide
  have marked : occursIn level.marker.toList s = true := occursIn_eq_true_iff.2 h
  cases found : ofLine? s with
  | none => exact absurd marked (List.find?_eq_none.1 found level listed)
  | some first =>
    obtain ⟨-, before, after, whole, passed⟩ := List.find?_eq_some_iff_append.1 found
    rw [whole, List.mem_append, List.mem_cons] at listed
    rcases listed with skipped | rfl | later
    · simpa [marked] using passed level skipped
    · exact Nat.le_refl _
    · rw [whole, List.pairwise_append, List.pairwise_cons] at sorted
      exact Nat.le_of_lt (sorted.2.1.1 level later)

/-- A text around another has no lower level. -/
theorem standing_ofLine?_le_of_infix (h : s <:+: t) :
    standing (ofLine? t) ≤ standing (ofLine? s) := by
  cases found : ofLine? s with
  | none => exact standing_le_none _
  | some level => exact standing_ofLine?_le_rank ((infix_of_ofLine?_eq_some found).trans h)

end Level

/-! ### The cut -/

/-- A word lies across the cut between two texts, with a part of it on either side. -/
def Straddles (word a b : List Char) : Prop :=
  ∃ front back, front ≠ [] ∧ back ≠ [] ∧ word = front ++ back ∧ front <:+ a ∧ back <+: b

variable {word a b : List Char}

theorem infix_or_straddles (h : word <:+: a ++ b) :
    word <:+: a ∨ word <:+: b ∨ Straddles word a b := by
  rcases List.infix_append_iff.1 h with left | right | ⟨front, back, rfl, ends, begins⟩
  · exact .inl left
  · exact .inr (.inl right)
  · by_cases noFront : front = []
    · subst noFront
      exact .inr (.inl begins.isInfix)
    · by_cases noBack : back = []
      · subst noBack
        rw [List.append_nil]
        exact .inl ends.isInfix
      · exact .inr (.inr ⟨front, back, noFront, noBack, rfl, ends, begins⟩)

/-- A word that lies across a cut has the characters on both sides of it. -/
theorem Straddles.mem {c : Char} (h : Straddles word a b)
    (beside : a.getLast? = some c ∨ b.head? = some c) : c ∈ word := by
  obtain ⟨front, back, noFront, noBack, rfl, ⟨more, rfl⟩, ⟨rest, rfl⟩⟩ := h
  rcases beside with last | first
  · rw [List.getLast?_append_of_ne_nil _ noFront] at last
    exact List.mem_append_left _ (List.mem_of_getLast? last)
  · rw [List.head?_append_of_ne_nil _ noBack] at first
    exact List.mem_append_right _ (List.mem_of_head? first)

theorem ofLine?_append_of_not_straddles
    (apart : ∀ level : Level, ¬ Straddles level.marker.toList a b) :
    Level.ofLine? (a ++ b) = Level.higher (Level.ofLine? a) (Level.ofLine? b) := by
  have fromLeft := Level.standing_ofLine?_le_of_infix (List.prefix_append a b).isInfix
  have fromRight := Level.standing_ofLine?_le_of_infix (List.suffix_append a b).isInfix
  refine Level.standing_injective (Nat.le_antisymm ?_ ?_)
  · rw [Level.standing_higher]
    exact Nat.le_min.2 ⟨fromLeft, fromRight⟩
  · rw [Level.standing_higher]
    cases found : Level.ofLine? (a ++ b) with
    | none => exact (Nat.min_le_left _ _).trans (Level.standing_le_none _)
    | some level =>
      -- Its marker stands in one of the parts, which then has no lower level.
      rcases infix_or_straddles (Level.infix_of_ofLine?_eq_some found) with left | right | across
      · exact (Nat.min_le_left _ _).trans (Level.standing_ofLine?_le_rank left)
      · exact (Nat.min_le_right _ _).trans (Level.standing_ofLine?_le_rank right)
      · exact absurd across (apart level)

/-- A joined text has no lower level than its parts, and the higher of their levels unless a marker
lies across the cut. None does if the character before the cut or the one after it is in no marker;
those that end a line are in none. -/
theorem ofLine?_append (a b : List Char) :
    (Level.standing (Level.ofLine? (a ++ b)) ≤ Level.standing (Level.ofLine? a) ∧
      Level.standing (Level.ofLine? (a ++ b)) ≤ Level.standing (Level.ofLine? b)) ∧
    ((∀ level : Level, ¬ Straddles level.marker.toList a b) →
      Level.ofLine? (a ++ b) = Level.higher (Level.ofLine? a) (Level.ofLine? b)) ∧
    (∀ c : Char, (∀ level : Level, c ∉ level.marker.toList) →
      (a.getLast? = some c ∨ b.head? = some c) →
      Level.ofLine? (a ++ b) = Level.higher (Level.ofLine? a) (Level.ofLine? b)) ∧
    ∀ c ∈ ['\n', '\r'], ∀ level : Level, c ∉ level.marker.toList := by
  refine ⟨⟨?_, ?_⟩, ofLine?_append_of_not_straddles, ?_, ?_⟩
  · exact Level.standing_ofLine?_le_of_infix (List.prefix_append a b).isInfix
  · exact Level.standing_ofLine?_le_of_infix (List.suffix_append a b).isInfix
  · intro c foreign beside
    exact ofLine?_append_of_not_straddles fun level across => foreign level (across.mem beside)
  · intro c ends level
    rcases List.mem_pair.1 ends with rfl | rfl <;> cases level <;> decide

/-- A marker across the cut, which gives the whole a level that neither part has; and two markers
with a line feed between them, of which the second comes first. -/
theorem ofLine?_append_lineFeed :
    Straddles Level.error.marker.toList "a WARN: ERR".toList "OR".toList ∧
      Level.ofLine? ("a WARN: ERR".toList ++ "OR".toList) = some .error ∧
      Level.ofLine? ("FATAL\n".toList ++ "INFO".toList) = some .info := by
  refine ⟨⟨"ERR".toList, "OR".toList, by decide, by decide, by decide, by decide, by decide⟩,
    by decide, ?_⟩
  exact ((ofLine?_append "FATAL\n".toList "INFO".toList).2.2.1 '\n'
    (fun level => by cases level <;> decide) (.inl (by decide))).trans (by decide)

end Intake.Log
