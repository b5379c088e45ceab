import Intake.Proofs.Log.Lines

/-!
Logs that are counted in parts. A byte that ends a line divides what is recorded, whatever stands
before and after it, so a log may be cut on either side of such a byte, also within the pair of a
carriage return and a line feed. The counts of the parts add up to those of the log.
-/

set_option autoImplicit false
set_option relaxedAutoImplicit false

namespace Intake.Log

/-- A log may be cut between two parts: the first is empty or its last byte ends a line, or the
second is empty or its first byte does. -/
def AtBorder (a b : List UInt8) : Prop :=
  (∀ c ∈ a.getLast?, isLineEnd c = true) ∨ ∀ c ∈ b.head?, isLineEnd c = true

/-- Parts of a log between which it may be cut: each part against all that follows it. -/
def CutAtBorders : List (List UInt8) → Prop
  | [] => True
  | part :: parts => AtBorder part parts.flatten ∧ CutAtBorders parts

variable {a b : List UInt8} {c : UInt8}

/-! ### What is recorded on either side of a line end -/

private theorem recordedLevels_line_end {line : List UInt8} (noFeed : lineFeed ∉ line)
    (noReturn : carriageReturn ∉ line) (ends : isLineEnd c = true) (rest : List UInt8) :
    recordedLevels (line ++ c :: rest) =
      (Level.marked? line).toList ++ recordedLevels rest := by
  have either : c = lineFeed ∨ c = carriageReturn := by simpa [isLineEnd] using ends
  rcases either with rfl | rfl
  · exact recordedLevels_append_feed noFeed noReturn rest
  · exact recordedLevels_append_return noFeed noReturn rest

private theorem recordedLevels_line_append_end (line : List UInt8) (noFeed : lineFeed ∉ line)
    (noReturn : carriageReturn ∉ line) (ends : isLineEnd c = true) (front rest : List UInt8) :
    recordedLevels (line ++ (front ++ c :: rest)) =
      recordedLevels (line ++ front) ++ recordedLevels rest := by
  -- `line` is the open line at this point of the bytes: a line end closes it, all else joins it.
  induction front generalizing line with
  | nil =>
    rw [List.append_nil, List.nil_append, recordedLevels_line_end noFeed noReturn ends,
      recordedLevels_of_notMem noFeed noReturn]
  | cons d front ih =>
    by_cases closes : isLineEnd d = true
    · have own := ih [] List.not_mem_nil List.not_mem_nil
      rw [List.cons_append, recordedLevels_line_end noFeed noReturn closes,
        recordedLevels_line_end noFeed noReturn closes, List.append_assoc]
      exact congrArg _ own
    · obtain ⟨notFeed, notReturn⟩ : d ≠ lineFeed ∧ d ≠ carriageReturn := by
        simpa [isLineEnd] using closes
      have joined := ih (line ++ [d]) (by simp [noFeed, notFeed.symm])
        (by simp [noReturn, notReturn.symm])
      simpa using joined

/-- A byte that ends a line divides what is recorded. -/
theorem recordedLevels_append_cons (ends : isLineEnd c = true) (front rest : List UInt8) :
    recordedLevels (front ++ c :: rest) = recordedLevels front ++ recordedLevels rest :=
  recordedLevels_line_append_end [] List.not_mem_nil List.not_mem_nil ends front rest

theorem recordedLevels_nil : recordedLevels [] = [] := by
  rfl

/-- On both sides of a cut together the levels are recorded that are recorded without it. -/
theorem recordedLevels_append (border : AtBorder a b) :
    recordedLevels (a ++ b) = recordedLevels a ++ recordedLevels b := by
  rcases border with last | first
  · rcases List.eq_nil_or_concat a with rfl | ⟨front, c, rfl⟩
    · rw [recordedLevels_nil, List.nil_append, List.nil_append]
    · have ends : isLineEnd c = true := last c (by simp)
      have alone := recordedLevels_append_cons ends front []
      rw [recordedLevels_nil, List.append_nil] at alone
      rw [List.concat_eq_append, List.append_assoc, List.singleton_append,
        recordedLevels_append_cons ends, alone]
  · cases b with
    | nil => rw [recordedLevels_nil, List.append_nil, List.append_nil]
    | cons c rest =>
      have ends : isLineEnd c = true := first c rfl
      have alone := recordedLevels_append_cons ends [] rest
      rw [recordedLevels_nil, List.nil_append, List.nil_append] at alone
      rw [recordedLevels_append_cons ends, alone]

/-! ### Counts of parts -/

theorem count_tally (bytes : List UInt8) (level : Level) :
    (tally bytes).count level = UInt64.ofNat ((recordedLevels bytes).count level) := by
  rw [tally_eq_recordLevels, Tally.count_recordLevels]
  exact UInt64.zero_add _

theorem length_recordedLevels_le (bytes : List UInt8) :
    (recordedLevels bytes).length ≤ bytes.length := by
  rw [recordedLevels_eq]
  exact (List.length_filterMap_le _ _).trans (length_lines_le bytes)

/-- The number of lines of a level in bytes that fit into memory. -/
theorem toNat_count_tally {bytes : List UInt8} (inMemory : bytes.length < 2 ^ 64) (level : Level) :
    ((tally bytes).count level).toNat = (recordedLevels bytes).count level := by
  have few : (recordedLevels bytes).count level ≤ bytes.length :=
    List.count_le_length.trans (length_recordedLevels_le bytes)
  rw [count_tally, UInt64.toNat_ofNat_of_lt' (Nat.lt_of_le_of_lt few inMemory)]

theorem count_tally_append (border : AtBorder a b) (level : Level) :
    (tally (a ++ b)).count level = (tally a).count level + (tally b).count level := by
  rw [count_tally, count_tally, count_tally, recordedLevels_append border, List.count_append,
    UInt64.ofNat_add]

theorem recordedLevels_flatten {parts : List (List UInt8)} (cut : CutAtBorders parts) :
    recordedLevels parts.flatten = parts.flatMap recordedLevels := by
  induction parts with
  | nil => exact recordedLevels_nil
  | cons part parts ih =>
    rw [List.flatten_cons, recordedLevels_append cut.1, ih cut.2, List.flatMap_cons]

theorem count_tally_flatten {parts : List (List UInt8)} (cut : CutAtBorders parts) (level : Level) :
    (tally parts.flatten).count level = (parts.map fun part => (tally part).count level).sum := by
  induction parts with
  | nil => rfl
  | cons part parts ih =>
    rw [List.flatten_cons, count_tally_append cut.1, ih cut.2, List.map_cons, List.sum_cons]

/-- The scan of a log succeeds, and cut at line ends the log has the counts of its parts together:
of two parts, or of any number of them that are counted in any order. In memory no count
overflows. -/
theorem count_tally_of_parts :
    (∀ bytes : List UInt8, countReads [.bytes bytes] = .ok (tally bytes)) ∧
    (∀ a b : List UInt8, AtBorder a b → ∀ level,
      (tally (a ++ b)).count level = (tally a).count level + (tally b).count level) ∧
    ∀ parts order : List (List UInt8), CutAtBorders parts → order.Perm parts → ∀ level,
      (tally parts.flatten).count level = (order.map fun part => (tally part).count level).sum ∧
      (parts.flatten.length < 2 ^ 64 →
        ((tally parts.flatten).count level).toNat =
          (order.map fun part => ((tally part).count level).toNat).sum) := by
  refine ⟨fun bytes => by cases bytes <;> rfl, fun a b border => count_tally_append border, ?_⟩
  intro parts order cut perm level
  constructor
  · rw [count_tally_flatten cut, (perm.map _).sum_eq]
  · intro inMemory
    have own : ∀ part ∈ parts,
        ((tally part).count level).toNat = (recordedLevels part).count level := by
      intro part mem
      have shorter : part.length ≤ parts.flatten.length :=
        (List.sublist_flatten_of_mem mem).length_le
      exact toNat_count_tally (Nat.lt_of_le_of_lt shorter inMemory) level
    rw [toNat_count_tally inMemory, recordedLevels_flatten cut, List.count_flatMap,
      (perm.map _).sum_eq, List.map_congr_left own]
    rfl

/-- A cut within the pair of a carriage return and a line feed, and an invalid byte before it. -/
theorem count_tally_of_parts_split_pair :
    AtBorder [73, 78, 70, 79, 255, 13] [10, 73, 78, 70, 79] ∧
      (tally ([73, 78, 70, 79, 255, 13] ++ [10, 73, 78, 70, 79])).count .info =
        (tally [73, 78, 70, 79, 255, 13]).count .info + (tally [10, 73, 78, 70, 79]).count .info ∧
      ((tally [73, 78, 70, 79, 255, 13, 10, 73, 78, 70, 79]).count .info).toNat = 2 := by
  have border : AtBorder [73, 78, 70, 79, 255, 13] [10, 73, 78, 70, 79] :=
    .inl fun c last => by cases last; rfl
  have cut : CutAtBorders [[73, 78, 70, 79, 255, 13], [10, 73, 78, 70, 79]] :=
    ⟨border, .inr nofun, trivial⟩
  refine ⟨border, count_tally_of_parts.2.1 _ _ border .info, ?_⟩
  exact ((count_tally_of_parts.2.2 _ _ cut (List.Perm.refl _) .info).2 (by decide)).trans
    (by decide)

end Intake.Log
