import Intake.Proofs.Log.Lines

/-!
Logs that come in reads are counted like the bytes that the reads bring, in whatever parts: up to
the end of the scan, with a line feed for each empty read that ends an open block.
-/

set_option autoImplicit false
set_option relaxedAutoImplicit false

namespace Intake.Log

/-- Whether bytes are pending after a read, that is, came since the last line feed or empty read. -/
def Read.leavesPending (pending : Bool) : Read → Bool
  | .bytes [] => false
  | .bytes b => b.getLast? != some lineFeed
  | .interrupted | .failed _ => pending

/-- The reads up to the end of the scan, which is an empty read with no bytes pending. -/
def reached (pending : Bool) : List Read → List Read
  | [] => []
  | read :: reads =>
    if read = .bytes [] ∧ pending = false then []
    else read :: reached (read.leavesPending pending) reads

/-- Why a read failed for good. -/
def Read.failure? : Read → Option String
  | .failed reason => some reason
  | _ => none

/-- The bytes that a read before the end of the scan stands for. -/
def Read.stream : Read → List UInt8
  | .bytes [] => [lineFeed]
  | .bytes b => b
  | .interrupted | .failed _ => []

/-! ### Open blocks -/

theorem cutBlocks_append (front rest : List UInt8) :
    cutBlocks (front ++ rest) =
      ((cutBlocks front).1 ++ (cutBlocks ((cutBlocks front).2 ++ rest)).1,
        (cutBlocks ((cutBlocks front).2 ++ rest)).2) := by
  induction front with
  | nil => rfl
  | cons b front ih =>
    simp only [List.cons_append, cutBlocks]
    rw [ih]
    by_cases feed : b = lineFeed
    · simp [feed]
    · rcases cutBlocks front with ⟨_ | ⟨block, blocks⟩, last⟩
      · simp [feed, cutBlocks]
      · simp [feed]

theorem cutBlocks_of_notMem {bytes : List UInt8} (h : lineFeed ∉ bytes) :
    cutBlocks bytes = ([], bytes) := by
  have cut := cutBlocks_append_of_notMem h []
  simpa [cutBlocks] using cut

theorem lineFeed_notMem_cutBlocks (bytes : List UInt8) : lineFeed ∉ (cutBlocks bytes).2 := by
  induction bytes with
  | nil => exact List.not_mem_nil
  | cons b rest ih =>
    simp only [cutBlocks]
    split
    · exact ih
    · rename_i plain
      rcases h : cutBlocks rest with ⟨_ | ⟨block, blocks⟩, last⟩
      · rw [h] at ih
        simpa [Ne.symm plain] using ih
      · rw [h] at ih
        exact ih

/-- No block is open after a line feed, and one is after any other byte. -/
theorem cutBlocks_append_singleton_eq_nil_iff (front : List UInt8) (b : UInt8) :
    (cutBlocks (front ++ [b])).2 = [] ↔ b = lineFeed := by
  rw [cutBlocks_append, cutBlocks_append_of_notMem (lineFeed_notMem_cutBlocks front)]
  by_cases feed : b = lineFeed
  · simp [cutBlocks, feed]
  · simp [cutBlocks, feed]

private theorem leavesPending_bytes (opened : List UInt8) {b : List UInt8} (h : b ≠ [])
    (pending : Bool) :
    (Read.bytes b).leavesPending pending = decide ((cutBlocks (opened ++ b)).2 ≠ []) := by
  obtain ⟨front, last, rfl⟩ := List.eq_nil_or_concat b |>.resolve_left h
  rw [List.concat_eq_append, ← List.append_assoc, Bool.eq_iff_iff, decide_eq_true_iff, ne_eq,
    cutBlocks_append_singleton_eq_nil_iff]
  cases front with
  | nil => simp [Read.leavesPending]
  | cons c front =>
    have ends : (c :: (front ++ [last])).getLast? = some last :=
      List.getLast?_concat (l := c :: front)
    simp [Read.leavesPending, ends]

/-- A line feed at the end of a block ends its last line and nothing else. -/
theorem cutLines_append_feed (block : List UInt8) :
    ∃ front last, cutLines block = front ++ [last] ∧
      cutLines (block ++ [lineFeed]) = front ++ [last ++ [lineFeed]] := by
  induction block with
  | nil => exact ⟨[], [], rfl, by decide⟩
  | cons b block ih =>
    obtain ⟨front, last, plain, fed⟩ := ih
    by_cases ret : b = carriageReturn
    · exact ⟨[] :: front, last, by simp [cutLines, ret, plain], by simp [cutLines, ret, fed]⟩
    · cases front with
      | nil => exact ⟨[], b :: last, by simp [cutLines, ret, plain], by simp [cutLines, ret, fed]⟩
      | cons line front =>
        exact ⟨(b :: line) :: front, last, by simp [cutLines, ret, plain],
          by simp [cutLines, ret, fed]⟩

theorem blockLevels_append_feed (block : List UInt8) :
    blockLevels (block ++ [lineFeed]) = blockLevels block := by
  obtain ⟨front, last, plain, fed⟩ := cutLines_append_feed block
  rw [blockLevels, blockLevels, plain, fed, List.filterMap_append, List.filterMap_append]
  simp [List.filterMap_cons, marked?_append_lineFeed]

theorem recordedLevels_of_cutBlocks (front rest : List UInt8) :
    recordedLevels (front ++ rest) =
      (cutBlocks front).1.flatMap blockLevels ++ recordedLevels ((cutBlocks front).2 ++ rest) := by
  rw [recordedLevels, cutBlocks_append, recordedLevels, List.flatMap_append, List.append_assoc]

private theorem recordedLevels_open {opened : List UInt8} (h : lineFeed ∉ opened) :
    recordedLevels opened = blockLevels opened := by
  rw [recordedLevels, cutBlocks_of_notMem h, List.flatMap_nil, List.nil_append]

private theorem recordedLevels_open_feed {opened : List UInt8} (h : lineFeed ∉ opened)
    (rest : List UInt8) :
    recordedLevels (opened ++ lineFeed :: rest) = blockLevels opened ++ recordedLevels rest := by
  have cut : cutBlocks (opened ++ [lineFeed]) = ([opened ++ [lineFeed]], []) := by
    rw [cutBlocks_append_of_notMem h]
    rfl
  rw [← List.singleton_append, ← List.append_assoc, recordedLevels_of_cutBlocks, cut]
  simp [blockLevels_append_feed]

/-! ### Scans -/

/-- What a scan gives from the reads that it reaches. -/
def outcome (opened : List UInt8) (t : Tally) (reads : List Read) : Except String Tally :=
  match reads.findSome? Read.failure? with
  | some reason => .error reason
  | none => .ok (t.recordLevels (recordedLevels (opened ++ reads.flatMap Read.stream)))

private theorem outcome_empty {opened : List UInt8} (h : lineFeed ∉ opened) (t : Tally)
    (reads : List Read) :
    outcome opened t (.bytes [] :: reads) = outcome [] (t.recordBlock opened) reads := by
  simp only [outcome, List.findSome?_cons, Read.failure?, List.flatMap_cons, Read.stream,
    List.singleton_append, List.nil_append]
  rw [recordedLevels_open_feed h, Tally.recordLevels_append, Tally.recordBlock_eq]

private theorem outcome_bytes (opened : List UInt8) (t : Tally) {b : List UInt8} (h : b ≠ [])
    (reads : List Read) :
    outcome opened t (.bytes b :: reads) =
      outcome (cutBlocks (opened ++ b)).2 (t.recordBlocks (cutBlocks (opened ++ b)).1) reads := by
  have stream : (Read.bytes b).stream = b := by
    cases b with
    | nil => exact absurd rfl h
    | cons => rfl
  simp only [outcome, List.findSome?_cons, Read.failure?, List.flatMap_cons, stream]
  rw [← List.append_assoc, recordedLevels_of_cutBlocks, Tally.recordLevels_append,
    Tally.recordBlocks_eq]

private theorem reached_cons {read : Read} {pending : Bool}
    (h : ¬ (read = .bytes [] ∧ pending = false)) (reads : List Read) :
    reached pending (read :: reads) = read :: reached (read.leavesPending pending) reads :=
  if_neg h

/-- The open block of the scan holds what is pending, read by read. -/
theorem scanFrom_eq {opened : List UInt8} (h : lineFeed ∉ opened) (t : Tally)
    (reads : List Read) :
    scanFrom opened t reads = outcome opened t (reached (opened ≠ []) reads) := by
  induction reads generalizing opened t with
  | nil => simp [scanFrom, reached, outcome, Tally.close_eq, recordedLevels_open h]
  | cons read reads ih =>
    match read with
    | .interrupted =>
      rw [scanFrom, reached_cons (by simp)]
      exact ih h t
    | .failed reason =>
      rw [scanFrom, reached_cons (by simp)]
      rfl
    | .bytes [] =>
      by_cases closed : opened = []
      · simp [scanFrom, reached, outcome, closed, recordedLevels_open List.not_mem_nil,
          blockLevels, cutLines, marked?_nil]
      · rw [scanFrom, if_neg closed, reached_cons (by simp [closed]), outcome_empty h]
        exact ih List.not_mem_nil (t.recordBlock opened)
    | .bytes (c :: b) =>
      have nonempty : c :: b ≠ [] := List.cons_ne_nil c b
      rw [scanFrom, reached_cons (by simp), outcome_bytes opened t nonempty,
        leavesPending_bytes opened nonempty]
      · exact ih (lineFeed_notMem_cutBlocks _) _
      · exact nonempty

theorem reached_of_notMem (pending : Bool) {reads : List Read} (h : .bytes [] ∉ reads) :
    reached pending reads = reads := by
  induction reads generalizing pending with
  | nil => rfl
  | cons read reads ih =>
    have goesOn : ¬ (read = .bytes [] ∧ pending = false) :=
      fun ends => h (ends.1 ▸ List.mem_cons_self)
    rw [reached_cons goesOn, ih _ fun mem => h (List.mem_cons_of_mem read mem)]

/-- Reads after the end of the scan are not reached. -/
private theorem reached_append {pending : Bool} {reads : List Read}
    (h : reached pending reads ≠ reads) (more : List Read) :
    reached pending (reads ++ more) = reached pending reads := by
  induction reads generalizing pending with
  | nil => exact absurd rfl h
  | cons read reads ih =>
    by_cases ends : read = .bytes [] ∧ pending = false
    · rw [List.cons_append, reached, if_pos ends, reached, if_pos ends]
    · rw [reached_cons ends] at h
      have inner : reached (read.leavesPending pending) reads ≠ reads := by
        intro eq
        exact h (congrArg (read :: ·) eq)
      rw [List.cons_append, reached_cons ends, reached_cons ends, ih inner]

theorem countReads_eq_outcome (reads : List Read) :
    countReads reads =
      match (reached false reads).findSome? Read.failure? with
      | some reason => .error (.unreadable reason)
      | none => .ok (tally ((reached false reads).flatMap Read.stream)) := by
  have run : scan reads = outcome [] .empty (reached false reads) :=
    scanFrom_eq List.not_mem_nil .empty reads
  rw [countReads, run, outcome, List.nil_append]
  cases (reached false reads).findSome? Read.failure? with
  | none => rw [tally_eq_recordLevels]
  | some reason => rfl

/-- A log that comes in reads: the first failure before the end of the scan, or else the tally of
the bytes that the reads before it stand for. What comes after the end makes no difference; if no
read is empty, neither do the cuts between the reads and the interrupted ones. -/
theorem countReads_eq_tally (reads : List Read) :
    (countReads reads =
      match (reached false reads).findSome? Read.failure? with
      | some reason => .error (.unreadable reason)
      | none => .ok (tally ((reached false reads).flatMap Read.stream))) ∧
    (reached false reads ≠ reads → ∀ more, countReads (reads ++ more) = countReads reads) ∧
    (.bytes [] ∉ reads →
      countReads reads =
        match reads.findSome? Read.failure? with
        | some reason => .error (.unreadable reason)
        | none => .ok (tally (reads.flatMap Read.stream))) := by
  refine ⟨countReads_eq_outcome reads, ?_, ?_⟩
  · intro ended more
    rw [countReads_eq_outcome, countReads_eq_outcome, reached_append ended]
  · intro noEmpty
    rw [countReads_eq_outcome, reached_of_notMem false noEmpty]

/-- Right after a carriage return the first empty read ends a line only, the second the scan. -/
theorem countReads_eq_tally_after_end :
    reached false [.bytes [13], .interrupted, .bytes [], .bytes []] =
        [.bytes [13], .interrupted, .bytes []] ∧
      countReads ([.bytes [13], .interrupted, .bytes [], .bytes []] ++ [.failed "late"]) =
        countReads [.bytes [13], .interrupted, .bytes [], .bytes []] :=
  ⟨by decide, (countReads_eq_tally _).2.1 (by decide) _⟩

end Intake.Log
