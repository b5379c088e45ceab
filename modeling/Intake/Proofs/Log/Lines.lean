import Intake.Log.Report
import Intake.Proofs.Log.Tally
import Intake.Proofs.Text.Utf8

/-!
The lines of a log, cut at every line feed, carriage return, or pair of the two. Counting blocks at
line feeds and cutting them at carriage returns gives each level as often as it has lines.
-/

set_option autoImplicit false
set_option relaxedAutoImplicit false

namespace Intake.Log

/-! ### Levels of lines -/

theorem occursIn_eq_true_iff {part s : List Char} : occursIn part s = true ↔ part <:+: s := by
  induction s with
  | nil => simp [occursIn]
  | cons c rest ih => simp [occursIn, ih, List.infix_cons_iff]

/-- The level of a line of bytes: the first whose marker stands in it. -/
def Level.marked? (line : List UInt8) : Option Level :=
  [error, warn, info, debug, fatal].find? fun level =>
    level.marker.toList <:+: Text.Utf8.decodeLossy line

theorem ofLine?_decodeLossy (line : List UInt8) :
    Level.ofLine? (Text.Utf8.decodeLossy line) = Level.marked? line := by
  unfold Level.ofLine? Level.marked? Level.priority
  congr 1
  funext level
  rw [Bool.eq_iff_iff, occursIn_eq_true_iff, decide_eq_true_iff]

private theorem lineFeed_notMem_marker (level : Level) : '\n' ∉ level.marker.toList := by
  cases level <;> decide

private theorem marker_infix_append_lineFeed (level : Level) (s : List Char) :
    level.marker.toList <:+: s ++ ['\n'] ↔ level.marker.toList <:+: s := by
  rw [List.infix_concat_iff, List.suffix_concat_iff]
  constructor
  · rintro ((empty | ⟨front, eq, -⟩) | inside)
    · cases level <;> cases empty
    · exact absurd (by simp [eq]) (lineFeed_notMem_marker level)
    · exact inside
  · exact Or.inr

/-- A line feed at the end of a line has no part in its level. -/
theorem marked?_append_lineFeed (line : List UInt8) :
    Level.marked? (line ++ [lineFeed]) = Level.marked? line := by
  have feed : Text.Utf8.decodeLossy (line ++ [lineFeed]) =
      Text.Utf8.decodeLossy line ++ ['\n'] :=
    Text.Utf8.decodeLossy_append_ascii line (by decide) []
  simp only [Level.marked?, feed, marker_infix_append_lineFeed]

theorem marked?_nil : Level.marked? [] = none := by decide

/-- The levels of the lines of a block. -/
def blockLevels (block : List UInt8) : List Level := (cutLines block).filterMap Level.marked?

namespace Tally

theorem recordLine_decodeLossy (t : Tally) (line : List UInt8) :
    t.recordLine (Text.Utf8.decodeLossy line) = t.recordLevels (Level.marked? line).toList := by
  rw [recordLine, ofLine?_decodeLossy]
  cases Level.marked? line <;> rfl

theorem recordBlock_eq (t : Tally) (block : List UInt8) :
    t.recordBlock block = t.recordLevels (blockLevels block) := by
  rw [recordBlock, blockLevels]
  induction cutLines block generalizing t with
  | nil => rfl
  | cons line lines ih =>
    rw [List.foldl_cons, ih, recordLine_decodeLossy, List.filterMap_cons]
    cases Level.marked? line <;> rfl

theorem recordBlocks_eq (t : Tally) (blocks : List (List UInt8)) :
    t.recordBlocks blocks = t.recordLevels (blocks.flatMap blockLevels) := by
  induction blocks generalizing t with
  | nil => rfl
  | cons block blocks ih =>
    rw [List.flatMap_cons, recordLevels_append, ← ih, ← recordBlock_eq]
    rfl

theorem close_eq (t : Tally) (opened : List UInt8) :
    t.close opened = t.recordLevels (blockLevels opened) := by
  by_cases h : opened = []
  · rw [h, close, if_pos rfl, blockLevels, cutLines, List.filterMap_cons_none marked?_nil]
    rfl
  · rw [close, if_neg h, recordBlock_eq]

end Tally

/-- The levels that are recorded for some bytes. -/
def recordedLevels (bytes : List UInt8) : List Level :=
  (cutBlocks bytes).1.flatMap blockLevels ++ blockLevels (cutBlocks bytes).2

theorem tally_eq_recordLevels (bytes : List UInt8) :
    tally bytes = Tally.recordLevels .empty (recordedLevels bytes) := by
  rw [recordedLevels, Tally.recordLevels_append, ← Tally.recordBlocks_eq, ← Tally.close_eq]
  rfl

/-! ### Blocks and their pieces -/

theorem cutBlocks_append_of_notMem {front : List UInt8} (h : lineFeed ∉ front)
    (rest : List UInt8) :
    cutBlocks (front ++ rest) =
      match cutBlocks rest with
      | ([], last) => ([], front ++ last)
      | (block :: blocks, last) => ((front ++ block) :: blocks, last) := by
  induction front with
  | nil =>
    rw [List.nil_append]
    rcases cutBlocks rest with ⟨_ | ⟨block, blocks⟩, last⟩ <;> rfl
  | cons b front ih =>
    have ne : b ≠ lineFeed := fun eq => h (eq ▸ List.mem_cons_self)
    have tail := ih fun mem => h (List.mem_cons_of_mem b mem)
    simp only [List.cons_append, cutBlocks, tail, if_neg ne]
    rcases cutBlocks rest with ⟨_ | ⟨block, blocks⟩, last⟩ <;> rfl

theorem cutLines_of_notMem {line : List UInt8} (h : carriageReturn ∉ line) :
    cutLines line = [line] := by
  induction line with
  | nil => rfl
  | cons b line ih =>
    have ne : b ≠ carriageReturn := fun eq => h (eq ▸ List.mem_cons_self)
    simp [cutLines, ne, ih fun mem => h (List.mem_cons_of_mem b mem)]

theorem cutLines_append_return {line : List UInt8} (h : carriageReturn ∉ line)
    (rest : List UInt8) :
    cutLines (line ++ carriageReturn :: rest) = line :: cutLines rest := by
  induction line with
  | nil => simp [cutLines]
  | cons b line ih =>
    have ne : b ≠ carriageReturn := fun eq => h (eq ▸ List.mem_cons_self)
    simp [cutLines, ne, ih fun mem => h (List.mem_cons_of_mem b mem)]

private theorem blockLevels_of_notMem {line : List UInt8} (h : carriageReturn ∉ line) :
    blockLevels line = (Level.marked? line).toList := by
  rw [blockLevels, cutLines_of_notMem h]
  cases hl : Level.marked? line <;> simp [hl]

private theorem blockLevels_append_return {line : List UInt8} (h : carriageReturn ∉ line)
    (rest : List UInt8) :
    blockLevels (line ++ carriageReturn :: rest) =
      (Level.marked? line).toList ++ blockLevels rest := by
  rw [blockLevels, cutLines_append_return h, blockLevels]
  cases hl : Level.marked? line <;> simp [hl]

section Recorded

variable {line : List UInt8} (noFeed : lineFeed ∉ line) (noReturn : carriageReturn ∉ line)

include noFeed noReturn

theorem recordedLevels_of_notMem : recordedLevels line = (Level.marked? line).toList := by
  have cut := cutBlocks_append_of_notMem noFeed []
  rw [List.append_nil] at cut
  rw [recordedLevels, cut]
  simp [cutBlocks, blockLevels_of_notMem noReturn]

theorem recordedLevels_append_feed (rest : List UInt8) :
    recordedLevels (line ++ lineFeed :: rest) =
      (Level.marked? line).toList ++ recordedLevels rest := by
  have noReturn' : carriageReturn ∉ line ++ [lineFeed] := by
    simp only [List.mem_append, List.mem_singleton, noReturn, false_or]
    decide
  have head := blockLevels_of_notMem noReturn'
  rw [marked?_append_lineFeed] at head
  rw [recordedLevels, cutBlocks_append_of_notMem noFeed]
  simp [cutBlocks, recordedLevels, head]

theorem recordedLevels_append_return (rest : List UInt8) :
    recordedLevels (line ++ carriageReturn :: rest) =
      (Level.marked? line).toList ++ recordedLevels rest := by
  have noFeed' : lineFeed ∉ line ++ [carriageReturn] := by
    simp only [List.mem_append, List.mem_singleton, noFeed, false_or]
    decide
  rw [← List.singleton_append (l := rest), ← List.append_assoc, recordedLevels,
    cutBlocks_append_of_notMem noFeed', recordedLevels]
  rcases cutBlocks rest with ⟨_ | ⟨block, blocks⟩, last⟩
  · simp [blockLevels_append_return noReturn]
  · simp [blockLevels_append_return noReturn]

end Recorded

/-! ### Lines -/

/-- A byte that ends a line. -/
def isLineEnd (b : UInt8) : Bool := b == lineFeed || b == carriageReturn

/-- The bytes after the line end at the front: a line feed, a carriage return, or a carriage return
and the line feed right after it. -/
def dropLineEnd : List UInt8 → List UInt8
  | [] => []
  | b :: rest =>
    if b = carriageReturn ∧ rest.head? = some lineFeed then rest.tail else rest

private theorem length_dropLineEnd_lt {b : UInt8} {rest : List UInt8} :
    (dropLineEnd (b :: rest)).length < (b :: rest).length := by
  simp only [dropLineEnd]
  split
  · simp only [List.length_tail, List.length_cons]
    omega
  · simp

private theorem length_afterLine_lt (b : UInt8) (rest : List UInt8) :
    (dropLineEnd ((b :: rest).dropWhile (!isLineEnd ·))).length < (b :: rest).length := by
  have shorter := (List.dropWhile_sublist (!isLineEnd ·) (l := b :: rest)).length_le
  cases h : (b :: rest).dropWhile (!isLineEnd ·) with
  | nil => simp [dropLineEnd]
  | cons c more =>
    rw [h] at shorter
    exact Nat.lt_of_lt_of_le length_dropLineEnd_lt shorter

/-- The lines of some bytes, without what ends them. Nothing has to end the last one. -/
def lines (bytes : List UInt8) : List (List UInt8) :=
  match bytes with
  | [] => []
  | b :: rest =>
    (b :: rest).takeWhile (!isLineEnd ·) ::
      lines (dropLineEnd ((b :: rest).dropWhile (!isLineEnd ·)))
termination_by bytes.length
decreasing_by exact length_afterLine_lt b rest

theorem length_lines_le (bytes : List UInt8) : (lines bytes).length ≤ bytes.length := by
  fun_induction lines bytes with
  | case1 => exact Nat.le_refl _
  | case2 b rest ih =>
    have shorter := length_afterLine_lt b rest
    simp only [List.length_cons] at shorter ⊢
    omega

private theorem notMem_takeWhile (bytes : List UInt8) :
    lineFeed ∉ bytes.takeWhile (!isLineEnd ·) ∧
      carriageReturn ∉ bytes.takeWhile (!isLineEnd ·) := by
  constructor <;> intro mem <;> exact absurd (List.mem_takeWhile_imp mem) (by decide)

theorem notMem_of_mem_lines {bytes line : List UInt8} (h : line ∈ lines bytes) :
    lineFeed ∉ line ∧ carriageReturn ∉ line := by
  fun_induction lines bytes with
  | case1 => cases h
  | case2 b rest ih =>
    rcases List.mem_cons.1 h with rfl | h
    · exact notMem_takeWhile (b :: rest)
    · exact ih h

private theorem recordedLevels_feed (rest : List UInt8) :
    recordedLevels (lineFeed :: rest) = recordedLevels rest := by
  have noFeed : lineFeed ∉ ([] : List UInt8) := List.not_mem_nil
  have noReturn : carriageReturn ∉ ([] : List UInt8) := List.not_mem_nil
  simpa [marked?_nil] using recordedLevels_append_feed noFeed noReturn rest

/-- A line and what ends it are recorded apart from the bytes after them. -/
private theorem recordedLevels_append_lineEnd {line tail : List UInt8} (noFeed : lineFeed ∉ line)
    (noReturn : carriageReturn ∉ line) (ended : ∀ b ∈ tail.head?, isLineEnd b = true) :
    recordedLevels (line ++ tail) =
      (Level.marked? line).toList ++ recordedLevels (dropLineEnd tail) := by
  cases tail with
  | nil =>
    rw [List.append_nil, recordedLevels_of_notMem noFeed noReturn]
    simp [dropLineEnd, recordedLevels, cutBlocks, blockLevels, cutLines, marked?_nil]
  | cons b rest =>
    have isEnd : b = lineFeed ∨ b = carriageReturn := by
      simpa [isLineEnd] using ended b rfl
    rcases isEnd with rfl | rfl
    · have plain : lineFeed ≠ carriageReturn := by decide
      rw [recordedLevels_append_feed noFeed noReturn, dropLineEnd, if_neg fun h => plain h.1]
    · rw [recordedLevels_append_return noFeed noReturn, dropLineEnd]
      split
      · rename_i paired
        obtain ⟨more, rfl⟩ := List.head?_eq_some_iff.1 paired.2
        rw [recordedLevels_feed, List.tail_cons]
      · rfl

/-- What is recorded are the levels of the lines. -/
theorem recordedLevels_eq (bytes : List UInt8) :
    recordedLevels bytes = (lines bytes).filterMap Level.marked? := by
  fun_induction lines bytes with
  | case1 => simp [recordedLevels, cutBlocks, blockLevels, cutLines, marked?_nil]
  | case2 b rest ih =>
    obtain ⟨noFeed, noReturn⟩ := notMem_takeWhile (b :: rest)
    have ended : ∀ c ∈ ((b :: rest).dropWhile (!isLineEnd ·)).head?, isLineEnd c = true := by
      intro c hc
      have first := List.head?_dropWhile_not (!isLineEnd ·) (b :: rest)
      rw [Option.mem_def.1 hc] at first
      simpa using first
    have split := recordedLevels_append_lineEnd noFeed noReturn ended
    rw [List.takeWhile_append_dropWhile] at split
    rw [split, ih, List.filterMap_cons]
    cases Level.marked? ((b :: rest).takeWhile (!isLineEnd ·)) <;> rfl

/-! ### Tallies of lines -/

/-- The number of lines of a level. -/
def lineCount (lines : List (List UInt8)) (level : Level) : Nat :=
  lines.countP fun line => Level.marked? line = some level

/-- The levels that occur in some lines, in order of priority, with the number of their lines. -/
def lineEntries (lines : List (List UInt8)) : List (Level × UInt64) :=
  [Level.error, .warn, .info, .debug, .fatal].filterMap fun level =>
    if lineCount lines level = 0 then none
    else some (level, UInt64.ofNat (lineCount lines level))

private theorem lineEntries_eq (lines : List (List UInt8)) :
    lineEntries lines = [Level.error, .warn, .info, .debug, .fatal].filterMap fun level =>
      (if lineCount lines level = 0 then none
        else some (UInt64.ofNat (lineCount lines level))).map (Prod.mk level) := by
  unfold lineEntries
  congr 1
  funext level
  split <;> rfl

theorem increasing_lineEntries (lines : List (List UInt8)) :
    Keyed.Increasing (lineEntries lines) := by
  rw [lineEntries_eq]
  exact Keyed.increasing_filterMap_map (by decide) _

/-- The tally of some lines. -/
def Tally.ofLines (lines : List (List UInt8)) : Tally :=
  .ofIncreasing (lineEntries lines) (increasing_lineEntries lines)

private theorem count_filterMap_marked? (lines : List (List UInt8)) (level : Level) :
    (lines.filterMap Level.marked?).count level = lineCount lines level := by
  rw [List.count_filterMap, lineCount]
  congr 1
  funext line
  rw [Bool.eq_iff_iff, beq_iff_eq, decide_eq_true_iff]

private theorem get?_ofLines (lines : List (List UInt8)) (level : Level) :
    (Tally.ofLines lines).get? level =
      if lineCount lines level = 0 then none
      else some (UInt64.ofNat (lineCount lines level)) := by
  rw [Tally.ofLines, Keyed.get?_ofIncreasing, lineEntries_eq, Keyed.lookup_filterMap_map, if_pos]
  cases level <;> decide

private theorem recordLevels_filterMap (lines : List (List UInt8)) :
    Tally.recordLevels .empty (lines.filterMap Level.marked?) = Tally.ofLines lines := by
  refine Keyed.ext fun level => ?_
  have occurs : level ∈ lines.filterMap Level.marked? ↔ 0 < lineCount lines level := by
    rw [← List.count_pos_iff, count_filterMap_marked?]
  rw [Tally.get?_recordLevels_empty, get?_ofLines, count_filterMap_marked?]
  by_cases absent : lineCount lines level = 0
  · rw [if_neg fun h => absurd (occurs.1 h) (absent ▸ Nat.lt_irrefl 0), if_pos absent]
  · rw [if_pos (occurs.2 (Nat.pos_of_ne_zero absent)), if_neg absent]

private theorem count_ofLines (lines : List (List UInt8)) (level : Level) :
    (Tally.ofLines lines).count level = UInt64.ofNat (lineCount lines level) := by
  rw [Tally.count, get?_ofLines]
  split
  · rename_i absent
    simp [absent]
  · rfl

/-- Bytes in memory are counted by their lines: a level has an entry if some line has that level,
and then the number of those lines. No line reaches over a line end. -/
theorem tally_eq_ofLines (bytes : List UInt8) :
    countReads [.bytes bytes] = .ok (tally bytes) ∧
      tally bytes = Tally.ofLines (lines bytes) ∧
      (∀ level, (tally bytes).count level = UInt64.ofNat (lineCount (lines bytes) level)) ∧
      (bytes.length < 2 ^ 64 →
        ∀ level, ((tally bytes).count level).toNat = lineCount (lines bytes) level) ∧
      (tally bytes).total.toNat ≤ (lines bytes).length ∧
      ∀ line ∈ lines bytes, lineFeed ∉ line ∧ carriageReturn ∉ line := by
  have reads : countReads [.bytes bytes] = .ok (tally bytes) := by cases bytes <;> rfl
  have entries : tally bytes = Tally.ofLines (lines bytes) := by
    rw [tally_eq_recordLevels, recordedLevels_eq, recordLevels_filterMap]
  have number (level : Level) :
      (tally bytes).count level = UInt64.ofNat (lineCount (lines bytes) level) := by
    rw [entries, count_ofLines]
  refine ⟨reads, entries, number, ?_, ?_, fun line h => notMem_of_mem_lines h⟩
  · intro inMemory level
    have few : lineCount (lines bytes) level ≤ bytes.length :=
      List.countP_le_length.trans (length_lines_le bytes)
    rw [number, UInt64.toNat_ofNat_of_lt' (Nat.lt_of_le_of_lt few inMemory)]
  · have total : (tally bytes).total =
        UInt64.ofNat ((lines bytes).filterMap Level.marked?).length := by
      rw [tally_eq_recordLevels, recordedLevels_eq, Tally.total_recordLevels]
      exact UInt64.zero_add _
    rw [total, UInt64.toNat_ofNat']
    exact (Nat.mod_le _ _).trans (List.length_filterMap_le _ _)

/-- A level word that a line end cuts is no marker; one before a carriage return is. -/
theorem tally_eq_ofLines_cut_marker :
    ∀ level, ((tally [69, 82, 82, 13, 10, 79, 82, 13, 87, 65, 82, 78, 13]).count level).toNat =
      if level = .warn then 1 else 0 := by
  intro level
  have cut : lines [69, 82, 82, 13, 10, 79, 82, 13, 87, 65, 82, 78, 13] =
      [[69, 82, 82], [79, 82], [87, 65, 82, 78]] := by cbv
  rw [(tally_eq_ofLines _).2.2.2.1 (by decide) level, cut]
  cases level <;> decide

example : lines [97, 13, 10, 98, 13, 13, 10, 99] = [[97], [98], [], [99]] := by cbv

end Intake.Log
