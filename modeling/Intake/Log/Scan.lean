import Intake.Log.Tally
import Intake.Text.Utf8

/-!
Counting the levels of the lines of a log. A block ends with a line feed, and carriage returns cut
it into lines; invalid bytes do not end a line. The bytes come in any number of reads: what was read
of the open block is all that is kept between them.
-/

set_option autoImplicit false
set_option relaxedAutoImplicit false

namespace Intake.Log

def lineFeed : UInt8 := 10

def carriageReturn : UInt8 := 13

/-- The blocks that end within some bytes, each with its line feed, and what follows the last. -/
def cutBlocks : List UInt8 → List (List UInt8) × List UInt8
  | [] => ([], [])
  | b :: rest =>
    let (blocks, last) := cutBlocks rest
    if b = lineFeed then ([b] :: blocks, last)
    else
      match blocks with
      | [] => ([], b :: last)
      | block :: blocks => ((b :: block) :: blocks, last)

/-- Nothing is lost when bytes are cut into blocks. -/
theorem flatten_cutBlocks (bytes : List UInt8) :
    (cutBlocks bytes).1.flatten ++ (cutBlocks bytes).2 = bytes := by
  induction bytes with
  | nil => rfl
  | cons b rest ih =>
    simp only [cutBlocks]
    split
    · simpa using ih
    · cases h : (cutBlocks rest).1 with
      | nil => simpa [h] using ih
      | cons block blocks => simpa [h] using ih

/-- The lines of a block, without the carriage returns that end them. -/
def cutLines : List UInt8 → List (List UInt8)
  | [] => [[]]
  | b :: rest =>
    if b = carriageReturn then [] :: cutLines rest
    else
      match cutLines rest with
      | [] => [[b]]
      | line :: lines => (b :: line) :: lines

theorem cutLines_ne_nil (block : List UInt8) : cutLines block ≠ [] := by
  cases block with
  | nil => simp [cutLines]
  | cons b rest =>
    simp only [cutLines]
    split
    · simp
    · split <;> simp

/-- The lines of a block, joined by carriage returns, are the block. -/
theorem intercalate_cutLines (block : List UInt8) :
    [carriageReturn].intercalate (cutLines block) = block := by
  induction block with
  | nil => rfl
  | cons b rest ih =>
    simp only [cutLines]
    cases h : cutLines rest with
    | nil => exact absurd h (cutLines_ne_nil rest)
    | cons line lines =>
      rw [h] at ih
      split
      · rename_i hb
        simp [List.intercalate_cons_cons, ih, hb]
      · cases lines with
        | nil => simpa using ih
        | cons next lines => simpa [List.intercalate_cons_cons] using ih

namespace Tally

def recordBlock (t : Tally) (block : List UInt8) : Tally :=
  (cutLines block).foldl (fun t line => t.recordLine (Text.Utf8.decodeLossy line)) t

def recordBlocks (t : Tally) (blocks : List (List UInt8)) : Tally := blocks.foldl recordBlock t

end Tally

/-- What one read of a log brings. -/
inductive Read where
  /-- The next bytes; none of them looks like the end of the log. -/
  | bytes (b : List UInt8)
  /-- Nothing, but reading again may help. -/
  | interrupted
  /-- Nothing, and the reason for it. -/
  | failed (reason : String)
  deriving DecidableEq, Repr

/-- Records what is left of an open block. -/
def Tally.close (t : Tally) (opened : List UInt8) : Tally :=
  if opened = [] then t else t.recordBlock opened

/-- Counts the lines that some reads bring after the open block. A read that fails ends the scan
without a tally; one that brings no bytes ends the open block, or the scan if no block is open. -/
def scanFrom (opened : List UInt8) (t : Tally) : List Read → Except String Tally
  | [] => .ok (t.close opened)
  | .interrupted :: reads => scanFrom opened t reads
  | .failed reason :: _ => .error reason
  | .bytes [] :: reads => if opened = [] then .ok t else scanFrom [] (t.recordBlock opened) reads
  | .bytes b :: reads =>
    let (blocks, last) := cutBlocks (opened ++ b)
    scanFrom last (t.recordBlocks blocks) reads

/-- Counts the lines of a log that comes in reads. -/
def scan (reads : List Read) : Except String Tally := scanFrom [] .empty reads

/-- Counts the lines of a log. -/
def tally (bytes : List UInt8) : Tally :=
  let (blocks, last) := cutBlocks bytes
  (Tally.recordBlocks .empty blocks).close last

end Intake.Log
