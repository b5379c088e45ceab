import Intake.Json.Reader.Skip
import Mathlib

/-!
Going over strings and numbers. What is read as a string or a number is gone over up to the same
place, though a string that is gone over may have escapes that stand for no character, and a number
may be out of range.
-/

set_option autoImplicit false
set_option relaxedAutoImplicit false

namespace Intake.Json

open Reader

/-- What is left after something at the front of a text, which may be nothing, was gone over. -/
def Leaves {s : Text} (x : Except Failure { rest : Text // rest.length ≤ s.length })
    (rest : Text) : Prop :=
  ∃ h : rest.length ≤ s.length, x = .ok ⟨rest, h⟩

/-! ### Strings -/

theorem takes_skipString_of_end {s rest : Text} (h : Takes stringMark s false rest) :
    Takes skipString s () rest := by
  obtain ⟨less, eq⟩ := h
  exact ⟨less, by rw [skipString, eq]⟩

theorem takes_skipString_of_mark {s more rest : Text} (h : Takes stringMark s true more)
    (later : Takes skipString more () rest) : Takes skipString s () rest := by
  obtain ⟨less, eq⟩ := h
  obtain ⟨less', eq'⟩ := (takes_widen_iff (Nat.le_of_lt less)).2 later
  exact ⟨less', by rw [skipString, eq]; exact eq'⟩

private theorem takes_mark_of_unit {s rest : Text} {n : Nat} (h : Takes hexUnit s n rest) :
    Takes stringMark ('\\' :: 'u' :: s) true rest := by
  have shorter : s.length ≤ ('\\' :: 'u' :: s).length := by
    simp only [List.length_cons]
    omega
  exact (takes_widen_iff shorter).2 (takes_map_iff.2 ⟨n, h, rfl⟩)

/-- The second half of a pair is gone over as an escape of its own. -/
private theorem takes_mark_of_low {high : Nat} {s rest : Text} {c : Char}
    (h : Takes (lowSurrogate high) s c rest) : Takes stringMark s true rest := by
  obtain ⟨less, eq⟩ := h
  unfold lowSurrogate at eq
  split at eq
  · rename_i tail
    split at eq
    · cases eq
    · rename_i low after hunit
      split at eq
      · simp only [Except.ok.injEq, Prod.mk.injEq, Rest.widen, Subtype.mk.injEq] at eq
        obtain ⟨_, rfl⟩ := eq
        exact takes_mark_of_unit ⟨after.property, hunit⟩
      · cases eq
  all_goals cases eq

private theorem takes_skipString_of_unicode {s more rest : Text} {c : Char}
    (h : Takes unicodeEscape s c more) (later : Takes skipString more () rest) :
    Takes skipString ('\\' :: 'u' :: s) () rest := by
  obtain ⟨less, eq⟩ := h
  unfold unicodeEscape at eq
  split at eq
  · cases eq
  · rename_i n after hunit
    have unit : Takes stringMark ('\\' :: 'u' :: s) true after.val :=
      takes_mark_of_unit ⟨after.property, hunit⟩
    split at eq
    · cases eq
    · split at eq
      · have low := takes_mark_of_low ((takes_widen_iff _).1 ⟨less, eq⟩)
        exact takes_skipString_of_mark unit (takes_skipString_of_mark low later)
      · cases eq
        exact takes_skipString_of_mark unit later

theorem takes_mark_of_closing {s rest : Text} (h : Takes stringPart s none rest) :
    Takes stringMark s false rest := by
  obtain ⟨less, eq⟩ := h
  unfold stringPart at eq
  split at eq
  · cases eq
  · cases eq
    exact ⟨less, rfl⟩
  · split at eq
    · cases eq
    · obtain ⟨_, _, impossible⟩ := takes_map_iff.1 ((takes_widen_iff _).1 ⟨less, eq⟩)
      cases impossible
    · split at eq <;> cases eq
  · split at eq <;> cases eq

/-- A character that is read is gone over, if what follows it is. -/
private theorem takes_skipString_of_part {s more rest : Text} {c : Char}
    (h : Takes stringPart s (some c) more) (later : Takes skipString more () rest) :
    Takes skipString s () rest := by
  obtain ⟨less, eq⟩ := h
  unfold stringPart at eq
  split at eq
  · cases eq
  · cases eq
  · split at eq
    · cases eq
    · obtain ⟨c', taken, _⟩ := takes_map_iff.1 ((takes_widen_iff _).1 ⟨less, eq⟩)
      exact takes_skipString_of_unicode taken later
    · rename_i letter tail notU
      split at eq
      · rename_i found
        cases eq
        refine takes_skipString_of_mark ⟨less, ?_⟩ later
        simp [stringMark, found]
      · cases eq
  · rename_i noQuote noBackslash
    split at eq
    · cases eq
    · rename_i printable
      cases eq
      refine takes_skipString_of_mark ⟨less, ?_⟩ later
      exact (stringMark.eq_6 c more noQuote noBackslash).trans (by simp [printable])

theorem takes_skipString_of_chars {s rest chars : Text} (h : Takes stringChars s chars rest) :
    Takes skipString s () rest := by
  induction chars generalizing s with
  | nil =>
    rcases takes_stringChars_iff.1 h with ⟨closing, _⟩ | ⟨_, _, _, _, _, impossible⟩
    · exact takes_skipString_of_end (takes_mark_of_closing closing)
    · cases impossible
  | cons c chars ih =>
    rcases takes_stringChars_iff.1 h with ⟨_, impossible⟩ | ⟨_, _, _, part, later, eq⟩
    · cases impossible
    · cases eq
      exact takes_skipString_of_part part (ih later)

theorem takes_skipString_of_body {s rest : Text} {str : String} (h : Takes stringBody s str rest) :
    Takes skipString s () rest := by
  obtain ⟨chars, taken, _⟩ := takes_map_iff.1 h
  exact takes_skipString_of_chars taken

/-! ### Numbers -/

section Numbers

variable {s rest : Text} {n : Number}

private theorem eq_of_finish {t : Text} {less : s.length < t.length} {value : Option Number}
    {less' : rest.length < t.length} (h : finish s less value = .ok (n, ⟨rest, less'⟩)) :
    s = rest := by
  unfold finish at h
  split at h
  · cases h
    rfl
  · cases h

private theorem takes_skipDigits_of_exponent {numeral : Numeral} {isNegative : Bool}
    (h : Takes (exponentDigits numeral isNegative) s n rest) : Takes skipDigits s () rest := by
  obtain ⟨less, eq⟩ := h
  unfold exponentDigits at eq
  split at eq
  · cases eq
  · rename_i c tail
    split at eq
    · rename_i digit
      have left : (spanDigits tail).2.val = rest := by
        dsimp only at eq
        split at eq
        · exact eq_of_finish eq
        · split at eq
          · cases eq
          · exact eq_of_finish eq
      refine ⟨less, ?_⟩
      simp [skipDigits, digit, left]
    · cases eq

private theorem takes_skipExponent_of_exponent {numeral : Numeral}
    (h : Takes (exponent numeral) s n rest) : Takes skipExponent s () rest := by
  obtain ⟨less, eq⟩ := h
  unfold exponent at eq
  split at eq
  · have digits := takes_skipDigits_of_exponent ((takes_widen_iff _).1 ⟨less, eq⟩)
    exact (takes_widen_iff (length_le_cons _)).2 digits
  · have digits := takes_skipDigits_of_exponent ((takes_widen_iff _).1 ⟨less, eq⟩)
    exact (takes_widen_iff (length_le_cons _)).2 digits
  · rename_i noPlus noMinus
    obtain ⟨_, digits⟩ := takes_skipDigits_of_exponent ⟨less, eq⟩
    exact ⟨less, (skipExponent.eq_3 _ noPlus noMinus).trans digits⟩

private theorem leaves_skipScale_of_end {numeral : Numeral} {plain : Option Number} {t : Text}
    {shorter : s.length < t.length} {less : rest.length < t.length}
    (h : exponentOrEnd numeral plain s shorter = .ok (n, ⟨rest, less⟩)) :
    Leaves (skipScale s) rest := by
  unfold exponentOrEnd at h
  split at h
  · obtain ⟨less', skipped⟩ := takes_skipExponent_of_exponent ((takes_widen_iff _).1 ⟨less, h⟩)
    exact ⟨Nat.le_of_lt (Nat.lt_succ_of_lt less'), by simp [skipScale, skipped]⟩
  · obtain ⟨less', skipped⟩ := takes_skipExponent_of_exponent ((takes_widen_iff _).1 ⟨less, h⟩)
    exact ⟨Nat.le_of_lt (Nat.lt_succ_of_lt less'), by simp [skipScale, skipped]⟩
  · rename_i noLower noUpper
    cases eq_of_finish h
    refine ⟨Nat.le_refl _, skipScale.eq_3 _ ?_ ?_⟩
    · rintro tail rfl
      exact noLower tail shorter rfl HEq.rfl
    · rintro tail rfl
      exact noUpper tail shorter rfl HEq.rfl

private theorem leaves_skipFraction_of_point {numeral : Numeral} {tail : Text}
    (h : Takes (fraction numeral) tail n rest) : Leaves (skipFraction ('.' :: tail)) rest := by
  obtain ⟨less, eq⟩ := h
  unfold fraction at eq
  split at eq
  · cases eq
  · rename_i c tail
    split at eq
    · rename_i digit
      have scale : Leaves (skipScale (spanDigits tail).2.val) rest := leaves_skipScale_of_end eq
      obtain ⟨less', skipped⟩ := scale
      refine ⟨?_, ?_⟩
      · simp only [List.length_cons] at less ⊢
        omega
      · simp [skipFraction, skipDigits, digit, skipped]
    · cases eq

/-- A zero in front is gone over alone, and other digits are gone over together. -/
private theorem takes_skipUnsigned {c : Char} {tail : Text} (digit : isDigit c = true)
    (noZero : ¬ (c = '0' ∧ (spanDigits tail).1 ≠ []))
    (left : Leaves (skipFraction (spanDigits tail).2.val) rest) :
    Takes skipUnsigned (c :: tail) () rest := by
  by_cases alone : ∃ d more, c :: tail = '0' :: d :: more
  · obtain ⟨d, more, eq⟩ := alone
    obtain ⟨rfl, rfl⟩ := List.cons.inj eq
    have noDigit : isDigit d = false := by
      by_contra isOne
      apply noZero
      simp [spanDigits, isOne]
    have same : (spanDigits (d :: more)).2.val = d :: more := by simp [spanDigits, noDigit]
    rw [same] at left
    obtain ⟨shorter, skipped⟩ := left
    exact ⟨Nat.lt_succ_of_le shorter, by simp [skipUnsigned, noDigit, skipped]⟩
  · have together : ∀ d more, c :: tail = '0' :: d :: more → False :=
      fun d more eq => alone ⟨d, more, eq⟩
    have digits : skipDigits (c :: tail) =
        .ok ((), ⟨(spanDigits tail).2.val, length_lt_cons_of_le (spanDigits tail).2⟩) := by
      simp [skipDigits, digit]
    obtain ⟨shorter, skipped⟩ := left
    refine ⟨Nat.lt_succ_of_le (shorter.trans (spanDigits tail).2.property), ?_⟩
    rw [skipUnsigned.eq_2 (c :: tail) together]
    simp only [digits, skipped]

private theorem takes_skipUnsigned_of_unsigned {isNegative : Bool}
    (h : Takes (unsigned isNegative) s n rest) : Takes skipUnsigned s () rest := by
  obtain ⟨less, eq⟩ := h
  unfold unsigned at eq
  split at eq
  · cases eq
  · rename_i c tail
    split at eq
    · rename_i digit
      dsimp only at eq
      split at eq
      · cases eq
      · rename_i noZero
        have left : Leaves (skipFraction (spanDigits tail).2.val) rest := by
          split at eq
          · rename_i point
            rw [point]
            exact leaves_skipFraction_of_point ((takes_widen_iff _).1 ⟨less, eq⟩)
          · rename_i noPoint
            have scale := leaves_skipScale_of_end eq
            rwa [skipFraction.eq_2 _ noPoint]
        exact takes_skipUnsigned digit noZero left
    · cases eq

theorem takes_skipNumber_of_number (h : Takes number s n rest) : Takes skipNumber s () rest := by
  obtain ⟨less, eq⟩ := h
  unfold number at eq
  split at eq
  · have skipped := takes_skipUnsigned_of_unsigned ((takes_widen_iff _).1 ⟨less, eq⟩)
    exact (takes_widen_iff (length_le_cons _)).2 skipped
  · rename_i noMinus
    obtain ⟨_, skipped⟩ := takes_skipUnsigned_of_unsigned ⟨less, eq⟩
    exact ⟨less, (skipNumber.eq_2 _ noMinus).trans skipped⟩

end Numbers

end Intake.Json
