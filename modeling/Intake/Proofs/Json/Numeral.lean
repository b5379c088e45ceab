import Intake.Json.Reader.Numeral
import Mathlib

/-!
Numbers in texts. Digits whose value is below `2 ^ 64` are gathered into that value, and what
follows them decides how the number ends. The digits of a whole number below `2 ^ 64` are read as
that number, if what follows them does not go on with it.
-/

set_option autoImplicit false
set_option relaxedAutoImplicit false

namespace Intake.Json

open Reader Decimal

/-- What follows a number does not go on with it. -/
def EndsNumber (rest : Text) : Prop :=
  ∀ c ∈ rest.head?, isDigit c = false ∧ c ≠ '.' ∧ c ≠ 'e' ∧ c ≠ 'E'

@[simp] theorem endsNumber_nil : EndsNumber [] := by simp [EndsNumber]

theorem endsNumber_cons {c : Char} {rest : Text} :
    EndsNumber (c :: rest) ↔ isDigit c = false ∧ c ≠ '.' ∧ c ≠ 'e' ∧ c ≠ 'E' := by
  simp [EndsNumber]

theorem isDigit_of_mem_digitChars {n : Nat} {c : Char} (h : c ∈ digitChars n) :
    isDigit c = true := by
  have digit := Nat.isDigit_of_mem_toDigits (by decide) (by decide) h
  simpa [Char.isDigit, isDigit, Char.le_def] using digit

theorem digitChars_ne_nil (n : Nat) : digitChars n ≠ [] := Nat.toDigits_ne_nil

theorem exists_digitChars_eq_cons (n : Nat) :
    ∃ c tail, digitChars n = c :: tail ∧ isDigit c = true := by
  obtain ⟨c, tail, digits⟩ : ∃ c tail, digitChars n = c :: tail :=
    List.exists_cons_of_ne_nil (digitChars_ne_nil n)
  have first : c ∈ digitChars n := digits ▸ List.mem_cons_self
  exact ⟨c, tail, digits, isDigit_of_mem_digitChars first⟩

/-- The digits of a number other than zero begin with none. -/
theorem head?_digitChars_ne {n : Nat} (h : 0 < n) : (digitChars n).head? ≠ some '0' := by
  induction n using Nat.strong_induction_on with
  | _ n ih =>
    rw [digitChars, Nat.toDigits_eq_if (by decide)]
    split
    · rename_i small
      interval_cases n <;> decide
    · have less : n / 10 < n := by omega
      have first := ih (n / 10) less (by omega)
      rw [List.head?_append_of_ne_nil _ Nat.toDigits_ne_nil]
      exact first

private theorem digits_eq_nil_of_zero {n : Nat} {digits : Text}
    (h : digitChars n = '0' :: digits) : digits = [] := by
  rcases Nat.eq_zero_or_pos n with rfl | positive
  · exact (List.cons.inj h).2.symm
  · exact absurd (by rw [h]; rfl) (head?_digitChars_ne positive)

/-- Digits that stay below the limit are all gathered. -/
theorem absorb_eq {limit n : Nat} {digits : Text}
    (h : Nat.ofDigitChars 10 digits n < limit) :
    absorb limit n digits = (Nat.ofDigitChars 10 digits n, []) := by
  induction digits generalizing n with
  | nil => rfl
  | cons d digits ih =>
    have appended : 10 * n + (d.toNat - '0'.toNat) = n * 10 + digitValue d := by
      rw [digitValue, Nat.mul_comm]
    rw [Nat.ofDigitChars_cons, appended] at h ⊢
    have below : n * 10 + digitValue d < limit := by
      rw [Nat.ofDigitChars_eq_ofDigitChars_zero] at h
      have grows := Nat.le_mul_of_pos_left (n * 10 + digitValue d)
        (Nat.pow_pos (n := digits.length) (show 0 < 10 by decide))
      omega
    rw [absorb]
    simp only [below, if_true]
    exact ih h

theorem absorb_digitChars {limit n : Nat} (h : n < limit) :
    absorb limit 0 (digitChars n) = (n, []) := by
  have value : Nat.ofDigitChars 10 (digitChars n) 0 = n := Nat.ofDigitChars_ten_toDigits
  rw [absorb_eq (by rw [value]; exact h), value]

/-- What follows digits does not go on with them. -/
def EndsDigits (rest : Text) : Prop := ∀ c ∈ rest.head?, isDigit c = false

theorem EndsNumber.endsDigits {rest : Text} (h : EndsNumber rest) : EndsDigits rest :=
  fun c hc => (h c hc).1

theorem endsDigits_cons {c : Char} {rest : Text} (h : isDigit c = false) :
    EndsDigits (c :: rest) := by
  simp [EndsDigits, h]

theorem spanDigits_append {digits rest : Text} (h : ∀ c ∈ digits, isDigit c = true)
    (ends : EndsDigits rest) :
    (spanDigits (digits ++ rest)).1 = digits ∧ (spanDigits (digits ++ rest)).2.val = rest := by
  have stop : rest.takeWhile isDigit = [] ∧ rest.dropWhile isDigit = rest := by
    cases rest with
    | nil => exact ⟨rfl, rfl⟩
    | cons c rest => simp [ends c rfl]
  simp [spanDigits, List.takeWhile_append_of_pos h, List.dropWhile_append_of_pos h, stop]

/-! ### The end of a number -/

/-- What follows the digits of a number ends it as `number` and leaves `rest`. -/
def Finishes (n : Numeral) (plain : Option Number) (s : Text) (number : Number)
    (rest : Text) : Prop :=
  ∀ (t : Text) (h : s.length < t.length),
    ∃ less, exponentOrEnd n plain s h = .ok (number, ⟨rest, less⟩)

theorem finishes_end {n : Numeral} {plain : Option Number} {number : Number} {rest : Text}
    (value : plain = some number) (ends : EndsNumber rest) :
    Finishes n plain rest number rest := by
  intro t h
  refine ⟨h, ?_⟩
  unfold exponentOrEnd
  split
  · exact absurd rfl (endsNumber_cons.1 ends).2.2.1
  · exact absurd rfl (endsNumber_cons.1 ends).2.2.2
  · simp [finish, value]

/-! ### The start of a number -/

/-- Digits that a number may start with: a zero in front stands alone. -/
structure StartsNumber (digits : Text) : Prop where
  nonempty : digits ≠ []
  digit : ∀ c ∈ digits, isDigit c = true
  alone : ∀ tail, digits = '0' :: tail → tail = []

theorem startsNumber_digitChars (n : Nat) : StartsNumber (digitChars n) where
  nonempty := digitChars_ne_nil n
  digit _ := isDigit_of_mem_digitChars
  alone _ := digits_eq_nil_of_zero

theorem StartsNumber.of_head? {digits : Text} (nonempty : digits ≠ [])
    (digit : ∀ c ∈ digits, isDigit c = true) (head : digits.head? ≠ some '0') :
    StartsNumber digits where
  nonempty := nonempty
  digit := digit
  alone _ eq := absurd (eq ▸ rfl) head

theorem StartsNumber.exists_cons {digits : Text} (start : StartsNumber digits) :
    ∃ c tail, digits = c :: tail ∧ isDigit c = true ∧ (∀ d ∈ tail, isDigit d = true) ∧
      ¬ (c = '0' ∧ tail ≠ []) := by
  obtain ⟨c, tail, rfl⟩ := List.exists_cons_of_ne_nil start.nonempty
  obtain ⟨digit, others⟩ := List.forall_mem_cons.1 start.digit
  refine ⟨c, tail, rfl, digit, others, ?_⟩
  rintro ⟨rfl, more⟩
  exact more (start.alone tail rfl)

section Start

variable {isNegative : Bool} {digits s rest : Text} {number : Number} (start : StartsNumber digits)
  (small : Nat.ofDigitChars 10 digits 0 < UInt64.size)

include start small

/-- The digits in front of a decimal point are gathered. -/
theorem takes_unsigned_point
    (fractional : Takes (fraction ⟨isNegative, (Nat.ofDigitChars 10 digits 0).toUInt64, 0⟩) s number
      rest) : Takes (unsigned isNegative) (digits ++ '.' :: s) number rest := by
  obtain ⟨c, tail, rfl, digit, others, noZero⟩ := start.exists_cons
  have stops : EndsDigits ('.' :: s) := endsDigits_cons (by decide)
  obtain ⟨spanned, left⟩ := spanDigits_append others stops
  have gathered := absorb_eq small
  have shorter : s.length ≤ (c :: (tail ++ '.' :: s)).length := by simp; omega
  obtain ⟨less, eq⟩ := (takes_widen_iff shorter).2 fractional
  rw [List.cons_append]
  refine ⟨less, ?_⟩
  simp only [unsigned, digit, if_true, spanned, noZero, if_false, gathered]
  split
  · rename_i after point
    obtain rfl : s = after := (List.cons.inj (left.symm.trans point)).2
    exact eq
  · rename_i noPoint
    exact absurd left (noPoint s)

/-- The digits of a number without a decimal point are gathered. -/
theorem takes_unsigned_finishes (ends : EndsDigits s) (noPoint : ∀ tail, s ≠ '.' :: tail)
    (finishes : Finishes ⟨isNegative, (Nat.ofDigitChars 10 digits 0).toUInt64, 0⟩
      (wholeNumber? isNegative (Nat.ofDigitChars 10 digits 0).toUInt64) s number rest) :
    Takes (unsigned isNegative) (digits ++ s) number rest := by
  obtain ⟨c, tail, rfl, digit, others, noZero⟩ := start.exists_cons
  obtain ⟨spanned, left⟩ := spanDigits_append others ends
  have gathered := absorb_eq small
  have shorter : s.length < (c :: (tail ++ s)).length := by simp
  obtain ⟨less, eq⟩ := finishes _ shorter
  rw [List.cons_append]
  refine ⟨less, ?_⟩
  simp only [unsigned, digit, if_true, spanned, noZero, if_false, gathered]
  split
  · rename_i after point
    exact absurd (left.symm.trans point) (noPoint after)
  · simp only [left]
    exact eq

end Start

/-- The digits of a number are read as the whole number that they and the sign stand for. -/
theorem takes_unsigned {isNegative : Bool} {n : Nat} {number : Number} (small : n < 2 ^ 64)
    (value : wholeNumber? isNegative n.toUInt64 = some number) {rest : Text}
    (ends : EndsNumber rest) :
    Takes (unsigned isNegative) (digitChars n ++ rest) number rest := by
  have digits : Nat.ofDigitChars 10 (digitChars n) 0 = n := Nat.ofDigitChars_ten_toDigits
  refine takes_unsigned_finishes (startsNumber_digitChars n) (by rwa [digits]) ends.endsDigits ?_ ?_
  · rintro tail rfl
    exact (endsNumber_cons.1 ends).2.1 rfl
  · rw [digits]
    exact finishes_end value ends

theorem takes_number_natural (n : UInt64) {rest : Text} (ends : EndsNumber rest) :
    Takes number (digitChars n.toNat ++ rest) (.natural n) rest := by
  have value : wholeNumber? false n.toNat.toUInt64 = some (.natural n) := by simp [wholeNumber?]
  obtain ⟨less, eq⟩ := takes_unsigned n.toNat_lt value ends
  have noSign (tail : Text) : digitChars n.toNat ++ rest ≠ '-' :: tail := by
    intro sign
    obtain ⟨c, more, digits, digit⟩ := exists_digitChars_eq_cons n.toNat
    rw [digits] at sign
    rw [(List.cons.inj sign).1] at digit
    exact absurd digit (by decide)
  exact ⟨less, (number.eq_2 _ noSign).trans eq⟩

theorem takes_number_negative (k : Fin 0x8000000000000000) {rest : Text}
    (ends : EndsNumber rest) :
    Takes number ('-' :: (digitChars (k.val + 1) ++ rest)) (.negative k) rest := by
  have size : (k.val + 1).toUInt64.toNat = k.val + 1 := by
    simp
    omega
  have within :
      0 < (k.val + 1).toUInt64.toNat ∧ (k.val + 1).toUInt64.toNat ≤ 0x8000000000000000 := by
    rw [size]
    omega
  have value : wholeNumber? true (k.val + 1).toUInt64 = some (.negative k) := by
    rw [wholeNumber?, if_pos rfl, dif_pos within]
    simp only [size, Nat.add_sub_cancel]
  exact (takes_widen_iff (Nat.le_succ _)).2 (takes_unsigned (by omega) value ends)

end Intake.Json
