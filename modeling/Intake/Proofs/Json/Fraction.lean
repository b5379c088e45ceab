import Intake.Proofs.Json.Numeral
import Intake.Proofs.Json.Scale

/-!
Decimals with a fraction or an exponent in texts. The digits on both sides of the point are gathered
into one whole number, and a decimal that is written for a binary number is read as a finite number
again, though not always as the same.
-/

set_option autoImplicit false
set_option relaxedAutoImplicit false

namespace Intake.Json

open Reader Decimal Binary64

variable {n : Numeral} {plain : Option Number} {number : Number} {s rest : Text}

/-! ### Exponents and fractions -/

theorem takes_exponentDigits {e : Nat} (small : e < 0x80000000) {below : Bool}
    (value : ({ n with point := if below then n.point - e else n.point + e } : Numeral).float? =
      some number) (ends : EndsNumber rest) :
    Takes (exponentDigits n below) (digitChars e ++ rest) number rest := by
  obtain ⟨c, tail, eq, digit⟩ := exists_digitChars_eq_cons e
  have digits : ∀ d ∈ tail, isDigit d = true := fun d hd =>
    isDigit_of_mem_digitChars (eq ▸ List.mem_cons_of_mem c hd)
  obtain ⟨spanned, left⟩ := spanDigits_append digits ends.endsDigits
  have gathered : absorb 0x80000000 0 (c :: tail) = (e, []) := eq ▸ absorb_digitChars small
  rw [eq, List.cons_append]
  refine ⟨by simp, ?_⟩
  simp only [exponentDigits, digit, if_true, spanned, gathered, finish, value, left]

/-- An exponent moves the decimal point. -/
theorem finishes_exponent {e : Nat} (small : e < 0x80000000) {below : Bool}
    (value : ({ n with point := if below then n.point - e else n.point + e } : Numeral).float? =
      some number) (ends : EndsNumber rest) :
    Finishes n plain ('e' :: (if below then '-' else '+') :: (digitChars e ++ rest)) number
      rest := by
  intro t h
  have taken := takes_exponentDigits small value ends
  have signed : Takes (exponent n) ((if below then '-' else '+') :: (digitChars e ++ rest)) number
      rest := by
    cases below <;> exact (takes_widen_iff (length_le_cons _)).2 taken
  have shorter : ((if below then '-' else '+') :: (digitChars e ++ rest)).length ≤ t.length := by
    simp only [List.length_cons] at h ⊢
    omega
  exact (takes_widen_iff shorter).2 signed

/-- A numeral with more digits behind its decimal point. -/
def Numeral.append (n : Numeral) (digits : Text) : Numeral where
  isNegative := n.isNegative
  digits := (Nat.ofDigitChars 10 digits n.digits.toNat).toUInt64
  point := n.point - digits.length

/-- The digits behind a decimal point are gathered after those before it. -/
theorem takes_fraction {digits : Text} (nonempty : digits ≠ [])
    (all : ∀ d ∈ digits, isDigit d = true)
    (small : Nat.ofDigitChars 10 digits n.digits.toNat < UInt64.size) (ends : EndsDigits s)
    (finishes : Finishes (n.append digits) (n.append digits).float? s number rest) :
    Takes (fraction n) (digits ++ s) number rest := by
  obtain ⟨c, tail, rfl⟩ := List.exists_cons_of_ne_nil nonempty
  obtain ⟨digit, others⟩ := List.forall_mem_cons.1 all
  obtain ⟨spanned, left⟩ := spanDigits_append others ends
  have gathered := absorb_eq small
  have shorter : s.length < (c :: (tail ++ s)).length := by simp
  obtain ⟨less, eq⟩ := finishes _ shorter
  rw [List.cons_append]
  refine ⟨less, ?_⟩
  simp only [fraction, digit, if_true, spanned, gathered, left]
  exact eq

/-! ### Finite numbers -/

/-- A text that is read as a finite binary number, after a minus sign as without one. -/
structure ReadsFinite (text : Text) : Prop where
  begins : ∃ c tail, text = c :: tail ∧ isDigit c = true
  takes : ∀ isNegative, ∃ x finite, ∀ rest, EndsNumber rest →
    Takes (unsigned isNegative) (text ++ rest) (.float x finite) rest

theorem exists_float?_eq (h : (scale n.digits n.point).isFinite = true) :
    ∃ x finite, n.float? = some (.float x finite) := by
  have finite : (signed n.isNegative (scale n.digits n.point)).isFinite = true := by
    rw [signed]
    split
    · rwa [isFinite_neg]
    · exact h
  exact ⟨_, finite, dif_pos finite⟩

theorem toNat_toUInt64_of_lt {m : Nat} (h : m < UInt64.size) : m.toUInt64.toNat = m :=
  Nat.mod_eq_of_lt h

/-- What comes first of some digits is not larger than all of them. -/
theorem ofDigitChars_append_le (first second : Text) :
    Nat.ofDigitChars 10 first 0 ≤ Nat.ofDigitChars 10 (first ++ second) 0 := by
  rw [Nat.ofDigitChars_append, Nat.ofDigitChars_eq_ofDigitChars_zero (l := second)]
  exact (Nat.le_mul_of_pos_left _ (Nat.pow_pos (by decide))).trans (Nat.le_add_right _ _)

section Point

variable {whole digits : Text} (start : StartsNumber whole) (nonempty : digits ≠ [])
  (all : ∀ d ∈ digits, isDigit d = true)
  (small : Nat.ofDigitChars 10 (whole ++ digits) 0 < UInt64.size)

include start nonempty all small

/-- Digits on both sides of a point are gathered as one whole number. -/
theorem takes_unsigned_decimal {isNegative : Bool} (ends : EndsDigits s)
    (finishes : ∀ n : Numeral, n = ⟨isNegative, (Nat.ofDigitChars 10 (whole ++ digits) 0).toUInt64,
      -digits.length⟩ → Finishes n n.float? s number rest) :
    Takes (unsigned isNegative) (whole ++ '.' :: (digits ++ s)) number rest := by
  have first := (ofDigitChars_append_le whole digits).trans_lt small
  have value := toNat_toUInt64_of_lt first
  rw [Nat.ofDigitChars_append] at small finishes
  refine takes_unsigned_point start first (takes_fraction nonempty all ?_ ends (finishes _ ?_))
  · rwa [value]
  · rw [Numeral.append, value, Int.zero_sub]

/-- A decimal with a point is in range, since its digits are divided only. -/
theorem readsFinite_point : ReadsFinite (whole ++ '.' :: digits) where
  begins := by
    obtain ⟨c, tail, rfl, digit, -⟩ := start.exists_cons
    exact ⟨c, tail ++ '.' :: digits, rfl, digit⟩
  takes isNegative := by
    have behind : -(digits.length : Int) < 0 := by
      have := List.length_pos_iff.2 nonempty
      omega
    obtain ⟨x, finite, value⟩ := exists_float?_eq
      (n := ⟨isNegative, (Nat.ofDigitChars 10 (whole ++ digits) 0).toUInt64, -digits.length⟩)
      (isFinite_scale_of_neg _ behind)
    refine ⟨x, finite, fun rest ends => ?_⟩
    rw [List.append_assoc, List.cons_append]
    refine takes_unsigned_decimal start nonempty all small ends.endsDigits ?_
    rintro n rfl
    exact finishes_end value ends

end Point

/-! ### Exponents -/

/-- The exponent that a written decimal ends with. -/
def exponentText (lead : Int) : Text :=
  'e' :: (if lead < 0 then '-' else '+') :: digitChars lead.natAbs

theorem endsDigits_exponentText (lead : Int) (rest : Text) :
    EndsDigits (exponentText lead ++ rest) :=
  endsDigits_cons (by decide)

theorem finishes_exponentText {lead : Int} (small : lead.natAbs < 0x80000000)
    (value : ({ n with point := n.point + lead } : Numeral).float? = some number)
    (ends : EndsNumber rest) : Finishes n plain (exponentText lead ++ rest) number rest := by
  have moved : n.point + lead =
      if decide (lead < 0) then n.point - lead.natAbs else n.point + lead.natAbs := by
    by_cases neg : lead < 0
    · rw [decide_eq_true neg, if_pos rfl]
      omega
    · rw [decide_eq_false neg, if_neg Bool.false_ne_true]
      omega
  rw [moved] at value
  have finishes : Finishes n plain _ number rest := finishes_exponent small value ends
  simpa only [exponentText, decide_eq_true_eq, List.cons_append] using finishes

theorem startsNumber_digit {c : Char} (digit : isDigit c = true) : StartsNumber [c] :=
  ⟨by simp, by simpa using digit, fun _ eq => (List.cons.inj eq).2.symm⟩

/-- One digit with an exponent. -/
theorem readsFinite_digit {c : Char} (digit : isDigit c = true)
    (small : Nat.ofDigitChars 10 [c] 0 < UInt64.size) {lead : Int}
    (near : lead.natAbs < 0x80000000)
    (inRange : (scale (Nat.ofDigitChars 10 [c] 0).toUInt64 lead).isFinite = true) :
    ReadsFinite (c :: exponentText lead) where
  begins := ⟨c, _, rfl, digit⟩
  takes isNegative := by
    obtain ⟨x, finite, value⟩ := exists_float?_eq
      (n := ⟨isNegative, (Nat.ofDigitChars 10 [c] 0).toUInt64, 0 + lead⟩)
      (by rwa [Int.zero_add])
    refine ⟨x, finite, fun rest ends => ?_⟩
    have taken : Takes (unsigned isNegative) ([c] ++ (exponentText lead ++ rest))
        (.float x finite) rest := by
      refine takes_unsigned_finishes (startsNumber_digit digit) small
        (endsDigits_exponentText lead rest) ?_ (finishes_exponentText near value ends)
      intro tail eq
      exact absurd (List.cons.inj eq).1 (by decide)
    exact taken

/-- Several digits with a point after the first, and an exponent. -/
theorem readsFinite_digits {c : Char} {digits : Text} (digit : isDigit c = true)
    (nonempty : digits ≠ []) (all : ∀ d ∈ digits, isDigit d = true)
    (small : Nat.ofDigitChars 10 ([c] ++ digits) 0 < UInt64.size) {lead : Int}
    (near : lead.natAbs < 0x80000000)
    (inRange : (scale (Nat.ofDigitChars 10 ([c] ++ digits) 0).toUInt64
      (lead - digits.length)).isFinite = true) :
    ReadsFinite (c :: '.' :: (digits ++ exponentText lead)) where
  begins := ⟨c, _, rfl, digit⟩
  takes isNegative := by
    obtain ⟨x, finite, value⟩ := exists_float?_eq
      (n := ⟨isNegative, (Nat.ofDigitChars 10 ([c] ++ digits) 0).toUInt64, -digits.length + lead⟩)
      (by rwa [Int.add_comm, ← Int.sub_eq_add_neg])
    refine ⟨x, finite, fun rest ends => ?_⟩
    have taken : Takes (unsigned isNegative) ([c] ++ '.' :: (digits ++ (exponentText lead ++ rest)))
        (.float x finite) rest := by
      refine takes_unsigned_decimal (startsNumber_digit digit) nonempty all small
        (endsDigits_exponentText lead rest) ?_
      rintro n rfl
      exact finishes_exponentText near value ends
    simpa using taken

/-! ### Written decimals -/

/-- A decimal that can be written for a finite binary number. -/
structure IsShort (c : Nat) (k : Int) : Prop where
  pos : 0 < c
  short : c ≤ 7 * 2 ^ 54
  least : -324 ≤ k
  most : k ≤ 308
  inRange : c * 10 ^ k.toNat ≤ largestDecimal

theorem IsShort.isFinite_scale {c : Nat} {k : Int} (h : IsShort c k) :
    (scale c.toUInt64 k).isFinite = true := by
  have small : c.toUInt64.toNat = c := toNat_toUInt64_of_lt (h.short.trans_lt (by decide))
  exact Json.isFinite_scale (by rw [small]; exact h.short) h.most (by rw [small]; exact h.inRange)

section Written

variable {c : Nat}

theorem ofDigitChars_digitChars (c : Nat) : Nat.ofDigitChars 10 (digitChars c) 0 = c :=
  Nat.ofDigitChars_ten_toDigits

theorem isDigit_of_mem_replicate {zeros : Nat} {d : Char} (h : d ∈ List.replicate zeros '0') :
    isDigit d = true := by
  rw [(List.mem_replicate.1 h).2]
  decide

/-- A decimal below one, with zeros behind the point. -/
theorem readsFinite_below (small : c < UInt64.size) (zeros : Nat) :
    ReadsFinite ('0' :: '.' :: (List.replicate zeros '0' ++ digitChars c)) := by
  have value : Nat.ofDigitChars 10 (['0'] ++ (List.replicate zeros '0' ++ digitChars c)) 0 = c := by
    have zero : Nat.ofDigitChars 10 ['0'] 0 = 0 := by decide
    rw [Nat.ofDigitChars_append, Nat.ofDigitChars_append, zero, Nat.ofDigitChars_replicate_zero,
      Nat.mul_zero, ofDigitChars_digitChars]
  have nonempty : List.replicate zeros '0' ++ digitChars c ≠ [] :=
    List.append_ne_nil_of_right_ne_nil _ (digitChars_ne_nil c)
  have all : ∀ d ∈ List.replicate zeros '0' ++ digitChars c, isDigit d = true := by
    intro d hd
    rcases List.mem_append.1 hd with zero | digit
    · exact isDigit_of_mem_replicate zero
    · exact isDigit_of_mem_digitChars digit
  have start : StartsNumber ['0'] := startsNumber_digit (by decide)
  exact readsFinite_point start nonempty all (by rwa [value])

/-- A decimal with the point between its digits. -/
theorem readsFinite_inside (pos : 0 < c) (small : c < UInt64.size) {whole : Nat} (first : 0 < whole)
    (inside : whole < (digitChars c).length) :
    ReadsFinite ((digitChars c).take whole ++ '.' :: (digitChars c).drop whole) := by
  have nonempty : (digitChars c).take whole ≠ [] := by
    rw [← List.length_pos_iff, List.length_take]
    omega
  have head : ((digitChars c).take whole).head? ≠ some '0' := by
    rw [List.head?_take, if_neg first.ne']
    exact head?_digitChars_ne pos
  have start := StartsNumber.of_head? nonempty
    (fun d hd => isDigit_of_mem_digitChars (List.mem_of_mem_take hd)) head
  refine readsFinite_point start ?_
    (fun d hd => isDigit_of_mem_digitChars (List.mem_of_mem_drop hd)) ?_
  · rw [← List.length_pos_iff, List.length_drop]
    omega
  · rwa [List.take_append_drop, ofDigitChars_digitChars]

/-- A decimal with zeros before the point. -/
theorem readsFinite_above (pos : 0 < c) {zeros : Nat}
    (small : (digitChars c).length + zeros ≤ 16) :
    ReadsFinite (digitChars c ++ List.replicate zeros '0' ++ '.' :: ['0']) := by
  have head : (digitChars c ++ List.replicate zeros '0').head? ≠ some '0' := by
    rw [List.head?_append_of_ne_nil _ (digitChars_ne_nil c)]
    exact head?_digitChars_ne pos
  have all : ∀ d ∈ digitChars c ++ List.replicate zeros '0', isDigit d = true := by
    intro d hd
    rcases List.mem_append.1 hd with digit | zero
    · exact isDigit_of_mem_digitChars digit
    · exact isDigit_of_mem_replicate zero
  have start := StartsNumber.of_head?
    (List.append_ne_nil_of_left_ne_nil (digitChars_ne_nil c) _) all head
  refine readsFinite_point start (by simp) (by simp; decide) ?_
  have below : c < 10 ^ (digitChars c).length :=
    (Nat.length_toDigits_le_iff (by decide) Nat.length_toDigits_pos).1 le_rfl
  have value : Nat.ofDigitChars 10 (digitChars c ++ List.replicate zeros '0' ++ ['0']) 0 =
      c * 10 ^ (zeros + 1) := by
    have last : ['0'] = List.replicate 1 '0' := rfl
    rw [List.append_assoc, last, List.replicate_append_replicate, Nat.ofDigitChars_append,
      ofDigitChars_digitChars, Nat.ofDigitChars_replicate_zero, Nat.mul_comm]
  rw [value]
  calc c * 10 ^ (zeros + 1) < 10 ^ (digitChars c).length * 10 ^ (zeros + 1) :=
        Nat.mul_lt_mul_of_pos_right below (Nat.pow_pos (by decide))
    _ = 10 ^ ((digitChars c).length + (zeros + 1)) := by rw [← pow_add]
    _ ≤ 10 ^ 17 := pow_le_pow_right₀ (by decide) (by omega)
    _ < UInt64.size := by decide

/-- A decimal in positional notation. -/
theorem readsFinite_positional (pos : 0 < c) (small : c < UInt64.size) {lead : Int}
    (near : -5 ≤ lead ∧ lead ≤ 15) : ReadsFinite (decimalText (digitChars c) lead) := by
  have lengthPos : 0 < (digitChars c).length := Nat.length_toDigits_pos
  unfold decimalText
  rw [if_pos near]
  split
  next neg => exact readsFinite_below small _
  next nonneg =>
    dsimp only
    by_cases inside : lead.toNat + 1 < (digitChars c).length
    · have more : ((digitChars c).drop (lead.toNat + 1)).isEmpty = false := by
        rw [List.isEmpty_eq_false_iff, ← List.length_pos_iff, List.length_drop]
        omega
      have none : lead.toNat + 1 - (digitChars c).length = 0 := by omega
      rw [more, none, if_neg Bool.false_ne_true, List.replicate_zero, List.append_nil]
      exact readsFinite_inside pos small (Nat.succ_pos _) inside
    · have all : (digitChars c).take (lead.toNat + 1) = digitChars c :=
        List.take_of_length_le (by omega)
      have none : ((digitChars c).drop (lead.toNat + 1)).isEmpty = true := by
        rw [List.isEmpty_iff]
        exact List.drop_eq_nil_of_le (by omega)
      rw [all, none, if_pos rfl]
      exact readsFinite_above pos (by omega)

/-- A decimal with an exponent. -/
theorem readsFinite_scientific {k lead : Int} (h : IsShort c k)
    (first : k = lead - ((digitChars c).length - 1 : Nat)) (far : ¬ (-5 ≤ lead ∧ lead ≤ 15)) :
    ReadsFinite (decimalText (digitChars c) lead) := by
  have small : c < UInt64.size := h.short.trans_lt (by decide)
  have count : (digitChars c).length ≤ 18 :=
    (Nat.length_toDigits_le_iff (by decide) (by decide)).2 (h.short.trans_lt (by decide))
  have near : lead.natAbs < 0x80000000 := by
    have := h.least
    have := h.most
    omega
  have value := ofDigitChars_digitChars c
  have all : ∀ d ∈ digitChars c, isDigit d = true := fun d => isDigit_of_mem_digitChars
  have inRange := h.isFinite_scale
  have nonempty := digitChars_ne_nil c
  unfold decimalText
  rw [if_neg far]
  subst first
  generalize digitChars c = digits at *
  subst value
  match digits with
  | [] => exact absurd rfl nonempty
  | [d] => exact readsFinite_digit (all d List.mem_cons_self) small near (by simpa using inRange)
  | d :: e :: more =>
    obtain ⟨digit, others⟩ := List.forall_mem_cons.1 all
    exact readsFinite_digits digit (by simp) others small near (by simpa using inRange)

end Written

/-- What is written for a short decimal is read as a finite number. -/
theorem readsFinite_decimalText {c : Nat} {k : Int} (h : IsShort c k) :
    ReadsFinite (decimalText (digitChars c) (k + ((digitChars c).length - 1 : Nat))) := by
  by_cases near : -5 ≤ k + ((digitChars c).length - 1 : Nat) ∧
      k + ((digitChars c).length - 1 : Nat) ≤ 15
  · exact readsFinite_positional h.pos (h.short.trans_lt (by decide)) near
  · exact readsFinite_scientific h (Int.add_sub_cancel k _).symm near

end Intake.Json
