import Intake.Binary64
import Mathlib

/-!
A number of the binary format taken apart into what it is (a zero, an infinity, a NaN or a finite
number), its sign, and its significand and exponent. Arithmetic works on these parts, and the parts
of a bit pattern are read off its fields.
-/

set_option autoImplicit false
set_option relaxedAutoImplicit false

namespace Intake.Binary64

open Float.Model (UnpackedFloat)
open Float.Model.UnpackedFloat
open Float.Model.Format (binary64)

variable {x : Binary64}

/-- What a bit pattern stands for. -/
def parts (x : Binary64) : UnpackedFloat := unpack binary64 x.bits.toBitVec

/-- The bit pattern of some parts; an infinity where the exponent is too large. -/
def ofParts (p : UnpackedFloat) : Binary64 := ⟨⟨pack binary64 p⟩⟩

def sign (x : Binary64) : Sign := if x.isNegative then .negative else .positive

/-! ### Fields -/

private theorem toNat_unpackExponent (x : Binary64) :
    (@unpackExponent binary64 x.bits.toBitVec).toNat = x.exponentField := by
  have field : (@unpackExponent binary64 x.bits.toBitVec).toNat =
      x.bits.toNat >>> 52 % 2 ^ 11 := by
    rw [unpackExponent_def]
    rfl
  rw [field, Nat.shiftRight_eq_div_pow, exponentField, magnitude]
  omega

private theorem toNat_unpackMantissa (x : Binary64) :
    (@unpackMantissa binary64 x.bits.toBitVec).toNat = x.fraction := by
  have field : (@unpackMantissa binary64 x.bits.toBitVec).toNat =
      x.bits.toNat >>> 0 % 2 ^ 52 := by
    rw [unpackMantissa_def]
    rfl
  rw [field, Nat.shiftRight_zero, fraction, magnitude]
  omega

private theorem ofBitVec_unpackSign (x : Binary64) :
    Sign.ofBitVec (@unpackSign binary64 x.bits.toBitVec) = x.sign := by
  have bound := x.bits.toNat_lt
  have field : (@unpackSign binary64 x.bits.toBitVec).toNat = x.bits.toNat >>> 63 % 2 ^ 1 := by
    rw [unpackSign_def]
    rfl
  have clear : @unpackSign binary64 x.bits.toBitVec = 0#1 ↔ x.isNegative = false := by
    rw [← BitVec.toNat_inj, field, Nat.shiftRight_eq_div_pow, isNegative, decide_eq_false_iff_not,
      BitVec.toNat_ofNat]
    omega
  cases negative : x.isNegative <;> simp [Sign.ofBitVec, sign, clear, negative]

theorem exponentField_lt (x : Binary64) : x.exponentField < 2048 :=
  toNat_unpackExponent x ▸ BitVec.isLt _

theorem fraction_lt (x : Binary64) : x.fraction < 0x10000000000000 :=
  toNat_unpackMantissa x ▸ BitVec.isLt _

private theorem unpackExponent_eq_iff (e : BitVec 11) :
    @unpackExponent binary64 x.bits.toBitVec = e ↔ x.exponentField = e.toNat := by
  rw [← toNat_unpackExponent, BitVec.toNat_inj]

private theorem unpackMantissa_eq_iff (m : BitVec 52) :
    @unpackMantissa binary64 x.bits.toBitVec = m ↔ x.fraction = m.toNat := by
  rw [← toNat_unpackMantissa, BitVec.toNat_inj]

/-! ### Kinds -/

theorem parts_of_isNaN (h : x.isNaN = true) : x.parts = .notANumber := by
  simp only [isNaN, Bool.and_eq_true, beq_iff_eq, bne_iff_ne] at h
  have exponent := (unpackExponent_eq_iff (x := x) (-1#11)).2 h.1
  have mantissa : ¬ _ := mt (unpackMantissa_eq_iff (x := x) (0#52)).1 h.2
  simp only [parts, unpack, exponent, mantissa, if_true, if_false]

theorem parts_of_isInfinite (h : x.isInfinite = true) : x.parts = .infinity x.sign := by
  simp only [isInfinite, Bool.and_eq_true, beq_iff_eq] at h
  have exponent := (unpackExponent_eq_iff (x := x) (-1#11)).2 h.1
  have mantissa := (unpackMantissa_eq_iff (x := x) (0#52)).2 h.2
  simp only [parts, unpack, exponent, mantissa, if_true, ofBitVec_unpackSign]

theorem significand_eq_zero_iff : x.significand = 0 ↔ x.exponentField = 0 ∧ x.fraction = 0 := by
  rw [significand]
  split <;> omega

theorem parts_of_zero (h : x.significand = 0) : x.parts = .zero x.sign := by
  obtain ⟨noExponent, noFraction⟩ := significand_eq_zero_iff.1 h
  have exponent := (unpackExponent_eq_iff (x := x) (0#11)).2 noExponent
  have mantissa := (unpackMantissa_eq_iff (x := x) (0#52)).2 noFraction
  have small : (0#11 : BitVec 11) ≠ -1#11 := by decide
  simp only [parts, unpack, exponent, mantissa, small, if_false, if_true, dif_pos,
    ofBitVec_unpackSign]

private theorem toNat_implicitBit_append (m : BitVec 52) :
    (1#1 ++ m).toNat = 0x10000000000000 + m.toNat := by
  rw [BitVec.toNat_append, ← Nat.shiftLeft_add_eq_or_of_lt m.isLt]
  rfl

theorem parts_of_isFinite (h : x.isFinite = true) (pos : 0 < x.significand) :
    x.parts = .finite x.sign x.significand x.exponent pos := by
  rw [isFinite, bne_iff_ne] at h
  have exponent : ¬ _ := mt (unpackExponent_eq_iff (x := x) (-1#11)).1 h
  by_cases small : x.exponentField = 0
  · have field := (unpackExponent_eq_iff (x := x) (0#11)).2 small
    have mantissa : ¬ _ := mt (unpackMantissa_eq_iff (x := x) (0#52)).1 fun none =>
      pos.ne' (significand_eq_zero_iff.2 ⟨small, none⟩)
    simp only [parts, unpack, field, mantissa, if_true, ofBitVec_unpackSign, toNat_unpackMantissa,
      significand, Binary64.exponent, small]
    rfl
  · have field : ¬ _ := mt (unpackExponent_eq_iff (x := x) (0#11)).1 small
    simp only [parts, unpack, exponent, field, if_false, ofBitVec_unpackSign, toNat_unpackMantissa,
      toNat_unpackExponent, toNat_implicitBit_append, significand, Binary64.exponent, small]
    rfl

/-- Every number is a NaN, an infinity, a zero or another finite number. -/
theorem parts_cases (x : Binary64) :
    (x.isNaN = true ∧ x.parts = .notANumber) ∨
    (x.isInfinite = true ∧ x.parts = .infinity x.sign) ∨
    (x.isFinite = true ∧ x.significand = 0 ∧ x.parts = .zero x.sign) ∨
    (x.isFinite = true ∧ ∃ pos, x.parts = .finite x.sign x.significand x.exponent pos) := by
  by_cases nan : x.isNaN = true
  · exact .inl ⟨nan, parts_of_isNaN nan⟩
  by_cases infinite : x.isInfinite = true
  · exact .inr (.inl ⟨infinite, parts_of_isInfinite infinite⟩)
  have finite : x.isFinite = true := by
    simp only [isNaN, isInfinite, isFinite, Bool.and_eq_true, beq_iff_eq, bne_iff_ne] at *
    tauto
  rcases Nat.eq_zero_or_pos x.significand with zero | pos
  · exact .inr (.inr (.inl ⟨finite, zero, parts_of_zero zero⟩))
  · exact .inr (.inr (.inr ⟨finite, pos, parts_of_isFinite finite pos⟩))

theorem isNaN_iff : x.isNaN = true ↔ x.parts = .notANumber := by
  refine ⟨parts_of_isNaN, fun h => ?_⟩
  rcases parts_cases x with ⟨nan, _⟩ | ⟨_, other⟩ | ⟨_, _, other⟩ | ⟨_, _, other⟩
  · exact nan
  all_goals cases h.symm.trans other

theorem isInfinite_of_parts {s : Sign} (h : x.parts = .infinity s) : x.isInfinite = true := by
  rcases parts_cases x with ⟨_, other⟩ | ⟨infinite, _⟩ | ⟨_, _, other⟩ | ⟨_, _, other⟩
  · cases h.symm.trans other
  · exact infinite
  all_goals cases h.symm.trans other

theorem isFinite_parts (x : Binary64) : x.parts.isFinite = x.isFinite := by
  rcases parts_cases x with ⟨kind, parts⟩ | ⟨kind, parts⟩ | ⟨kind, _, parts⟩ | ⟨kind, _, parts⟩
  · simp_all [isNaN, isFinite, UnpackedFloat.isFinite]
  · simp_all [isInfinite, isFinite, UnpackedFloat.isFinite]
  · rw [parts, kind, UnpackedFloat.isFinite]
  · rw [parts, kind, UnpackedFloat.isFinite]

/-! ### Signs -/

/-- The sign of what is not a NaN. -/
def sign? : UnpackedFloat → Option Sign
  | .notANumber => none
  | .infinity s | .zero s | .finite s _ _ _ => some s

theorem sign?_parts (x : Binary64) : sign? x.parts = if x.isNaN then none else some x.sign := by
  rcases parts_cases x with ⟨kind, parts⟩ | ⟨kind, parts⟩ | ⟨kind, _, parts⟩ | ⟨kind, _, parts⟩
  · rw [parts, kind, if_pos rfl, sign?]
  all_goals
    have number : x.isNaN = false := by
      rw [← Bool.not_eq_true, isNaN_iff, parts]
      exact UnpackedFloat.noConfusion
    rw [parts, number, sign?, if_neg Bool.false_ne_true]

theorem magnitude_neg (x : Binary64) : (-x).magnitude = x.magnitude := by
  have bits : (-x).bits = x.bits ^^^ 0x8000000000000000 := rfl
  have rest := Nat.xor_mod_two_pow (a := x.bits.toNat) (b := 0x8000000000000000) (n := 63)
  rw [magnitude, magnitude, bits, UInt64.toNat_xor]
  simpa using rest

theorem isFinite_neg (x : Binary64) : (-x).isFinite = x.isFinite := by
  rw [isFinite, isFinite, exponentField, exponentField, magnitude_neg]

/-! ### From parts to bits -/

theorem parts_ofParts_of_not_isFinite {p : UnpackedFloat} (h : p.isFinite = false) :
    (ofParts p).parts = p := by
  cases p with
  | notANumber => rfl
  | infinity s => cases s <;> rfl
  | zero s => cases h
  | finite s m e pos => cases h

theorem parts_ofParts_zero (s : Sign) : (ofParts (.zero s)).parts = .zero s := by
  cases s <;> rfl

/-- The fields of a bit pattern that is put together from them. -/
private theorem fields_packComponents (s : Sign) (e : BitVec 11) (m : BitVec 52) :
    sign ⟨⟨packComponents binary64 s e m⟩⟩ = s ∧
      exponentField ⟨⟨packComponents binary64 s e m⟩⟩ = e.toNat ∧
      fraction ⟨⟨packComponents binary64 s e m⟩⟩ = m.toNat := by
  have ofSign := ofBitVec_unpackSign ⟨⟨packComponents binary64 s e m⟩⟩
  have ofExponent := toNat_unpackExponent ⟨⟨packComponents binary64 s e m⟩⟩
  have ofMantissa := toNat_unpackMantissa ⟨⟨packComponents binary64 s e m⟩⟩
  dsimp only at ofSign ofExponent ofMantissa
  rw [unpackSign_packComponents, Sign.ofBitVec_toBitVec] at ofSign
  rw [unpackExponent_packComponents] at ofExponent
  rw [unpackMantissa_packComponents] at ofMantissa
  exact ⟨ofSign.symm, ofExponent.symm, ofMantissa.symm⟩

variable {s : Sign} {m : Nat} {e : Int}

theorem ofParts_of_overflow (pos : 0 < m) (large : 971 < e) :
    ofParts (.finite s m e pos) = ofParts (.infinity s) := by
  have beyond : 2 ^ binary64.exponentBits ≤
      (e + binary64.exponentBias + binary64.mantissaBitsWithoutImplicit).toNat + 1 := by
    change 2048 ≤ (e + 1023 + 52).toNat + 1
    omega
  have packed : pack binary64 (.finite s m e pos) = packedInfinity binary64 s := by
    rw [pack, if_pos beyond]
  rw [ofParts, packed]
  rfl

private theorem ofParts_of_fits (pos : 0 < m) (fits : e ≤ 971) :
    ofParts (.finite s m e pos) =
      ⟨⟨packComponents binary64 s (if m.log2 = 52 then .ofNat 11 (e + 1075).toNat else 0#11)
        (.ofNat 52 m)⟩⟩ := by
  have within : ¬ 2 ^ binary64.exponentBits ≤
      (e + binary64.exponentBias + binary64.mantissaBitsWithoutImplicit).toNat + 1 := by
    change ¬ 2048 ≤ (e + 1023 + 52).toNat + 1
    omega
  have biased : e + binary64.exponentBias + binary64.mantissaBitsWithoutImplicit = e + 1075 := by
    change e + 1023 + 52 = e + 1075
    omega
  have full : m.log2 + 1 = binary64.mantissaBits ↔ m.log2 = 52 := by
    change m.log2 + 1 = 1 + 52 ↔ _
    omega
  rw [ofParts, pack, if_neg within, biased]
  by_cases h : m.log2 = 52
  · rw [if_pos (full.2 h), if_pos h]
  · rw [if_neg (mt full.1 h), if_neg h]

private theorem exponentField_ofParts (pos : 0 < m) (fits : e ≤ 971) :
    (ofParts (.finite s m e pos)).exponentField = if m.log2 = 52 then (e + 1075).toNat else 0 := by
  rw [ofParts_of_fits pos fits, (fields_packComponents _ _ _).2.1, apply_ite BitVec.toNat]
  refine if_congr Iff.rfl (Nat.mod_eq_of_lt ?_) rfl
  omega

theorem isFinite_ofParts (pos : 0 < m) (fits : e ≤ 971) :
    (ofParts (.finite s m e pos)).isFinite = true := by
  rw [isFinite, bne_iff_ne, exponentField_ofParts pos fits]
  split <;> omega

private theorem sign_ofParts (pos : 0 < m) (fits : e ≤ 971) :
    (ofParts (.finite s m e pos)).sign = s := by
  rw [ofParts_of_fits pos fits, (fields_packComponents _ _ _).1]

theorem sign?_parts_ofParts (p : UnpackedFloat) : sign? (ofParts p).parts = sign? p := by
  cases p with
  | notANumber | infinity s => rw [parts_ofParts_of_not_isFinite rfl]
  | zero s => rw [parts_ofParts_zero]
  | finite s m e pos =>
    by_cases large : 971 < e
    · rw [ofParts_of_overflow pos large, parts_ofParts_of_not_isFinite rfl]
      rfl
    · have fits : e ≤ 971 := not_lt.1 large
      have number : (ofParts (.finite s m e pos)).isNaN = false := by
        have finite := isFinite_ofParts (s := s) pos fits
        simp_all [isNaN, isFinite]
      rw [sign?_parts, number, sign_ofParts pos fits]
      rfl

/-- Significand and exponent of a finite number as they are stored: the significand is filled up to
53 bits unless the exponent is the least one. -/
structure IsStored (m : Nat) (e : Int) : Prop where
  pos : 0 < m
  lt : m < 2 ^ 53
  least : -1074 ≤ e
  full : 2 ^ 52 ≤ m ∨ e = -1074

theorem parts_ofParts_of_fits (h : IsStored m e) (fits : e ≤ 971) :
    (ofParts (.finite s m e h.pos)).parts = .finite s m e h.pos := by
  obtain ⟨pos, lt, least, full⟩ := h
  have ofFraction : (ofParts (.finite s m e pos)).fraction = m % 2 ^ 52 := by
    rw [ofParts_of_fits pos fits, (fields_packComponents _ _ _).2.2, BitVec.toNat_ofNat]
  have ofField := exponentField_ofParts (s := s) pos fits
  have stored : (ofParts (.finite s m e pos)).significand = m ∧
      (ofParts (.finite s m e pos)).exponent = e := by
    rw [significand, exponent, ofField, ofFraction]
    by_cases filled : 2 ^ 52 ≤ m
    · have log : m.log2 = 52 := (Nat.log2_eq_iff pos.ne').2 ⟨filled, lt⟩
      rw [if_pos log, if_neg (by omega), if_neg (by omega)]
      omega
    · have log : m.log2 ≠ 52 := by
        intro log
        exact filled ((Nat.log2_eq_iff pos.ne').1 log).1
      rw [if_neg log, if_pos rfl, if_pos rfl]
      omega
  have finite := isFinite_ofParts (s := s) pos fits
  have ofSign := sign_ofParts (s := s) pos fits
  have bits := parts_of_isFinite finite (by rwa [stored.1])
  simp only [stored, ofSign] at bits
  exact bits

/-! ### Arithmetic -/

/-- A `Float` keeps what its bits stand for; only NaNs become one. -/
theorem unpack_toFloat (x : Binary64) : x.toFloat.toModel.unpack = x.parts := by
  change unpack binary64 (pack binary64 (unpack binary64 x.bits.toBitVec)) = x.parts
  rw [pack_unpack]
  split
  next nan =>
    have none : unpack binary64 x.bits.toBitVec = .notANumber := by
      simp only [isNaNBits, decide_eq_true_eq] at nan
      simp only [unpack, nan, if_true, if_false]
    rw [unpack_packedNaN, parts, none]
  next => rfl

theorem add_eq (x y : Binary64) : x + y = ofParts (.add binary64 x.parts y.parts) := by
  rw [← unpack_toFloat, ← unpack_toFloat]
  rfl

theorem sub_eq (x y : Binary64) : x - y = ofParts (.sub binary64 x.parts y.parts) := by
  rw [← unpack_toFloat, ← unpack_toFloat]
  rfl

theorem mul_eq (x y : Binary64) : x * y = ofParts (.mul binary64 x.parts y.parts) := by
  rw [← unpack_toFloat, ← unpack_toFloat]
  rfl

theorem div_eq (x y : Binary64) : x / y = ofParts (.div binary64 x.parts y.parts) := by
  rw [← unpack_toFloat, ← unpack_toFloat]
  rfl

theorem sqrt_eq (x : Binary64) : x.sqrt = ofParts (.sqrt binary64 x.parts) := by
  rw [← unpack_toFloat]
  rfl

end Intake.Binary64
