import Intake.Proofs.Text.Encoding

/-!
What the strict reader of UTF-8 takes is the encoding of what it gives. The bytes of an open
character are kept beside it: whatever completes it then completes its encoding.
-/

set_option autoImplicit false
set_option relaxedAutoImplicit false

namespace Intake.Text.Utf8

private theorem eq_ofNat_of_toNat {b : UInt8} {n : Nat} (h : b.toNat = n) : UInt8.ofNat n = b := by
  rw [← h, UInt8.ofNat_toNat]

private theorem toNat_ofNat_char {n : Nat} (valid : n < 0xD800 ∨ 0xDFFF < n ∧ n < 0x110000) :
    (Char.ofNat n).val.toNat = n := by
  have number : (Char.ofNat n).toNat = n := by
    rw [Char.toNat_ofNat, if_pos valid]
  exact number

theorem encode_one {a : UInt8} (first : a.toNat < 0x80) :
    String.utf8EncodeChar (Char.ofNat a.toNat) = [a] := by
  rw [String.utf8EncodeChar.eq_1, toNat_ofNat_char (by omega), if_pos (by omega),
    UInt8.ofNat_toNat]

private theorem encode_two {a b : UInt8} (first : 0xC2 ≤ a.toNat ∧ a.toNat ≤ 0xDF)
    (last : 0x80 ≤ b.toNat ∧ b.toNat ≤ 0xBF) :
    String.utf8EncodeChar (Char.ofNat (a.toNat % 32 * 64 + b.toNat % 64)) = [a, b] := by
  set v := a.toNat % 32 * 64 + b.toNat % 64 with hv
  rw [String.utf8EncodeChar.eq_1, toNat_ofNat_char (by omega), if_neg (by omega),
    if_pos (by omega)]
  rw [eq_ofNat_of_toNat (b := a) (by omega), eq_ofNat_of_toNat (b := b) (by omega)]

private theorem encode_three {a b c : UInt8} (first : 0xE0 ≤ a.toNat ∧ a.toNat ≤ 0xEF)
    (second : 0x80 ≤ b.toNat ∧ b.toNat ≤ 0xBF) (last : 0x80 ≤ c.toNat ∧ c.toNat ≤ 0xBF)
    (long : a.toNat = 0xE0 → 0xA0 ≤ b.toNat) (noSurrogate : a.toNat = 0xED → b.toNat ≤ 0x9F) :
    String.utf8EncodeChar
      (Char.ofNat ((a.toNat % 16 * 64 + b.toNat % 64) * 64 + c.toNat % 64)) = [a, b, c] := by
  set v := (a.toNat % 16 * 64 + b.toNat % 64) * 64 + c.toNat % 64 with hv
  rw [String.utf8EncodeChar.eq_1, toNat_ofNat_char (by omega), if_neg (by omega),
    if_neg (by omega), if_pos (by omega)]
  rw [eq_ofNat_of_toNat (b := a) (by omega), eq_ofNat_of_toNat (b := b) (by omega),
    eq_ofNat_of_toNat (b := c) (by omega)]

private theorem encode_four {a b c d : UInt8} (first : 0xF0 ≤ a.toNat ∧ a.toNat ≤ 0xF4)
    (second : 0x80 ≤ b.toNat ∧ b.toNat ≤ 0xBF) (third : 0x80 ≤ c.toNat ∧ c.toNat ≤ 0xBF)
    (last : 0x80 ≤ d.toNat ∧ d.toNat ≤ 0xBF) (long : a.toNat = 0xF0 → 0x90 ≤ b.toNat)
    (short : a.toNat = 0xF4 → b.toNat ≤ 0x8F) :
    String.utf8EncodeChar
      (Char.ofNat (((a.toNat % 8 * 64 + b.toNat % 64) * 64 + c.toNat % 64) * 64 + d.toNat % 64)) =
        [a, b, c, d] := by
  set v := ((a.toNat % 8 * 64 + b.toNat % 64) * 64 + c.toNat % 64) * 64 + d.toNat % 64 with hv
  rw [String.utf8EncodeChar.eq_1, toNat_ofNat_char (by omega), if_neg (by omega),
    if_neg (by omega), if_neg (by omega)]
  rw [eq_ofNat_of_toNat (b := a) (by omega), eq_ofNat_of_toNat (b := b) (by omega),
    eq_ofNat_of_toNat (b := c) (by omega), eq_ofNat_of_toNat (b := d) (by omega)]

/-- However an open character is completed, its encoding begins with the bytes of `front`, and goes
on with those that complete it. -/
def CompletesTo (front : List UInt8) : (owed bits low high : Nat) → Prop
  | 0, bits, low, high => ∀ b : UInt8, low ≤ b.toNat → b.toNat ≤ high →
    String.utf8EncodeChar (Char.ofNat (bits * 64 + b.toNat % 64)) = front ++ [b]
  | owed + 1, bits, low, high => ∀ b : UInt8, low ≤ b.toNat → b.toNat ≤ high →
    CompletesTo (front ++ [b]) owed (bits * 64 + b.toNat % 64) 0x80 0xBF

/-- The bytes of the open character, if there is one. -/
def OpenedBy (front : List UInt8) : Option Pending → Prop
  | none => front = []
  | some p => CompletesTo front p.owed p.bits p.low p.high

private theorem completesTo_three {a : UInt8} {low high : Nat}
    (first : 0xE0 ≤ a.toNat ∧ a.toNat ≤ 0xEF) (range : 0x80 ≤ low ∧ high ≤ 0xBF)
    (long : a.toNat = 0xE0 → 0xA0 ≤ low) (noSurrogate : a.toNat = 0xED → high ≤ 0x9F) :
    CompletesTo [a] 1 (a.toNat % 16) low high := fun b above below c above' below' =>
  encode_three first ⟨by omega, by omega⟩ ⟨above', below'⟩ (by omega) (by omega)

private theorem completesTo_four {a : UInt8} {low high : Nat}
    (first : 0xF0 ≤ a.toNat ∧ a.toNat ≤ 0xF4) (range : 0x80 ≤ low ∧ high ≤ 0xBF)
    (long : a.toNat = 0xF0 → 0x90 ≤ low) (short : a.toNat = 0xF4 → high ≤ 0x8F) :
    CompletesTo [a] 2 (a.toNat % 8) low high :=
  fun b above below c above' below' d above'' below'' =>
    encode_four first ⟨by omega, by omega⟩ ⟨above', below'⟩ ⟨above'', below''⟩ (by omega) (by omega)

theorem openedBy_ofFirst {a : UInt8} {p : Pending} (first : Pending.ofFirst? a.toNat = some p) :
    OpenedBy [a] (some p) := by
  unfold Pending.ofFirst? at first
  -- One case for each kind of first byte, with the range it leaves to the second.
  split_ifs at first with two <;> cases first <;> simp only [OpenedBy]
  · exact fun b above below => encode_two two ⟨above, below⟩
  all_goals first
    | exact completesTo_three (by omega) (by omega) (by omega) (by omega)
    | exact completesTo_four (by omega) (by omega) (by omega) (by omega)

private theorem openedBy_begin {a : UInt8} {chars : List Char}
    (valid : (begin a.toNat).1 = chars.map some) :
    ∃ opened, OpenedBy opened (begin a.toNat).2 ∧
      chars.flatMap String.utf8EncodeChar ++ opened = [a] := by
  by_cases ascii : a.toNat < 0x80
  · have plain : begin a.toNat = ([some (Char.ofNat a.toNat)], none) := if_pos ascii
    rw [plain] at valid ⊢
    obtain ⟨c, rfl, char⟩ := List.map_eq_singleton_iff.1 valid.symm
    cases char
    exact ⟨[], rfl, by simp [encode_one ascii]⟩
  · cases first : Pending.ofFirst? a.toNat with
    | some p =>
      have opens : begin a.toNat = ([], some p) := by rw [begin, if_neg ascii, first]
      rw [opens] at valid ⊢
      cases List.map_eq_nil_iff.1 valid.symm
      exact ⟨[a], openedBy_ofFirst first, rfl⟩
    | none =>
      have invalid : begin a.toNat = ([none], none) := by rw [begin, if_neg ascii, first]
      rw [invalid] at valid
      obtain ⟨c, -, char⟩ := List.map_eq_singleton_iff.1 valid.symm
      cases char

/-- What a byte completes, and what it leaves open, are the bytes up to it. -/
theorem openedBy_next {pending : Option Pending} {front : List UInt8} (h : OpenedBy front pending)
    {b : UInt8} {chars : List Char} (valid : (next pending b.toNat).1 = chars.map some) :
    ∃ opened, OpenedBy opened (next pending b.toNat).2 ∧
      chars.flatMap String.utf8EncodeChar ++ opened = front ++ [b] := by
  cases pending with
  | none =>
    cases h
    exact openedBy_begin valid
  | some p =>
    obtain ⟨bits, owed, low, high⟩ := p
    by_cases range : low ≤ b.toNat ∧ b.toNat ≤ high
    · cases owed with
      | zero =>
        have completes : next (some ⟨bits, 0, low, high⟩) b.toNat =
            ([some (Char.ofNat (bits * 64 + b.toNat % 64))], none) := if_pos range
        rw [completes] at valid ⊢
        obtain ⟨c, rfl, char⟩ := List.map_eq_singleton_iff.1 valid.symm
        cases char
        exact ⟨[], rfl, by simpa using h b range.1 range.2⟩
      | succ owed =>
        have continues : next (some ⟨bits, owed + 1, low, high⟩) b.toNat =
            ([], some ⟨bits * 64 + b.toNat % 64, owed, 0x80, 0xBF⟩) := if_pos range
        rw [continues] at valid ⊢
        cases List.map_eq_nil_iff.1 valid.symm
        exact ⟨front ++ [b], h b range.1 range.2, rfl⟩
    · have invalid : next (some ⟨bits, owed, low, high⟩) b.toNat =
          (none :: (begin b.toNat).1, (begin b.toNat).2) := if_neg range
      rw [invalid] at valid
      cases chars <;> cases valid

theorem encode_of_partsFrom {pending : Option Pending} {front bytes : List UInt8}
    (h : OpenedBy front pending) {chars : List Char}
    (valid : partsFrom pending bytes = chars.map some) :
    chars.flatMap String.utf8EncodeChar = front ++ bytes := by
  induction bytes generalizing pending front chars with
  | nil =>
    cases pending with
    | none =>
      cases List.map_eq_nil_iff.1 valid.symm
      cases h
      rfl
    | some p =>
      obtain ⟨c, -, char⟩ := List.map_eq_singleton_iff.1 valid.symm
      cases char
  | cons b bytes ih =>
    obtain ⟨made, later, rfl, now, rest⟩ := List.map_eq_append_iff.1 valid.symm
    obtain ⟨opened, inside, eq⟩ := openedBy_next h now.symm
    rw [List.flatMap_append, ih inside rest.symm, ← List.append_assoc, eq, List.append_assoc]
    rfl

private theorem eq_map_some_of_mapM {found : List (Option Char)} {chars : List Char}
    (h : found.mapM id = some chars) : found = chars.map some := by
  induction found generalizing chars with
  | nil =>
    cases h
    rfl
  | cons c found ih =>
    rw [List.mapM_cons] at h
    obtain ⟨char, eq, h⟩ := Option.bind_eq_some_iff.1 h
    obtain ⟨later, rest, h⟩ := Option.bind_eq_some_iff.1 h
    cases h
    rw [ih rest, List.map_cons, ← eq]
    rfl

/-- What is read strictly is what the bytes encode. -/
theorem decode?_eq_some_iff {bytes : List UInt8} {chars : List Char} :
    decode? bytes = some chars ↔ encode (String.ofList chars) = bytes := by
  constructor
  · intro h
    have closed : OpenedBy [] none := rfl
    rw [encode_eq, String.toList_ofList, encode_of_partsFrom closed (eq_map_some_of_mapM h)]
    rfl
  · rintro rfl
    rw [decode?_encode, String.toList_ofList]

/-- What is refused is the encoding of no text. -/
theorem decode?_eq_none_iff {bytes : List UInt8} :
    decode? bytes = none ↔ ∀ s, encode s ≠ bytes := by
  constructor
  · rintro h s rfl
    cases h.symm.trans (decode?_encode s)
  · intro h
    cases taken : decode? bytes with
    | none => rfl
    | some chars => exact absurd (decode?_eq_some_iff.1 taken) (h _)

/-- A long form of a short character, and a surrogate, are no text. -/
example : decode? [0xC0, 0x80] = none ∧ decode? [0xED, 0xA0, 0x80] = none := by decide

end Intake.Text.Utf8
