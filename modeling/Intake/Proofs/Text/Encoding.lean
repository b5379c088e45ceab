import Intake.Text.Utf8
import Mathlib

/-!
Texts in UTF-8: the bytes of a text are read as that text, by the strict and by the tolerant reader.
-/

set_option autoImplicit false
set_option relaxedAutoImplicit false

namespace Intake.Text.Utf8

private theorem toList_loop_eq (bytes : ByteArray) (i : Nat) (before : List UInt8) :
    ByteArray.toList.loop bytes i before = before.reverse ++ bytes.data.toList.drop i := by
  induction left : bytes.size - i generalizing i before with
  | zero =>
    have atEnd : ¬ i < bytes.size := by omega
    have nothing : bytes.data.toList.drop i = [] := List.drop_eq_nil_of_le (by simpa using atEnd)
    rw [ByteArray.toList.loop.eq_def, if_neg atEnd, nothing, List.append_nil]
  | succ n ih =>
    have inside : i < bytes.size := by omega
    have here : i < bytes.data.toList.length := by simpa using inside
    have byte : bytes.get! i = bytes.data.toList[i] := getElem!_pos bytes.data i inside
    rw [ByteArray.toList.loop.eq_def, if_pos inside, ih (i + 1) _ (by omega),
      List.drop_eq_getElem_cons here, byte, List.reverse_cons, List.append_assoc,
      List.singleton_append]

theorem encode_eq (s : String) : encode s = s.toList.flatMap String.utf8EncodeChar := by
  have bytes : s.toUTF8 = (s.toList.flatMap String.utf8EncodeChar).toByteArray := by
    rw [String.toUTF8_eq_toByteArray, ← String.utf8Encode_toList, List.utf8Encode]
  rw [encode, ByteArray.toList, toList_loop_eq, bytes, List.toList_data_toByteArray]
  rfl

/-- The first byte of a character leaves it open. -/
private theorem partsFrom_first {b : UInt8} {p : Pending} (high : 0x80 ≤ b.toNat)
    (first : Pending.ofFirst? b.toNat = some p) (rest : List UInt8) :
    partsFrom none (b :: rest) = partsFrom (some p) rest := by
  have notAscii : ¬ b.toNat < 0x80 := by omega
  simp [partsFrom, next, begin, notAscii, first]

/-- A byte in its range goes on with an open character. -/
private theorem partsFrom_next {b : UInt8} {p : Pending} (low : p.low ≤ b.toNat)
    (high : b.toNat ≤ p.high) (owed : Nat) (eq : p.owed = owed + 1) (rest : List UInt8) :
    partsFrom (some p) (b :: rest) =
      partsFrom (some ⟨p.bits * 64 + b.toNat % 64, owed, 0x80, 0xBF⟩) rest := by
  simp [partsFrom, next, low, high, eq]

/-- The last byte of a character completes it. -/
private theorem partsFrom_last {b : UInt8} {p : Pending} (low : p.low ≤ b.toNat)
    (high : b.toNat ≤ p.high) (eq : p.owed = 0) (rest : List UInt8) :
    partsFrom (some p) (b :: rest) =
      some (Char.ofNat (p.bits * 64 + b.toNat % 64)) :: parts rest := by
  simp [partsFrom, next, low, high, eq, parts]

private theorem ofFirst?_three {v : Nat} (least : 0x800 ≤ v) (most : v < 0x10000)
    (noSurrogate : v < 0xD800 ∨ 0xDFFF < v) :
    ∃ low high, Pending.ofFirst? (v / 4096 % 16 + 224) = some ⟨v / 4096, 1, low, high⟩ ∧
      low ≤ v / 64 % 64 + 128 ∧ v / 64 % 64 + 128 ≤ high := by
  have bits : (v / 4096 % 16 + 224) % 16 = v / 4096 := by omega
  unfold Pending.ofFirst?
  split_ifs <;> first | omega | exact ⟨_, _, by rw [bits], by omega, by omega⟩

private theorem ofFirst?_four {v : Nat} (least : 0x10000 ≤ v) (most : v < 0x110000) :
    ∃ low high, Pending.ofFirst? (v / 262144 % 8 + 240) = some ⟨v / 262144, 2, low, high⟩ ∧
      low ≤ v / 4096 % 64 + 128 ∧ v / 4096 % 64 + 128 ≤ high := by
  have bits : (v / 262144 % 8 + 240) % 8 = v / 262144 := by omega
  unfold Pending.ofFirst?
  split_ifs <;> first | omega | exact ⟨_, _, by rw [bits], by omega, by omega⟩

private theorem toNat_ofNat_of_lt {n : Nat} (h : n < 256) : (UInt8.ofNat n).toNat = n := by
  rw [UInt8.toNat_ofNat']
  exact Nat.mod_eq_of_lt h

private theorem parts_two {v : Nat} (least : 0x80 ≤ v) (most : v < 0x800) (rest : List UInt8) :
    parts (UInt8.ofNat (v / 64 % 32 + 192) :: UInt8.ofNat (v % 64 + 128) :: rest) =
      some (Char.ofNat v) :: parts rest := by
  have first : (UInt8.ofNat (v / 64 % 32 + 192)).toNat = v / 64 % 32 + 192 :=
    toNat_ofNat_of_lt (by omega)
  have last : (UInt8.ofNat (v % 64 + 128)).toNat = v % 64 + 128 := toNat_ofNat_of_lt (by omega)
  have opened : Pending.ofFirst? (v / 64 % 32 + 192) = some ⟨v / 64, 0, 0x80, 0xBF⟩ := by
    have bits : (v / 64 % 32 + 192) % 32 = v / 64 := by omega
    have range : 0xC2 ≤ v / 64 % 32 + 192 ∧ v / 64 % 32 + 192 ≤ 0xDF := by omega
    rw [Pending.ofFirst?, if_pos range, bits]
  have value : v / 64 * 64 + (v % 64 + 128) % 64 = v := by omega
  rw [parts, partsFrom_first (by omega) (first ▸ opened),
    partsFrom_last (by simp only [last]; omega) (by simp only [last]; omega) rfl, last, value]

private theorem parts_three {v : Nat} (least : 0x800 ≤ v) (most : v < 0x10000)
    (noSurrogate : v < 0xD800 ∨ 0xDFFF < v) (rest : List UInt8) :
    parts (UInt8.ofNat (v / 4096 % 16 + 224) :: UInt8.ofNat (v / 64 % 64 + 128) ::
      UInt8.ofNat (v % 64 + 128) :: rest) = some (Char.ofNat v) :: parts rest := by
  have first : (UInt8.ofNat (v / 4096 % 16 + 224)).toNat = v / 4096 % 16 + 224 :=
    toNat_ofNat_of_lt (by omega)
  have second : (UInt8.ofNat (v / 64 % 64 + 128)).toNat = v / 64 % 64 + 128 :=
    toNat_ofNat_of_lt (by omega)
  have last : (UInt8.ofNat (v % 64 + 128)).toNat = v % 64 + 128 := toNat_ofNat_of_lt (by omega)
  obtain ⟨low, high, opened, above, below⟩ := ofFirst?_three least most noSurrogate
  have value : (v / 4096 * 64 + (v / 64 % 64 + 128) % 64) * 64 + (v % 64 + 128) % 64 = v := by omega
  rw [parts, partsFrom_first (by omega) (first ▸ opened),
    partsFrom_next (by simpa only [second] using above) (by simpa only [second] using below) 0 rfl,
    partsFrom_last (by simp only [last]; omega) (by simp only [last]; omega) rfl, second, last,
    value]

private theorem parts_four {v : Nat} (least : 0x10000 ≤ v) (most : v < 0x110000)
    (rest : List UInt8) :
    parts (UInt8.ofNat (v / 262144 % 8 + 240) :: UInt8.ofNat (v / 4096 % 64 + 128) ::
      UInt8.ofNat (v / 64 % 64 + 128) :: UInt8.ofNat (v % 64 + 128) :: rest) =
        some (Char.ofNat v) :: parts rest := by
  have first : (UInt8.ofNat (v / 262144 % 8 + 240)).toNat = v / 262144 % 8 + 240 :=
    toNat_ofNat_of_lt (by omega)
  have second : (UInt8.ofNat (v / 4096 % 64 + 128)).toNat = v / 4096 % 64 + 128 :=
    toNat_ofNat_of_lt (by omega)
  have third : (UInt8.ofNat (v / 64 % 64 + 128)).toNat = v / 64 % 64 + 128 :=
    toNat_ofNat_of_lt (by omega)
  have last : (UInt8.ofNat (v % 64 + 128)).toNat = v % 64 + 128 := toNat_ofNat_of_lt (by omega)
  obtain ⟨low, high, opened, above, below⟩ := ofFirst?_four least most
  have value : ((v / 262144 * 64 + (v / 4096 % 64 + 128) % 64) * 64 +
      (v / 64 % 64 + 128) % 64) * 64 + (v % 64 + 128) % 64 = v := by omega
  rw [parts, partsFrom_first (by omega) (first ▸ opened),
    partsFrom_next (by simpa only [second] using above) (by simpa only [second] using below) 1 rfl,
    partsFrom_next (by simp only [third]; omega) (by simp only [third]; omega) 0 rfl,
    partsFrom_last (by simp only [last]; omega) (by simp only [last]; omega) rfl, second, third,
    last, value]

/-- The bytes of a character are read as that character. -/
theorem parts_utf8EncodeChar_append (c : Char) (rest : List UInt8) :
    parts (String.utf8EncodeChar c ++ rest) = some c :: parts rest := by
  have char : Char.ofNat c.val.toNat = c := Char.ofNat_toNat c
  have valid : c.val.toNat < 0xD800 ∨ 0xDFFF < c.val.toNat ∧ c.val.toNat < 0x110000 := c.valid
  rw [String.utf8EncodeChar.eq_1]
  -- One case for each number of bytes.
  split_ifs
  · have ascii : (UInt8.ofNat c.val.toNat).toNat = c.val.toNat := toNat_ofNat_of_lt (by omega)
    have low : c.val.toNat < 0x80 := by omega
    simp only [List.singleton_append, parts, partsFrom, next, begin, ascii, low, if_true, char]
  · exact (parts_two (by omega) (by omega) rest).trans (by rw [char])
  · exact (parts_three (by omega) (by omega) (by omega) rest).trans (by rw [char])
  · exact (parts_four (by omega) (by omega) rest).trans (by rw [char])

theorem parts_encode (s : String) : parts (encode s) = s.toList.map some := by
  rw [encode_eq]
  induction s.toList with
  | nil => rfl
  | cons c chars ih => rw [List.flatMap_cons, parts_utf8EncodeChar_append, ih, List.map_cons]

theorem decodeLossy_encode (s : String) : decodeLossy (encode s) = s.toList := by
  simp [decodeLossy, parts_encode]

theorem decodeWith_encode (invalid : List Char) (s : String) :
    decodeWith invalid (encode s) = s.toList := by
  simp [decodeWith, parts_encode, List.flatMap_map]

theorem decode?_encode (s : String) : decode? (encode s) = some s.toList := by
  have all (chars : List Char) : (chars.map some).mapM id = some chars := by
    induction chars with
    | nil => rfl
    | cons c chars ih => simp [List.mapM_cons, ih]
  rw [decode?, parts_encode, all]

end Intake.Text.Utf8
