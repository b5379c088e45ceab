import Intake.Proofs.Json.Keys
import Intake.Proofs.Text.Ascii
import Intake.Settings.Format

/-!
The names of formats, as text and as the bytes of the text. A name is known up to the case of its
ASCII letters and up to nothing else, and bytes that spell one this way are text.
-/

set_option autoImplicit false
set_option relaxedAutoImplicit false

namespace Intake

open Text Text.Utf8

variable {bytes : List UInt8} {format : Format}

/-- The byte of the lower-case form of an ASCII letter; all other bytes stay. -/
def lowerByte (b : UInt8) : UInt8 := if 65 ≤ b ∧ b ≤ 90 then b + 32 else b

/-! ### Letters and their bytes -/

private theorem lowerAscii_eq_of_le {c : Char} (high : 0x80 ≤ c.toNat) : lowerAscii c = c := by
  have beyond : ¬ c ≤ 'Z' := by
    rw [Char.le_def]
    exact Nat.not_le.2 (Nat.lt_of_lt_of_le (by decide) high)
  simp [lowerAscii, beyond]

theorem toNat_lt_of_lowerAscii {c : Char} (h : (lowerAscii c).toNat < 0x80) : c.toNat < 0x80 := by
  by_contra high
  rw [lowerAscii_eq_of_le (Nat.not_lt.1 high)] at h
  exact high h

private theorem lowerByte_ascii (n : Nat) (h : n < 0x80) :
    (lowerByte (UInt8.ofNat n)).toNat < 0x80 ∧
      asciiChar (lowerByte (UInt8.ofNat n)) = lowerAscii (asciiChar (UInt8.ofNat n)) := by
  revert n
  decide

theorem lowerByte_eq_of_le {b : UInt8} (high : 0x80 ≤ b.toNat) : lowerByte b = b := by
  have beyond : ¬ b ≤ 90 := by
    rw [UInt8.le_iff_toNat_le]
    exact Nat.not_le.2 (Nat.lt_of_lt_of_le (by decide) high)
  simp [lowerByte, beyond]

theorem asciiChar_lowerByte {b : UInt8} (ascii : b.toNat < 0x80) :
    asciiChar (lowerByte b) = lowerAscii (asciiChar b) := by
  have own := (lowerByte_ascii b.toNat ascii).2
  rwa [UInt8.ofNat_toNat] at own

theorem toNat_lt_of_lowerByte {b : UInt8} (h : (lowerByte b).toNat < 0x80) : b.toNat < 0x80 := by
  by_contra high
  rw [lowerByte_eq_of_le (Nat.not_lt.1 high)] at h
  exact high h

theorem toNat_lowerByte_lt {b : UInt8} (ascii : b.toNat < 0x80) : (lowerByte b).toNat < 0x80 := by
  have own := (lowerByte_ascii b.toNat ascii).1
  rwa [UInt8.ofNat_toNat] at own

/-- ASCII bytes are the encoding of their characters. -/
theorem encode_asciiChars (ascii : ∀ b ∈ bytes, b.toNat < 0x80) :
    encode (String.ofList (bytes.map asciiChar)) = bytes := by
  rw [encode_eq, String.toList_ofList]
  induction bytes with
  | nil => rfl
  | cons b bytes ih =>
    obtain ⟨own, others⟩ := List.forall_mem_cons.1 ascii
    rw [List.map_cons, List.flatMap_cons, asciiChar, encode_one own, ih others,
      List.singleton_append]

/-! ### Names -/

theorem ofName?_eq_some_iff {name : List Char} :
    Format.ofName? name = some format ↔ name.map lowerAscii = format.name.toList := by
  constructor
  · intro h
    have same : format.name = String.ofList (name.map lowerAscii) := Json.Codec.name_of_find? h
    rw [same, String.toList_ofList]
  · intro h
    have found : Format.choice.find? format.name = some format := by
      cases format <;> decide
    rw [Format.ofName?, h, String.ofList_toList, found]

theorem ascii_name (format : Format) : ∀ c ∈ format.name.toList, c.toNat < 0x80 := by
  cases format <;> simp [Format.name, Format.choice]

/-- Bytes spell the name of a format if they are its bytes up to the case of ASCII letters. -/
theorem bind_ofName?_eq_some_iff :
    (decode? bytes).bind Format.ofName? = some format ↔
      bytes.map lowerByte = encode format.name := by
  obtain ⟨nameChars, nameAscii⟩ := encode_of_ascii (ascii_name format)
  have chars (ascii : ∀ b ∈ bytes, b.toNat < 0x80) :
      (bytes.map lowerByte).map asciiChar = (bytes.map asciiChar).map lowerAscii := by
    rw [List.map_map, List.map_map]
    exact List.map_congr_left fun b hb => asciiChar_lowerByte (ascii b hb)
  rw [Option.bind_eq_some_iff]
  constructor
  · rintro ⟨text, taken, named⟩
    have lowered := ofName?_eq_some_iff.1 named
    have textAscii : ∀ c ∈ text, c.toNat < 0x80 := by
      intro c hc
      exact toNat_lt_of_lowerAscii
        (ascii_name format _ (lowered ▸ List.mem_map_of_mem hc))
    obtain ⟨spelled, ascii⟩ := encode_of_ascii (s := String.ofList text)
      (by rwa [String.toList_ofList])
    rw [decode?_eq_some_iff.1 taken] at spelled ascii
    rw [String.toList_ofList] at spelled
    have lower : ∀ b ∈ bytes.map lowerByte, b.toNat < 0x80 := by
      rw [List.forall_mem_map]
      exact fun b hb => toNat_lowerByte_lt (ascii b hb)
    rw [← encode_asciiChars lower, chars ascii, spelled, lowered, String.ofList_toList]
  · intro spelled
    have ascii : ∀ b ∈ bytes, b.toNat < 0x80 := fun b hb =>
      toNat_lt_of_lowerByte (nameAscii _ (spelled ▸ List.mem_map_of_mem hb))
    refine ⟨bytes.map asciiChar, decode?_eq_some_iff.2 (encode_asciiChars ascii), ?_⟩
    rw [ofName?_eq_some_iff, ← chars ascii, spelled, nameChars]

end Intake
