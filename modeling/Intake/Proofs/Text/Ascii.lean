import Intake.Proofs.Text.Decoding
import Intake.Proofs.Text.Utf8

/-!
ASCII texts in tolerantly read bytes. An open character is longer than one byte, so what it becomes
is no ASCII character, complete or cut off; and an ASCII byte is never part of one. A text of ASCII
characters thus occurs in what was read exactly if its bytes occur in the bytes.
-/

set_option autoImplicit false
set_option relaxedAutoImplicit false

namespace Intake.Text.Utf8

/-- The ASCII character of a byte. -/
def asciiChar (b : UInt8) : Char := Char.ofNat b.toNat

theorem toNat_asciiChar {b : UInt8} (ascii : b.toNat < 0x80) : (asciiChar b).toNat = b.toNat := by
  have valid : b.toNat.isValidChar := Or.inl (by omega)
  rw [asciiChar, Char.toNat_ofNat, if_pos valid]

theorem asciiChar_inj {a b : UInt8} (ha : a.toNat < 0x80) (hb : b.toNat < 0x80) :
    asciiChar a = asciiChar b ↔ a = b := by
  constructor
  · intro h
    apply UInt8.toNat_inj.1
    rw [← toNat_asciiChar ha, ← toNat_asciiChar hb, h]
  · intro h
    rw [h]

/-- What a tolerant reader shows for bytes that follow an open character. -/
def shownFrom (pending : Option Pending) (bytes : List UInt8) : List Char :=
  (partsFrom pending bytes).map (·.getD '\uFFFD')

/-- What is shown for an open character that is cut off. -/
def cutOff (pending : Option Pending) : List Char := if pending.isSome then ['\uFFFD'] else []

theorem le_toNat_of_mem_cutOff {pending : Option Pending} {c : Char} (h : c ∈ cutOff pending) :
    0x80 ≤ c.toNat := by
  cases pending with
  | none => cases h
  | some p =>
    rw [List.mem_singleton.1 h]
    decide

theorem shownFrom_nil (pending : Option Pending) : shownFrom pending [] = cutOff pending := by
  cases pending <;> rfl

theorem shownFrom_cons (pending : Option Pending) (b : UInt8) (rest : List UInt8) :
    shownFrom pending (b :: rest) =
      (next pending b.toNat).1.map (·.getD '\uFFFD') ++
        shownFrom (next pending b.toNat).2 rest := by
  simp only [shownFrom, partsFrom, List.map_append]

/-- What is open, if anything, has a byte already and takes no ASCII byte for the next. -/
structure BeyondAscii (pending : Option Pending) : Prop where
  closed : ClosedToAscii pending
  opened : ∀ p ∈ pending, ∃ front, front ≠ [] ∧ OpenedBy front (some p)

theorem beyondAscii_none : BeyondAscii none where
  closed := nofun
  opened := nofun

private theorem opened_begin {b : UInt8} {p : Pending} (h : p ∈ (begin b.toNat).2) :
    ∃ front, front ≠ [] ∧ OpenedBy front (some p) := by
  unfold begin at h
  split at h
  · cases h
  · split at h
    · rename_i first
      cases h
      exact ⟨[b], List.cons_ne_nil b [], openedBy_ofFirst first⟩
    · cases h

theorem beyondAscii_next {pending : Option Pending} (h : BeyondAscii pending) (b : UInt8) :
    BeyondAscii (next pending b.toNat).2 where
  closed := closedToAscii_next pending b.toNat
  opened := by
    intro q hq
    cases pending with
    | none => exact opened_begin hq
    | some p =>
      obtain ⟨front, filled, completes⟩ := h.opened p rfl
      obtain ⟨bits, owed, low, high⟩ := p
      simp only [next] at hq
      split at hq
      · rename_i range
        cases owed with
        | zero => cases hq
        | succ owed =>
          cases hq
          refine ⟨front ++ [b], ?_, completes b range.1 range.2⟩
          exact List.append_ne_nil_of_left_ne_nil filled [b]
      · exact opened_begin hq

/-- A character of more than one byte is no ASCII character. -/
private theorem le_toNat_of_encode {c : Char} {front : List UInt8} {b : UInt8}
    (filled : front ≠ []) (encoded : String.utf8EncodeChar c = front ++ [b]) : 0x80 ≤ c.toNat := by
  by_contra below
  have short : c.val.toNat ≤ 0x7F := by
    have value : c.val.toNat = c.toNat := rfl
    omega
  rw [String.utf8EncodeChar.eq_1, if_pos short] at encoded
  have length := congrArg List.length encoded
  have positive := List.length_pos_iff.2 filled
  simp only [List.length_append, List.length_singleton] at length
  omega

private theorem le_toNat_of_mem_begin {b : Nat} (high : 0x80 ≤ b) {c : Option Char}
    (h : c ∈ (begin b).1) : 0x80 ≤ (c.getD '\uFFFD').toNat := by
  have notAscii : ¬ b < 0x80 := by omega
  rw [begin, if_neg notAscii] at h
  split at h
  · cases h
  · rw [List.mem_singleton.1 h]
    decide

/-- A byte beyond ASCII completes no ASCII character. -/
theorem le_toNat_of_mem_next {pending : Option Pending} (h : BeyondAscii pending) {b : UInt8}
    (high : 0x80 ≤ b.toNat) {c : Option Char} (hc : c ∈ (next pending b.toNat).1) :
    0x80 ≤ (c.getD '\uFFFD').toNat := by
  cases pending with
  | none => exact le_toNat_of_mem_begin high hc
  | some p =>
    obtain ⟨front, filled, completes⟩ := h.opened p rfl
    obtain ⟨bits, owed, low, above⟩ := p
    simp only [next] at hc
    split at hc
    · rename_i range
      cases owed with
      | zero =>
        rw [List.mem_singleton.1 hc]
        exact le_toNat_of_encode filled (completes b range.1 range.2)
      | succ owed => cases hc
    · rcases List.mem_cons.1 hc with rfl | hc
      · decide
      · exact le_toNat_of_mem_begin high hc

/-- A byte that completes nothing leaves a character open. -/
theorem isSome_next_of_eq_nil {pending : Option Pending} {b : Nat} (h : (next pending b).1 = []) :
    (next pending b).2.isSome = true := by
  have opens (h : (begin b).1 = []) : (begin b).2.isSome = true := by
    unfold begin at h ⊢
    split
    · rename_i ascii
      rw [if_pos ascii] at h
      cases h
    · rename_i notAscii
      rw [if_neg notAscii] at h
      split <;> rename_i first <;> rw [first] at h
      · rfl
      · cases h
  cases pending with
  | none => exact opens h
  | some p =>
    obtain ⟨bits, owed, low, high⟩ := p
    simp only [next] at h ⊢
    split
    · rename_i range
      rw [if_pos range] at h
      cases owed with
      | zero => cases h
      | succ owed => rfl
    · rename_i outside
      rw [if_neg outside] at h
      cases h

theorem shownFrom_ascii {pending : Option Pending} (h : BeyondAscii pending) {b : UInt8}
    (ascii : b.toNat < 0x80) (rest : List UInt8) :
    shownFrom pending (b :: rest) =
      cutOff pending ++ asciiChar b :: shownFrom none rest := by
  rw [shownFrom_cons, next_ascii h.closed ascii]
  cases pending <;> rfl

section Occurrence

variable {a : UInt8} {w : List UInt8} (ascii : ∀ b ∈ a :: w, b.toNat < 0x80)

include ascii

private theorem asciiChar_ne_of_le {c : Char} (high : 0x80 ≤ c.toNat) : asciiChar a ≠ c := by
  rintro rfl
  have low := ascii a List.mem_cons_self
  rw [toNat_asciiChar low] at high
  omega

/-- An ASCII text stands in front of what is shown if its bytes stand in front and nothing is
open. -/
theorem prefix_shownFrom_iff {pending : Option Pending} (h : BeyondAscii pending)
    (bytes : List UInt8) :
    (a :: w).map asciiChar <+: shownFrom pending bytes ↔ pending = none ∧ a :: w <+: bytes := by
  induction bytes generalizing pending a w with
  | nil =>
    cases pending with
    | none => simp [shownFrom, partsFrom]
    | some p =>
      have other : asciiChar a ≠ '\uFFFD' := asciiChar_ne_of_le ascii (by decide)
      simp [shownFrom, partsFrom, other]
  | cons b rest ih =>
    have low := ascii a List.mem_cons_self
    by_cases high : 0x80 ≤ b.toNat
    · have differ : a ≠ b := by
        rintro rfl
        omega
      have noText : ¬ (a :: w).map asciiChar <+: shownFrom pending (b :: rest) := by
        rw [shownFrom_cons]
        cases made : (next pending b.toNat).1 with
        | nil =>
          rw [List.map_nil, List.nil_append, ih ascii (beyondAscii_next h b)]
          intro closed
          have opened := isSome_next_of_eq_nil made
          rw [closed.1] at opened
          cases opened
        | cons c more =>
          have shown := le_toNat_of_mem_next h high (made ▸ List.mem_cons_self)
          intro front
          exact asciiChar_ne_of_le ascii shown (List.cons_prefix_cons.1 front).1
      exact iff_of_false noText fun both => differ (List.cons_prefix_cons.1 both.2).1
    · have plain : b.toNat < 0x80 := by omega
      rw [shownFrom_ascii h plain]
      cases pending with
      | some p =>
        have other : asciiChar a ≠ '\uFFFD' := asciiChar_ne_of_le ascii (by decide)
        simp [cutOff, List.cons_prefix_cons, other]
      | none =>
        have later : w.map asciiChar <+: shownFrom none rest ↔ w <+: rest := by
          cases w with
          | nil => simp
          | cons a' w =>
            have ascii' : ∀ b ∈ a' :: w, b.toNat < 0x80 := fun b hb =>
              ascii b (List.mem_cons_of_mem a hb)
            simpa using ih ascii' beyondAscii_none
        simp [cutOff, List.cons_prefix_cons, asciiChar_inj low plain, later]

private theorem infix_append_iff {others : List Char} (high : ∀ c ∈ others, 0x80 ≤ c.toNat)
    (shown : List Char) :
    (a :: w).map asciiChar <:+: others ++ shown ↔ (a :: w).map asciiChar <:+: shown := by
  induction others with
  | nil => rfl
  | cons c others ih =>
    have differ := asciiChar_ne_of_le ascii (high c List.mem_cons_self)
    have later := ih fun c hc => high c (List.mem_cons_of_mem _ hc)
    rw [List.cons_append, List.infix_cons_iff, later]
    simp [List.cons_prefix_cons, differ]

theorem infix_shownFrom_iff {pending : Option Pending} (h : BeyondAscii pending)
    (bytes : List UInt8) :
    (a :: w).map asciiChar <:+: shownFrom pending bytes ↔ a :: w <:+: bytes := by
  induction bytes generalizing pending with
  | nil =>
    have high : ∀ c ∈ cutOff pending, 0x80 ≤ c.toNat := fun _ => le_toNat_of_mem_cutOff
    have nothing := infix_append_iff ascii high []
    rw [List.append_nil] at nothing
    rw [shownFrom_nil, nothing]
    simp
  | cons b rest ih =>
    by_cases high : 0x80 ≤ b.toNat
    · have differ : a ≠ b := by
        have low := ascii a List.mem_cons_self
        rintro rfl
        omega
      have made : ∀ c ∈ (next pending b.toNat).1.map (·.getD '\uFFFD'), 0x80 ≤ c.toNat := by
        intro c hc
        obtain ⟨part, hpart, rfl⟩ := List.mem_map.1 hc
        exact le_toNat_of_mem_next h high hpart
      rw [shownFrom_cons, infix_append_iff ascii made, ih (beyondAscii_next h b),
        List.infix_cons_iff]
      simp [List.cons_prefix_cons, differ]
    · have plain : b.toNat < 0x80 := by omega
      have alone : shownFrom none (b :: rest) = asciiChar b :: shownFrom none rest :=
        shownFrom_ascii beyondAscii_none plain rest
      have front := prefix_shownFrom_iff ascii beyondAscii_none (b :: rest)
      rw [alone] at front
      rw [shownFrom_ascii h plain, infix_append_iff ascii fun _ => le_toNat_of_mem_cutOff,
        List.infix_cons_iff, front, ih beyondAscii_none, List.infix_cons_iff]
      simp

end Occurrence

/-- The bytes of a text of ASCII characters are its characters. -/
theorem encode_of_ascii {s : String} (ascii : ∀ c ∈ s.toList, c.toNat < 0x80) :
    (encode s).map asciiChar = s.toList ∧ ∀ b ∈ encode s, b.toNat < 0x80 := by
  rw [encode_eq]
  generalize s.toList = text at ascii ⊢
  induction text with
  | nil => exact ⟨rfl, nofun⟩
  | cons c chars ih =>
    have low : c.toNat < 0x80 := ascii c List.mem_cons_self
    obtain ⟨chars_eq, below⟩ := ih fun c hc => ascii c (List.mem_cons_of_mem _ hc)
    have one : String.utf8EncodeChar c = [c.toNat.toUInt8] := by
      have short : c.val.toNat ≤ 0x7F := Nat.le_of_lt_succ low
      rw [String.utf8EncodeChar.eq_1, if_pos short]
      rfl
    have value : c.toNat.toUInt8.toNat = c.toNat := by
      rw [Nat.toUInt8, UInt8.toNat_ofNat', Nat.mod_eq_of_lt (by omega)]
    have byte : c.toNat.toUInt8.toNat < 0x80 := by omega
    rw [List.flatMap_cons, one]
    refine ⟨?_, List.forall_mem_cons.2 ⟨byte, below⟩⟩
    rw [List.map_append, chars_eq, List.map_singleton, asciiChar, value, Char.ofNat_toNat]
    rfl

/-- A text of ASCII characters occurs in what a tolerant reader shows exactly if its bytes occur in
what was read. -/
theorem infix_decodeLossy_iff {s : String} (ascii : ∀ c ∈ s.toList, c.toNat < 0x80)
    (bytes : List UInt8) : s.toList <:+: decodeLossy bytes ↔ encode s <:+: bytes := by
  obtain ⟨chars, low⟩ := encode_of_ascii ascii
  rw [← chars]
  cases h : encode s with
  | nil => simp
  | cons a w =>
    rw [h] at low
    exact infix_shownFrom_iff low beyondAscii_none bytes

end Intake.Text.Utf8
