import Intake.Mail.Rule
import Mathlib

/-!
The rules for mail addresses as languages. A text that has a cut into parts of the right classes has
one only, so the cut at the at sign and at the last dot decides.
-/

set_option autoImplicit false
set_option relaxedAutoImplicit false

namespace Intake.Mail

open scoped Computability

/-- A character of a local part, of a domain and of an ending under a rule. -/
structure Rule.Classes where
  ofLocal : Char → Prop
  ofDomain : Char → Prop
  ofEnding : Char → Prop
  /-- The least length of an ending. -/
  least : Nat

/-- The classes of a rule. -/
def Rule.classes : Rule → Rule.Classes
  | .standard =>
    { ofLocal := fun c => c.isAlphanum ∨ c ∈ ['.', '_', '%', '+', '-']
      ofDomain := fun c => c.isAlphanum ∨ c ∈ ['.', '-']
      ofEnding := fun c => c.isAlpha
      least := 2 }
  | .relaxed =>
    { ofLocal := fun c => Text.isWord c ∨ c ∈ ['.', '-']
      ofDomain := fun c => Text.isWord c ∨ c ∈ ['.', '-']
      ofEnding := fun c => Text.isWord c
      least := 1 }

/-- The parts of an address are long enough and of the classes of a rule. -/
structure Rule.Spells (rule : Rule) (a : Address) : Prop where
  local_ne_nil : a.localPart ≠ []
  domain_ne_nil : a.domain ≠ []
  least_le : rule.classes.least ≤ a.ending.length
  of_local : ∀ c ∈ a.localPart, rule.classes.ofLocal c
  of_domain : ∀ c ∈ a.domain, rule.classes.ofDomain c
  of_ending : ∀ c ∈ a.ending, rule.classes.ofEnding c

/-- The text `local@domain.ending` of an address. -/
def Address.text (a : Address) : List Char := a.localPart ++ '@' :: (a.domain ++ '.' :: a.ending)

theorem isAsciiLetter_eq (c : Char) : Text.isAsciiLetter c = c.isAlpha := by
  rw [Bool.eq_iff_iff]
  simp [Text.isAsciiLetter, Char.isAlpha, Char.isLower, Char.isUpper, Char.le_def, or_comm]

private theorem isHostChar_iff (c : Char) :
    isHostChar c = true ↔ c.isAlphanum ∨ c ∈ ['.', '-'] := by
  simp [isHostChar, isAsciiLetter_eq, Char.isAlphanum, Text.isAsciiDigit, Char.isDigit, Char.le_def,
    or_assoc]

private theorem isMailboxChar_iff (c : Char) :
    isMailboxChar c = true ↔ c.isAlphanum ∨ c ∈ ['.', '_', '%', '+', '-'] := by
  simp only [isMailboxChar, Bool.or_eq_true, isHostChar_iff, beq_iff_eq, List.mem_cons,
    List.not_mem_nil]
  tauto

private theorem isLooseChar_iff (c : Char) :
    isLooseChar c = true ↔ Text.isWord c ∨ c ∈ ['.', '-'] := by
  simp [isLooseChar, or_assoc]

private theorem consistsOf_iff {least : Nat} {isAllowed : Char → Bool} {s : List Char} :
    consistsOf least isAllowed s = true ↔ least ≤ s.length ∧ ∀ c ∈ s, isAllowed c = true := by
  simp [consistsOf]

private theorem Rule.spells_iff (rule : Rule) (a : Address) :
    rule.Spells a ↔
      ((1 ≤ a.localPart.length ∧ ∀ c ∈ a.localPart, rule.classes.ofLocal c) ∧
        1 ≤ a.domain.length ∧ ∀ c ∈ a.domain, rule.classes.ofDomain c) ∧
          rule.classes.least ≤ a.ending.length ∧ ∀ c ∈ a.ending, rule.classes.ofEnding c := by
  constructor
  · rintro ⟨hl, hd, he, l, d, e⟩
    exact ⟨⟨⟨List.length_pos_iff.2 hl, l⟩, List.length_pos_iff.2 hd, d⟩, he, e⟩
  · rintro ⟨⟨⟨hl, l⟩, hd, d⟩, he, e⟩
    exact ⟨List.length_pos_iff.1 hl, List.length_pos_iff.1 hd, he, l, d, e⟩

theorem Rule.allows_iff (rule : Rule) (a : Address) : rule.allows a = true ↔ rule.Spells a := by
  rw [rule.spells_iff]
  cases rule with
  | standard =>
    simp only [allows, Bool.and_eq_true, consistsOf_iff, isMailboxChar_iff, isHostChar_iff,
      isAsciiLetter_eq, classes]
  | relaxed =>
    simp only [allows, Bool.and_eq_true, consistsOf_iff, isLooseChar_iff, classes]

/-! ### The cut -/

/-- No part of an address may hold an at sign or a line break. -/
theorem Rule.Spells.notMem {rule : Rule} {a : Address} (h : rule.Spells a) {c : Char}
    (hc : c ∈ ['@', '\n', '\r']) : c ∉ a.localPart ∧ c ∉ a.domain ∧ c ∉ a.ending := by
  have outside : ¬ rule.classes.ofLocal c ∧ ¬ rule.classes.ofDomain c ∧
      ¬ rule.classes.ofEnding c := by
    simp only [List.mem_cons, List.not_mem_nil, or_false] at hc
    rcases hc with rfl | rfl | rfl <;> cases rule <;> simp only [classes] <;> decide
  exact ⟨fun mem => outside.1 (h.of_local c mem), fun mem => outside.2.1 (h.of_domain c mem),
    fun mem => outside.2.2 (h.of_ending c mem)⟩

private theorem Rule.Spells.dot_notMem {rule : Rule} {a : Address} (h : rule.Spells a) :
    '.' ∉ a.ending := by
  have outside : ¬ rule.classes.ofEnding '.' := by
    cases rule <;> simp only [classes] <;> decide
  exact fun mem => outside (h.of_ending _ mem)

theorem Rule.Spells.break_notMem {rule : Rule} {a : Address} (h : rule.Spells a) {c : Char}
    (hc : c ∈ ['\n', '\r']) : c ∉ a.text := by
  obtain ⟨noLocal, noDomain, noEnding⟩ := h.notMem (List.mem_cons_of_mem _ hc)
  have noSign : c ≠ '@' ∧ c ≠ '.' := by
    simp only [List.mem_cons, List.not_mem_nil, or_false] at hc
    rcases hc with rfl | rfl <;> decide
  simp [Address.text, noLocal, noDomain, noEnding, noSign]

theorem dropLineFeed_eq_iff {s t : List Char} (h : '\n' ∉ t) :
    dropLineFeed s = t ↔ s = t ∨ s = t ++ ['\n'] := by
  have plain : t.getLast? ≠ some '\n' := fun last => h (List.mem_of_getLast? last)
  constructor
  · intro eq
    unfold dropLineFeed at eq
    split at eq
    · rename_i last
      obtain ⟨front, rfl⟩ := List.getLast?_eq_some_iff.1 last
      rw [List.dropLast_concat] at eq
      exact Or.inr (eq ▸ rfl)
    · exact Or.inl eq
  · rintro (rfl | rfl)
    · rw [dropLineFeed, if_neg plain]
    · rw [dropLineFeed, if_pos List.getLast?_concat, List.dropLast_concat]

theorem Rule.accepts_eq_true_iff {rule : Rule} {s : String} :
    rule.accepts s = true ↔
      ∃ a, Address.ofText? (dropLineFeed s.toList) = some a ∧ rule.Spells a := by
  unfold accepts
  split
  · rename_i a cut
    simp [cut, rule.allows_iff]
  · rename_i cut
    simp [cut]

/-- Under a rule, the parts of a text are where the text is cut. -/
private theorem Rule.Spells.cut {rule : Rule} {a : Address} (h : rule.Spells a) {s : List Char}
    (hs : s = a.text ∨ s = a.text ++ ['\n']) : Address.ofText? (dropLineFeed s) = some a := by
  have dropped : dropLineFeed s = a.text :=
    (dropLineFeed_eq_iff (h.break_notMem (by simp))).2 hs
  have noAt : '@' ∉ a.localPart := (h.notMem (by simp)).1
  exact Address.ofText?_eq_some_iff.2 ⟨dropped, noAt, h.dot_notMem⟩

private theorem Rule.Spells.of_cut {rule : Rule} {a : Address} (h : rule.Spells a) {s : List Char}
    (hs : Address.ofText? (dropLineFeed s) = some a) : s = a.text ∨ s = a.text ++ ['\n'] :=
  (dropLineFeed_eq_iff (h.break_notMem (by simp))).1 (Address.ofText?_eq_some_iff.1 hs).1

theorem Rule.Spells.count_at {rule : Rule} {a : Address} (h : rule.Spells a)
    {s : List Char} (hs : s = a.text ∨ s = a.text ++ ['\n']) : s.count '@' = 1 := by
  obtain ⟨noLocal, noDomain, noEnding⟩ := h.notMem (c := '@') (by simp)
  have once : a.text.count '@' = 1 := by
    simp [Address.text, List.count_append, List.count_eq_zero_of_not_mem noLocal,
      List.count_eq_zero_of_not_mem noDomain, List.count_eq_zero_of_not_mem noEnding]
  rcases hs with rfl | rfl
  · exact once
  · simp [List.count_append, once]

private theorem Rule.accepts_iff_spells {rule : Rule} {s : String} :
    rule.accepts s = true ↔
      ∃ a, rule.Spells a ∧ (s.toList = a.text ∨ s.toList = a.text ++ ['\n']) := by
  rw [accepts_eq_true_iff]
  constructor
  · rintro ⟨a, cut, h⟩
    exact ⟨a, h, h.of_cut cut⟩
  · rintro ⟨a, h, hs⟩
    exact ⟨a, h.cut hs, h⟩

/-! ### The pattern -/

/-- The texts of one character of a class. -/
def oneOf (p : Char → Prop) : Language Char := {s | ∃ c, p c ∧ s = [c]}

/-- The texts of a class that have a least length. -/
def atLeast (n : Nat) (p : Char → Prop) : Language Char := oneOf p ^ n * (oneOf p)∗

/-- The language of the pattern of a rule. -/
def Rule.language (rule : Rule) : Language Char :=
  atLeast 1 rule.classes.ofLocal * oneOf (· = '@') * atLeast 1 rule.classes.ofDomain *
    oneOf (· = '.') * atLeast rule.classes.least rule.classes.ofEnding * (1 + oneOf (· = '\n'))

private theorem mem_oneOf_pow {n : Nat} {p : Char → Prop} {s : List Char} :
    s ∈ oneOf p ^ n ↔ s.length = n ∧ ∀ c ∈ s, p c := by
  induction n generalizing s with
  | zero =>
    rw [pow_zero, Language.mem_one]
    constructor
    · rintro rfl
      simp
    · exact fun h => List.length_eq_zero_iff.1 h.1
  | succ n ih =>
    rw [pow_succ', Language.mem_mul]
    constructor
    · rintro ⟨_, ⟨c, hc, rfl⟩, more, hmore, rfl⟩
      obtain ⟨length, all⟩ := ih.1 hmore
      exact ⟨by simp [length], List.forall_mem_cons.2 ⟨hc, all⟩⟩
    · rintro ⟨length, all⟩
      cases s with
      | nil => cases length
      | cons c more =>
        obtain ⟨hc, rest⟩ := List.forall_mem_cons.1 all
        exact ⟨[c], ⟨c, hc, rfl⟩, more, ih.2 ⟨Nat.succ.inj length, rest⟩, rfl⟩

private theorem mem_atLeast {n : Nat} {p : Char → Prop} {s : List Char} :
    s ∈ atLeast n p ↔ n ≤ s.length ∧ ∀ c ∈ s, p c := by
  simp only [atLeast, Language.mem_mul, Language.kstar_eq_iSup_pow, Language.mem_iSup,
    mem_oneOf_pow]
  constructor
  · rintro ⟨front, ⟨length, hfront⟩, more, ⟨_, -, hmore⟩, rfl⟩
    refine ⟨by simp [length], ?_⟩
    intro c hc
    exact (List.mem_append.1 hc).elim (hfront c) (hmore c)
  · rintro ⟨enough, all⟩
    refine ⟨s.take n, ⟨List.length_take_of_le enough, ?_⟩, s.drop n, ⟨_, rfl, ?_⟩,
      List.take_append_drop n s⟩
    · exact fun c hc => all c (List.mem_of_mem_take hc)
    · exact fun c hc => all c (List.mem_of_mem_drop hc)

private theorem mem_oneOf_eq {c : Char} {s : List Char} : s ∈ oneOf (· = c) ↔ s = [c] := by
  constructor
  · rintro ⟨_, rfl, rfl⟩
    rfl
  · rintro rfl
    exact ⟨c, rfl, rfl⟩

private theorem Rule.mem_language_iff {rule : Rule} {s : List Char} :
    s ∈ rule.language ↔ ∃ a, rule.Spells a ∧ (s = a.text ∨ s = a.text ++ ['\n']) := by
  simp only [language, Language.mem_mul, Language.mem_add, Language.mem_one, mem_atLeast,
    mem_oneOf_eq, rule.spells_iff]
  constructor
  · rintro ⟨_, ⟨_, ⟨_, ⟨_, ⟨l, hl, _, rfl, rfl⟩, d, hd, rfl⟩, _, rfl, rfl⟩, e, he, rfl⟩,
      feed, hfeed, rfl⟩
    refine ⟨⟨l, d, e⟩, ⟨⟨hl, hd⟩, he⟩, ?_⟩
    rcases hfeed with rfl | rfl
    · exact Or.inl (by simp [Address.text])
    · exact Or.inr (by simp [Address.text])
  · rintro ⟨⟨l, d, e⟩, ⟨⟨hl, hd⟩, he⟩, hs⟩
    have shape : l ++ ['@'] ++ d ++ ['.'] ++ e = Address.text ⟨l, d, e⟩ := by
      simp [Address.text]
    refine ⟨_, ⟨_, ⟨_, ⟨_, ⟨l, hl, _, rfl, rfl⟩, d, hd, rfl⟩, _, rfl, rfl⟩, e, he, shape⟩, ?_⟩
    rcases hs with rfl | rfl
    · exact ⟨[], Or.inl rfl, List.append_nil _⟩
    · exact ⟨['\n'], Or.inr rfl, rfl⟩

/-- A rule takes the texts of its pattern: a local part, an at sign, a domain, a dot and an ending,
and at most one line feed. Where the text is cut is settled by its only at sign and the last dot. -/
theorem accepts_iff (rule : Rule) (s : String) :
    (rule.accepts s = true ↔
      ∃ a, rule.Spells a ∧ (s.toList = a.text ∨ s.toList = a.text ++ ['\n'])) ∧
    (rule.accepts s = true ↔ s.toList ∈ rule.language) ∧
    (∀ a, rule.Spells a → (s.toList = a.text ∨ s.toList = a.text ++ ['\n']) →
      Address.ofText? (dropLineFeed s.toList) = some a ∧ s.toList.count '@' = 1) ∧
    (s.toList.getLast? ≠ some '\n' → rule.accepts (s.push '\n') = rule.accepts s) ∧
    (rule.accepts s = true → '\r' ∉ s.toList ∧ '\n' ∉ s.toList.dropLast) ∧
    isValid s = Rule.standard.accepts s := by
  refine ⟨Rule.accepts_iff_spells, ?_, ?_, ?_, ?_, rfl⟩
  · rw [Rule.accepts_iff_spells, Rule.mem_language_iff]
  · intro a h hs
    exact ⟨h.cut hs, h.count_at hs⟩
  · intro plain
    have dropped : dropLineFeed (s.push '\n').toList = dropLineFeed s.toList := by
      rw [String.toList_push, dropLineFeed, if_pos List.getLast?_concat, List.dropLast_concat,
        dropLineFeed, if_neg plain]
    rw [Rule.accepts, Rule.accepts, dropped]
  · intro accepted
    obtain ⟨a, h, hs⟩ := Rule.accepts_iff_spells.1 accepted
    have noReturn : '\r' ∉ a.text := h.break_notMem (by simp)
    have noFeed : '\n' ∉ a.text := h.break_notMem (by simp)
    rcases hs with hs | hs <;> rw [hs]
    · exact ⟨noReturn, fun mem => noFeed (List.mem_of_mem_dropLast mem)⟩
    · rw [List.dropLast_concat]
      exact ⟨by simp [noReturn], noFeed⟩

/-- A domain may have dots and letters; the last dot begins the ending. -/
theorem accepts_iff_last_dot :
    Rule.standard.Spells ⟨"a".toList, "b.c".toList, "de".toList⟩ ∧
      Rule.standard.accepts "a@b.c.de" = true ∧ Rule.standard.accepts "a@b.c.de\n" = true := by
  have spelled : Rule.standard.Spells ⟨"a".toList, "b.c".toList, "de".toList⟩ :=
    (Rule.allows_iff _ _).1 (by decide)
  exact ⟨spelled, (accepts_iff .standard _).1.2 ⟨_, spelled, Or.inl (by decide)⟩,
    (accepts_iff .standard _).1.2 ⟨_, spelled, Or.inr (by decide)⟩⟩

end Intake.Mail
