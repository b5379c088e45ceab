import Intake.Profile.Census
import Intake.Proofs.Mail.Grammar
import Intake.Signup

/-!
Where the two rules for mail addresses agree. An address that one of them takes has one cut, so the
other rule looks at the same parts and only its classes matter. A new user goes by the relaxed rule
and is counted by the standard one.
-/

set_option autoImplicit false
set_option relaxedAutoImplicit false

namespace Intake.Mail

/-- A text is `local@domain.ending`, up to a line feed at its end, and the ending follows its last
dot. -/
structure Address.Cuts (a : Address) (s : String) : Prop where
  text : dropLineFeed s.toList = a.text
  ending : '.' ∉ a.ending

/-- The parts are such that both rules take them. -/
structure Address.InBoth (a : Address) : Prop where
  of_local : ∀ c ∈ a.localPart, c.isAlphanum ∨ c ∈ ['.', '_', '-']
  of_domain : ∀ c ∈ a.domain, c.isAlphanum ∨ c ∈ ['.', '-']
  two_le : 2 ≤ a.ending.length
  of_ending : ∀ c ∈ a.ending, c.isAlpha

/-! ### Characters -/

private theorem lt_of_isAlphanum {c : Char} (h : c.isAlphanum = true) : c.toNat < 0x80 := by
  simp only [Char.isAlphanum, Char.isAlpha, Char.isUpper, Char.isLower, Char.isDigit,
    Bool.or_eq_true, Bool.and_eq_true, decide_eq_true_eq, ge_iff_le, UInt32.le_iff_toNat_le] at h
  have value : c.val.toNat = c.toNat := rfl
  rcases h with (⟨_, upper⟩ | ⟨_, lower⟩) | ⟨_, digit⟩
  · have most : 'Z'.val.toNat = 90 := rfl
    omega
  · have most : 'z'.val.toNat = 122 := rfl
    omega
  · have most : '9'.val.toNat = 57 := rfl
    omega

private theorem isWord_of_isAlphanum {c : Char} (h : c.isAlphanum = true) :
    Text.isWord c = true := by
  have low : c.toNat < 0x80 := lt_of_isAlphanum h
  rw [Text.isWord, if_pos low]
  have spelled : c.isAlpha = true ∨ Text.isAsciiDigit c = true := by
    simpa [Char.isAlphanum, Text.isAsciiDigit, Char.isDigit, Char.le_def] using h
  rw [isAsciiLetter_eq, Bool.or_eq_true, Bool.or_eq_true]
  exact Or.inl spelled

private theorem isAlphanum_of_isAlpha {c : Char} (h : c.isAlpha = true) : c.isAlphanum = true := by
  rw [Char.isAlphanum, h, Bool.true_or]

private theorem isWord_percent : Text.isWord '%' = false := by decide

private theorem isWord_plus : Text.isWord '+' = false := by decide

/-! ### Parts -/

/-- Of the parts that the relaxed rule takes, the standard rule takes those of both. -/
theorem Rule.Spells.standard_iff {a : Address} (h : Rule.relaxed.Spells a) :
    Rule.standard.Spells a ↔ a.InBoth := by
  constructor
  · intro strict
    refine ⟨?_, strict.of_domain, strict.least_le, strict.of_ending⟩
    intro c hc
    have loose : Text.isWord c = true ∨ c ∈ ['.', '-'] := h.of_local c hc
    have wide : c.isAlphanum ∨ c ∈ ['.', '_', '%', '+', '-'] := strict.of_local c hc
    have noPercent : c ≠ '%' := by
      rintro rfl
      simp [isWord_percent] at loose
    have noPlus : c ≠ '+' := by
      rintro rfl
      simp [isWord_plus] at loose
    simpa [noPercent, noPlus] using wide
  · intro both
    refine ⟨h.local_ne_nil, h.domain_ne_nil, both.two_le, ?_, both.of_domain, both.of_ending⟩
    intro c hc
    have narrow := both.of_local c hc
    have wide : c.isAlphanum ∨ c ∈ ['.', '_', '%', '+', '-'] := by
      simp only [List.mem_cons, List.not_mem_nil] at narrow ⊢
      tauto
    exact wide

/-- Of the parts that the standard rule takes, the relaxed rule takes those without a percent sign
and a plus sign. -/
theorem Rule.Spells.relaxed_iff {a : Address} (h : Rule.standard.Spells a) :
    Rule.relaxed.Spells a ↔ '%' ∉ a.localPart ∧ '+' ∉ a.localPart := by
  constructor
  · intro loose
    constructor
    · intro mem
      have word : Text.isWord '%' = true ∨ '%' ∈ ['.', '-'] := loose.of_local _ mem
      simp [isWord_percent] at word
    · intro mem
      have word : Text.isWord '+' = true ∨ '+' ∈ ['.', '-'] := loose.of_local _ mem
      simp [isWord_plus] at word
  · rintro ⟨noPercent, noPlus⟩
    refine ⟨h.local_ne_nil, h.domain_ne_nil, (Nat.le_succ 1).trans h.least_le, ?_, ?_, ?_⟩
    · intro c hc
      have wide : c.isAlphanum ∨ c ∈ ['.', '_', '%', '+', '-'] := h.of_local c hc
      have word : Text.isWord c = true ∨ c ∈ ['.', '-'] := by
        have percent : c ≠ '%' := fun eq => noPercent (eq ▸ hc)
        have plus : c ≠ '+' := fun eq => noPlus (eq ▸ hc)
        have underscore : Text.isWord '_' = true := by decide
        rcases wide with letter | sign
        · exact Or.inl (isWord_of_isAlphanum letter)
        · simp only [List.mem_cons, List.not_mem_nil, or_false, percent, plus, false_or] at sign ⊢
          rcases sign with dot | rfl | hyphen
          · exact Or.inr (Or.inl dot)
          · exact Or.inl underscore
          · exact Or.inr (Or.inr hyphen)
      exact word
    · intro c hc
      have host : c.isAlphanum ∨ c ∈ ['.', '-'] := h.of_domain c hc
      have word : Text.isWord c = true ∨ c ∈ ['.', '-'] := host.imp_left isWord_of_isAlphanum
      exact word
    · intro c hc
      have letter : c.isAlpha = true := h.of_ending c hc
      have word : Text.isWord c = true := isWord_of_isAlphanum (isAlphanum_of_isAlpha letter)
      exact word

/-! ### Texts -/

theorem Address.Cuts.ofText?_eq {a : Address} {s : String} (h : a.Cuts s)
    (noAt : '@' ∉ a.localPart) : Address.ofText? (dropLineFeed s.toList) = some a :=
  Address.ofText?_eq_some_iff.2 ⟨h.text, noAt, h.ending⟩

/-- A text that a rule takes is cut in one way, into parts of that rule. -/
theorem Rule.exists_cuts_of_accepts {rule : Rule} {s : String} (h : rule.accepts s = true) :
    ∃ a : Address, rule.Spells a ∧ a.Cuts s ∧
      Address.ofText? (dropLineFeed s.toList) = some a ∧ ∀ b : Address, b.Cuts s → b = a := by
  obtain ⟨a, cut, spelled⟩ := Rule.accepts_eq_true_iff.1 h
  obtain ⟨text, _, ending⟩ := Address.ofText?_eq_some_iff.1 cut
  refine ⟨a, spelled, ⟨text, ending⟩, cut, ?_⟩
  intro b hb
  have once : b.text.count '@' = 1 := by
    rw [← hb.text, text]
    exact spelled.count_at (Or.inl rfl)
  have noAt : '@' ∉ b.localPart := by
    rw [Address.text, List.count_append, List.count_cons_self] at once
    exact List.count_eq_zero.1 (by omega)
  exact Option.some.inj ((hb.ofText?_eq noAt).symm.trans cut)

/-- Any rule looks at the parts into which one rule cuts a text. -/
theorem Rule.accepts_iff_of_ofText? {rule : Rule} {s : String} {a : Address}
    (cut : Address.ofText? (dropLineFeed s.toList) = some a) :
    rule.accepts s = true ↔ rule.Spells a := by
  rw [Rule.accepts_eq_true_iff]
  constructor
  · rintro ⟨b, other, spelled⟩
    cases cut.symm.trans other
    exact spelled
  · intro spelled
    exact ⟨a, cut, spelled⟩

private theorem mem_text_iff {a : Address} (h : Rule.standard.Spells a) {c : Char}
    (special : c ∈ ['%', '+']) : c ∈ a.text ↔ c ∈ a.localPart := by
  have outside : c ≠ '@' ∧ c ≠ '.' ∧ ¬ (c.isAlphanum ∨ c ∈ ['.', '-']) ∧ ¬ c.isAlpha := by
    simp only [List.mem_cons, List.not_mem_nil, or_false] at special
    rcases special with rfl | rfl <;> decide
  have noDomain : c ∉ a.domain := fun mem => outside.2.2.1 (h.of_domain c mem)
  have noEnding : c ∉ a.ending := fun mem => outside.2.2.2 (h.of_ending c mem)
  simp [Address.text, outside.1, outside.2.1, noDomain, noEnding]

theorem mem_toList_iff_of_cuts {a : Address} {s : String} (cut : a.Cuts s) (h : '\n' ∉ a.text)
    {c : Char} (ne : c ≠ '\n') : c ∈ s.toList ↔ c ∈ a.text := by
  rcases (dropLineFeed_eq_iff h).1 cut.text with eq | eq
  · rw [eq]
  · rw [eq, List.mem_append, List.mem_singleton]
    exact or_iff_left ne

/-- A text that the relaxed rule takes has one cut, and the standard rule takes it exactly if its
local part has ASCII letters, digits, dots, underscores and hyphens only, its domain the same
without underscores, and its ending two ASCII letters or more and nothing else. A text that the
standard rule takes is refused by the relaxed rule exactly if it has a percent or plus sign. The
data of a user that can be created follow the relaxed rule, and count as a valid address by the
standard one. -/
theorem rules_overlap :
    (∀ s : String, Rule.relaxed.accepts s = true →
      (∃! a : Address, a.Cuts s) ∧
        ∀ a : Address, a.Cuts s → (Rule.standard.accepts s = true ↔ a.InBoth)) ∧
    (∀ s : String, Rule.standard.accepts s = true →
      (Rule.relaxed.accepts s = true ↔ '%' ∉ s.toList ∧ '+' ∉ s.toList)) ∧
    ∀ data : Json.Object, Signup.check data = .ok () →
      Rule.relaxed.accepts (Signup.email data) = true ∧
        (Profile.Census.ofBatch [Profile.ofValue (.object data)]).validEmails =
          if Rule.standard.accepts (Signup.email data) then 1 else 0 := by
  refine ⟨?_, ?_, ?_⟩
  · intro s accepted
    obtain ⟨a, spelled, cuts, cut, unique⟩ := Rule.exists_cuts_of_accepts accepted
    refine ⟨⟨a, cuts, unique⟩, ?_⟩
    intro b hb
    rw [unique b hb, Rule.accepts_iff_of_ofText? cut, spelled.standard_iff]
  · intro s accepted
    obtain ⟨a, spelled, cuts, cut, _⟩ := Rule.exists_cuts_of_accepts accepted
    have noFeed : '\n' ∉ a.text := spelled.break_notMem (by simp)
    rw [Rule.accepts_iff_of_ofText? cut, spelled.relaxed_iff,
      mem_toList_iff_of_cuts cuts noFeed (by decide),
      mem_toList_iff_of_cuts cuts noFeed (by decide), mem_text_iff spelled (by simp),
      mem_text_iff spelled (by simp)]
  · intro data usable
    have loose : Rule.relaxed.accepts (Signup.email data) = true := by
      unfold Signup.check at usable
      split at usable
      · cases usable
      · split at usable
        · assumption
        · cases usable
    refine ⟨loose, ?_⟩
    have address : (Profile.ofValue (.object data)).emailOrEmpty = Signup.email data := rfl
    have counted : (Profile.Census.ofBatch [Profile.ofValue (.object data)]).validEmails =
        0 + if isValid (Profile.ofValue (.object data)).emailOrEmpty then 1 else 0 := rfl
    rw [counted, address, UInt64.zero_add]
    rfl

/-- The data of a user whose domain has an underscore, which only the relaxed rule takes; a plus
sign, which only the standard rule takes. -/
theorem rules_overlap_signs :
    let data : Json.Object :=
      .ofEntries [("email", .string "a@b_c.de\n"), ("name", .null), ("password", .null)]
    Signup.check data = .ok () ∧ Rule.standard.accepts (Signup.email data) = false ∧
      (Profile.Census.ofBatch [Profile.ofValue (.object data)]).validEmails = 0 ∧
      Rule.standard.accepts "a+b@c.de" = true ∧ Rule.relaxed.accepts "a+b@c.de" = false := by
  intro data
  have usable : Signup.check data = .ok () := by decide
  have strict : Rule.standard.accepts "a+b@c.de" = true := by decide
  have cuts : Address.Cuts ⟨"a".toList, "b_c".toList, "de".toList⟩ (Signup.email data) :=
    ⟨by decide, by decide⟩
  obtain ⟨loose, counted⟩ := rules_overlap.2.2 data usable
  have refused : Rule.standard.accepts (Signup.email data) = false := by
    rw [← Bool.not_eq_true, (rules_overlap.1 _ loose).2 _ cuts]
    intro both
    have host := both.of_domain '_' (by decide)
    revert host
    decide
  refine ⟨usable, refused, ?_, strict, ?_⟩
  · rw [counted, refused]
    rfl
  · rw [← Bool.not_eq_true, rules_overlap.2.1 _ strict]
    decide

end Intake.Mail
