import Intake.Json.Codec.Choice
import Intake.Text.Word

/-!
The two rules for mail addresses. An address is a local part, an at sign, a domain, a dot and an
ending; no part can hold an at sign and no ending a dot, so a text is cut in one way at most and no
search is needed. One line feed may follow the address.
-/

set_option autoImplicit false
set_option relaxedAutoImplicit false

namespace Intake.Mail

/-- The parts of an address `local@domain.ending`. -/
structure Address where
  localPart : List Char
  domain : List Char
  ending : List Char
  deriving DecidableEq, Repr

/-- Cuts a text at the first place of a character. -/
def cutAtFirst (c : Char) : List Char → Option (List Char × List Char)
  | [] => none
  | d :: rest =>
    if d = c then some ([], rest)
    else (cutAtFirst c rest).map fun (before, after) => (d :: before, after)

theorem cutAtFirst_eq_some_iff {c : Char} {s before after : List Char} :
    cutAtFirst c s = some (before, after) ↔ s = before ++ c :: after ∧ c ∉ before := by
  induction s generalizing before with
  | nil => simp [cutAtFirst]
  | cons d rest ih =>
    by_cases hd : d = c
    · subst hd
      cases before <;> simp [cutAtFirst]
      grind
    · cases before with
      | nil => simp [cutAtFirst, hd]
      | cons x before =>
        simp only [cutAtFirst, hd, if_false, Option.map_eq_some_iff, Prod.mk.injEq, Prod.exists]
        grind

/-- Cuts a text at the last place of a character. -/
def cutAtLast (c : Char) : List Char → Option (List Char × List Char)
  | [] => none
  | d :: rest =>
    match cutAtLast c rest with
    | some (before, after) => some (d :: before, after)
    | none => if d = c then some ([], rest) else none

theorem cutAtLast_eq_none_iff {c : Char} {s : List Char} : cutAtLast c s = none ↔ c ∉ s := by
  induction s with
  | nil => simp [cutAtLast]
  | cons d rest ih =>
    simp only [cutAtLast]
    split <;> grind

theorem cutAtLast_eq_some_iff {c : Char} {s before after : List Char} :
    cutAtLast c s = some (before, after) ↔ s = before ++ c :: after ∧ c ∉ after := by
  induction s generalizing before after with
  | nil => simp [cutAtLast]
  | cons d rest ih =>
    cases h : cutAtLast c rest with
    | none =>
      have absent := cutAtLast_eq_none_iff.1 h
      cases before <;> grind [cutAtLast]
    | some parts =>
      obtain ⟨b, a⟩ := parts
      cases before with
      | nil =>
        have := (ih.1 h).1
        grind [cutAtLast]
      | cons x before =>
        have := @ih before after
        grind [cutAtLast]

/-- A text without the line feed at its end, if there is one. -/
def dropLineFeed (s : List Char) : List Char := if s.getLast? = some '\n' then s.dropLast else s

/-- Cuts a text at its first at sign and at the last dot after it. -/
def Address.ofText? (s : List Char) : Option Address := do
  let (localPart, host) ← cutAtFirst '@' s
  let (domain, ending) ← cutAtLast '.' host
  return ⟨localPart, domain, ending⟩

/-- The parts of an address make up the text that they were cut from. -/
theorem Address.ofText?_eq_some_iff {s : List Char} {a : Address} :
    Address.ofText? s = some a ↔
      s = a.localPart ++ '@' :: (a.domain ++ '.' :: a.ending) ∧ '@' ∉ a.localPart ∧
        '.' ∉ a.ending := by
  constructor
  · intro h
    simp only [Address.ofText?, Option.bind_eq_bind, Option.bind_eq_some_iff, Prod.exists,
      Option.pure_def, Option.some.injEq] at h
    obtain ⟨localPart, host, first, domain, ending, last, rfl⟩ := h
    obtain ⟨rfl, noAt⟩ := cutAtFirst_eq_some_iff.1 first
    obtain ⟨rfl, noDot⟩ := cutAtLast_eq_some_iff.1 last
    exact ⟨rfl, noAt, noDot⟩
  · rintro ⟨eq, noAt, noDot⟩
    have first := cutAtFirst_eq_some_iff.2 ⟨eq, noAt⟩
    have last := (@cutAtLast_eq_some_iff '.' _ a.domain _).2 ⟨rfl, noDot⟩
    simp [Address.ofText?, first, last]

/-- Whether a text has at least `least` characters, all of one class. -/
def consistsOf (least : Nat) (isAllowed : Char → Bool) (s : List Char) : Bool :=
  least ≤ s.length && s.all isAllowed

def isHostChar (c : Char) : Bool :=
  Text.isAsciiLetter c || Text.isAsciiDigit c || c == '.' || c == '-'

def isMailboxChar (c : Char) : Bool := isHostChar c || c == '_' || c == '%' || c == '+'

/-- A word character, a dot or a hyphen. -/
def isLooseChar (c : Char) : Bool := Text.isWord c || c == '.' || c == '-'

/-- A rule for addresses. -/
inductive Rule where
  /-- ASCII addresses with an ending of at least two letters; the rule for counting. -/
  | standard
  /-- Word characters of any script; the rule for new users. -/
  | relaxed
  deriving DecidableEq, Repr, Inhabited

namespace Rule

def choice : Json.Choice Rule where
  all := [standard, relaxed]
  name
    | standard => "standard"
    | relaxed => "relaxed"

def name (rule : Rule) : String := choice.name rule

def codec : Json.Codec Rule := .choice choice

/-- A rule as a regular expression. -/
def pattern : Rule → String
  | standard => "^[a-zA-Z0-9._%+-]+@[a-zA-Z0-9.-]+\\.[a-zA-Z]\x7b2,\x7d\\n?\\z"
  | relaxed => "^[\\w\\.-]+@[\\w\\.-]+\\.\\w+\\n?\\z"

def allows (rule : Rule) (address : Address) : Bool :=
  match rule with
  | standard =>
    consistsOf 1 isMailboxChar address.localPart && consistsOf 1 isHostChar address.domain &&
      consistsOf 2 Text.isAsciiLetter address.ending
  | relaxed =>
    consistsOf 1 isLooseChar address.localPart && consistsOf 1 isLooseChar address.domain &&
      consistsOf 1 Text.isWord address.ending

/-- Whether a text is an address that follows a rule, with a line feed after it or without. -/
def accepts (rule : Rule) (s : String) : Bool :=
  match Address.ofText? (dropLineFeed s.toList) with
  | some address => rule.allows address
  | none => false

end Rule

def isValid (s : String) : Bool := Rule.standard.accepts s

example : isValid "ann@mail.example.org\n" = true ∧ isValid "ann@example.o" = false := by
  decide

end Intake.Mail
