import Intake.Proofs.Json.RoundTrip

/-!
How documents are spelled: a rule for each kind of document, and for strings one for each character.
By these rules a document has one text, the one that is written for it.
-/

set_option autoImplicit false
set_option relaxedAutoImplicit false

namespace Intake.Json

/-- The digits of the base sixteen. -/
def hexDigits : List Char := "0123456789abcdef".toList

/-- How a character stands inside of a string. -/
inductive Escaped : Char → Text → Prop where
  | quote : Escaped '"' ['\\', '"']
  | backslash : Escaped '\\' ['\\', '\\']
  | backspace : Escaped '\x08' ['\\', 'b']
  | formFeed : Escaped '\x0c' ['\\', 'f']
  | lineFeed : Escaped '\n' ['\\', 'n']
  | carriageReturn : Escaped '\r' ['\\', 'r']
  | tab : Escaped '\t' ['\\', 't']
  /-- A control without a letter of its own stands by its number. -/
  | control {c high low : Char} (below : c.toNat < 0x20)
      (unnamed : c ∉ ['\x08', '\x0c', '\n', '\r', '\t'])
      (first : hexDigits[c.toNat / 16]? = some high)
      (second : hexDigits[c.toNat % 16]? = some low) :
      Escaped c ['\\', 'u', '0', '0', high, low]
  | plain {c : Char} (visible : 0x20 ≤ c.toNat) (special : c ∉ ['"', '\\']) : Escaped c [c]

/-- How a string stands in a text. -/
def Quoted (s : String) (text : Text) : Prop :=
  ∃ parts, List.Forall₂ Escaped s.toList parts ∧ text = '"' :: (parts.flatten ++ ['"'])

/-- How a document is spelled: without blanks, whole numbers by their decimal digits, the members of
an object one by one with a colon after the key. -/
inductive Value.Spelled : Value → Text → Prop where
  | null : Spelled .null "null".toList
  | true : Spelled (.bool Bool.true) "true".toList
  | false : Spelled (.bool Bool.false) "false".toList
  | natural {n : UInt64} : Spelled (.number (.natural n)) (Nat.toDigits 10 n.toNat)
  | negative {k : Fin 0x8000000000000000} :
      Spelled (.number (.negative k)) ('-' :: Nat.toDigits 10 (k.val + 1))
  | float {x : Binary64} {finite : x.isFinite = Bool.true} :
      Spelled (.number (.float x finite)) x.shortestText
  | string {s : String} {text : Text} (quoted : Quoted s text) : Spelled (.string s) text
  | array {items : List Value} {texts : List Text} (each : List.Forall₂ Spelled items texts) :
      Spelled (.array items) ('[' :: ([','].intercalate texts ++ [']']))
  | object {members : Object} {keys texts : List Text}
      (quoted : List.Forall₂ Quoted (members.entries.map Prod.fst) keys)
      (each : List.Forall₂ Spelled (members.entries.map Prod.snd) texts) :
      Spelled (.object members)
        ('\x7b' :: ([','].intercalate (List.zipWith (fun key t => key ++ ':' :: t) keys texts) ++
          ['\x7d']))

/-- A relation that is a function on the items of a list maps the list. -/
private theorem forall₂_iff_map_eq {α β : Type} {R : α → β → Prop} {f : α → β} {xs : List α}
    (h : ∀ x ∈ xs, ∀ y, R x y ↔ f x = y) {ys : List β} :
    List.Forall₂ R xs ys ↔ xs.map f = ys := by
  induction xs generalizing ys with
  | nil => simp [eq_comm]
  | cons x xs ih =>
    obtain ⟨own, others⟩ := List.forall_mem_cons.1 h
    cases ys with
    | nil => simp
    | cons y ys => rw [List.forall₂_cons, own, ih others, List.map_cons, List.cons.injEq]

theorem hexDigits_eq {n : Nat} (h : n < 16) : hexDigits[n]? = some (hexDigit n) := by
  revert n
  decide

theorem escaped_escape (c : Char) : Escaped c (escape c) := by
  unfold escape
  split
  case h_8 quote backslash backspace formFeed lineFeed carriageReturn tab =>
    split
    · rename_i below
      refine .control below ?_ (hexDigits_eq (by omega)) (hexDigits_eq (by omega))
      simp only [List.mem_cons, List.not_mem_nil, or_false, not_or]
      exact ⟨backspace, formFeed, lineFeed, carriageReturn, tab⟩
    · refine .plain (by omega) ?_
      simp only [List.mem_cons, List.not_mem_nil, or_false, not_or]
      exact ⟨quote, backslash⟩
  all_goals constructor

theorem Escaped.eq_escape {c : Char} {text : Text} (h : Escaped c text) : escape c = text := by
  cases h with
  | control below unnamed first second =>
    rw [hexDigits_eq (by omega), Option.some.injEq] at first second
    subst first second
    unfold escape
    split
    case h_8 => rw [if_pos below]
    all_goals revert below unnamed; decide
  | plain visible special =>
    unfold escape
    split
    case h_8 => rw [if_neg (by omega)]
    all_goals revert visible special; decide
  | _ => rfl

theorem escaped_iff (c : Char) (text : Text) : Escaped c text ↔ escape c = text := by
  constructor
  · exact Escaped.eq_escape
  · rintro rfl
    exact escaped_escape c

theorem quoted_iff (s : String) (text : Text) : Quoted s text ↔ stringText s = text := by
  have each (parts : List Text) :
      List.Forall₂ Escaped s.toList parts ↔ s.toList.map escape = parts :=
    forall₂_iff_map_eq fun c _ => escaped_iff c
  have inside (chars : Text) : escapeAll chars = (chars.map escape).flatten := by
    induction chars with
    | nil => rfl
    | cons c chars ih => rw [escapeAll, ih, List.map_cons, List.flatten_cons]
  simp only [Quoted, each, exists_eq_left', stringText, inside]
  exact eq_comm

namespace Value

/-- A document is spelled as it is written, and in no other way. -/
theorem spelled_iff {v : Value} {text : Text} : v.Spelled text ↔ v.chars = text := by
  induction v using inductionOn generalizing text with
  | null =>
    constructor
    · rintro ⟨⟩
      rfl
    · rintro rfl
      exact .null
  | bool b =>
    constructor
    · rintro (_ | _) <;> rfl
    · rintro rfl
      cases b with
      | true => exact .true
      | false => exact .false
  | number n =>
    constructor
    · rintro (_ | _ | _) <;> rfl
    · rintro rfl
      cases n with
      | natural n => exact .natural
      | negative k => exact .negative
      | float x finite => exact .float
  | string s =>
    rw [chars, ← quoted_iff]
    refine ⟨fun spelled => ?_, .string⟩
    cases spelled with
    | string quoted => exact quoted
  | array items ih =>
    have each (texts : List Text) : List.Forall₂ Spelled items texts ↔ items.map chars = texts :=
      forall₂_iff_map_eq fun v mem text => ih v mem
    rw [chars, itemChars_eq]
    constructor
    · intro spelled
      cases spelled with
      | array spelled => rw [(each _).1 spelled, arrayText, bracketed]
    · rintro rfl
      exact .array ((each _).2 rfl)
  | object members ih =>
    have quoted (keys : List Text) : List.Forall₂ Quoted (members.entries.map Prod.fst) keys ↔
        (members.entries.map Prod.fst).map stringText = keys :=
      forall₂_iff_map_eq fun s _ => quoted_iff s
    have each (texts : List Text) : List.Forall₂ Spelled (members.entries.map Prod.snd) texts ↔
        (members.entries.map Prod.snd).map chars = texts := by
      refine forall₂_iff_map_eq fun v mem text => ?_
      obtain ⟨e, member, rfl⟩ := List.mem_map.1 mem
      exact ih e member
    have joined : objectText (memberChars members) =
        '\x7b' :: ([','].intercalate (List.zipWith (fun key t => key ++ ':' :: t)
          ((members.entries.map Prod.fst).map stringText)
          ((members.entries.map Prod.snd).map chars)) ++ ['\x7d']) := by
      simp only [objectText, bracketed, memberChars_eq, memberTexts, List.map_map, List.zipWith_map,
        List.zipWith_self, Function.comp_def]
    rw [chars, joined]
    constructor
    · intro spelled
      cases spelled with
      | object keys spelled => rw [(quoted _).1 keys, (each _).1 spelled]
    · rintro rfl
      exact .object ((quoted _).2 rfl) ((each _).2 rfl)

end Value

end Intake.Json
