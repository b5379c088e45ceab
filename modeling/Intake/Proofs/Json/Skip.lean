import Intake.Proofs.Json.Between
import Intake.Proofs.Json.Members
import Intake.Proofs.Json.SkipScalar

/-!
Going over documents. What is read as a document is gone over up to the same place: the brackets on
the stack are those that the reader of documents is inside of.
-/

set_option autoImplicit false
set_option relaxedAutoImplicit false

namespace Intake.Json

open Reader

theorem Reader.Takes.exists_eq_cons {α : Type} {read : Reader α} {s rest : Text} {a : α}
    (h : Takes read s a rest) : ∃ c tail, s = c :: tail :=
  List.exists_cons_of_length_pos (Nat.zero_lt_of_lt h.length_lt)

/-! ### Brackets on the stack -/

section Stack

variable {s rest last : Text} {bracket : Bracket} {opened : List Bracket}

private theorem leaves_skipThrough_nil (s : Text) : Leaves (skipThrough false [] s) s :=
  ⟨Nat.le_refl _, by rw [skipThrough]⟩

private theorem leaves_skipThrough_of_opening {begun : Option Bracket}
    (h : Takes skipOpening s begun rest)
    (later : Leaves (skipThrough begun.isSome (begun.toList ++ opened) rest) last) :
    Leaves (skipThrough true opened s) last := by
  obtain ⟨less, eq⟩ := h
  obtain ⟨shorter, eq'⟩ := later
  refine ⟨Nat.le_of_lt (Nat.lt_of_le_of_lt shorter less), ?_⟩
  rw [skipThrough, eq]
  simp only [eq']

private theorem leaves_skipThrough_of_closing {isDue : Bool}
    (h : Takes (skipClosing bracket) s isDue rest)
    (later : Leaves (skipThrough isDue (if isDue then bracket :: opened else opened) rest) last) :
    Leaves (skipThrough false (bracket :: opened) s) last := by
  obtain ⟨less, eq⟩ := h
  obtain ⟨shorter, eq'⟩ := later
  refine ⟨Nat.le_of_lt (Nat.lt_of_le_of_lt shorter less), ?_⟩
  rw [skipThrough, eq]
  simp only [eq']

theorem takes_skipClosing_square (h : trimBlanks s = ']' :: rest) :
    Takes (skipClosing .square) s false rest := by
  rw [skipClosing, takes_afterBlanks_iff, h]
  exact ⟨length_lt_cons _, rfl⟩

theorem takes_skipClosing_brace (h : trimBlanks s = '\x7d' :: rest) :
    Takes (skipClosing .brace) s false rest := by
  rw [skipClosing, takes_afterBlanks_iff, h]
  exact ⟨length_lt_cons _, rfl⟩

theorem takes_skipClosing_item (h : trimBlanks s = ',' :: rest) :
    Takes (skipClosing .square) s true rest := by
  rw [skipClosing, takes_afterBlanks_iff, h]
  exact ⟨length_lt_cons _, rfl⟩

theorem takes_skipClosing_member {tail : Text} (h : trimBlanks s = ',' :: tail)
    (key : Takes skipKey tail () rest) : Takes (skipClosing .brace) s true rest := by
  rw [skipClosing, takes_afterBlanks_iff, h]
  exact (takes_widen_iff (length_le_cons _)).2 (takes_map_iff.2 ⟨(), key, rfl⟩)

theorem takes_skipKey {tail more : Text} (h : trimBlanks s = '"' :: tail)
    (key : Takes skipString tail () more) (colon : Takes colon more () rest) :
    Takes skipKey s () rest := by
  rw [skipKey, takes_afterBlanks_iff, h]
  obtain ⟨less, eq⟩ := key
  obtain ⟨less', eq'⟩ := colon
  refine ⟨Nat.lt_trans less' (Nat.lt_succ_of_lt less), ?_⟩
  simp [eq, eq', Taken.widen, Rest.widen]

theorem takes_skipOpening_emptyArray {tail : Text} (h : trimBlanks s = '[' :: tail)
    (closing : trimBlanks tail = ']' :: rest) : Takes skipOpening s none rest := by
  rw [skipOpening, takes_afterBlanks_iff, h]
  refine ⟨Nat.lt_succ_of_lt (length_lt_of_trimBlanks closing), ?_⟩
  simp only
  split
  · rename_i eq
    cases eq.symm.trans closing
  · rename_i eq
    cases eq.symm.trans closing
    rfl
  · rename_i notClosed
    exact absurd closing (notClosed rest)

theorem takes_skipOpening_array {c : Char} {tail : Text} (h : trimBlanks s = '[' :: tail)
    (first : trimBlanks tail = c :: rest) (notClosed : c ≠ ']') :
    Takes skipOpening s (some .square) tail := by
  rw [skipOpening, takes_afterBlanks_iff, h]
  refine ⟨length_lt_cons _, ?_⟩
  simp only
  split
  · rename_i eq
    cases eq.symm.trans first
  · rename_i eq
    exact absurd (List.cons.inj (first.symm.trans eq)).1 notClosed
  · rfl

theorem takes_skipOpening_emptyObject {tail : Text} (h : trimBlanks s = '\x7b' :: tail)
    (closing : trimBlanks tail = '\x7d' :: rest) : Takes skipOpening s none rest := by
  rw [skipOpening, takes_afterBlanks_iff, h]
  refine ⟨Nat.lt_succ_of_lt (length_lt_of_trimBlanks closing), ?_⟩
  simp only
  split
  · rename_i eq
    cases eq.symm.trans closing
  · rename_i eq
    cases eq.symm.trans closing
    rfl
  · rename_i notClosed
    exact absurd closing (notClosed rest)

theorem takes_skipOpening_object {tail : Text} (h : trimBlanks s = '\x7b' :: tail)
    (key : Takes skipKey tail () rest) (quote : ∃ more, trimBlanks tail = '"' :: more) :
    Takes skipOpening s (some .brace) rest := by
  obtain ⟨more, quote⟩ := quote
  rw [skipOpening, takes_afterBlanks_iff, h]
  obtain ⟨less, eq⟩ := key
  refine ⟨Nat.lt_succ_of_lt less, ?_⟩
  simp only
  split
  · rename_i blank
    cases blank.symm.trans quote
  · rename_i closing
    cases closing.symm.trans quote
  · simp only [eq]

private theorem takes_skipOpening_number {c : Char} {tail : Text} (h : trimBlanks s = c :: tail)
    (numeric : c = '-' ∨ isDigit c = true) (number : Takes skipNumber (c :: tail) () rest) :
    Takes skipOpening s none rest := by
  rw [skipOpening, takes_afterBlanks_iff, h]
  obtain ⟨less, eq⟩ := takes_map_iff.2 ⟨(), number, rfl⟩
  obtain ⟨noNull, noTrue, noFalse, noQuote, noBracket, noBrace⟩ := ne_of_numeric numeric
  refine ⟨less, ?_⟩
  -- No other case begins with the first character of a number.
  simp only [numeric, if_true]
  exact eq

end Stack

/-! ### Documents -/

section Documents

variable {limit : Nat} {s rest last : Text} {opened : List Bracket}

/-- Where a document of at most this depth is due it is gone over, whatever is open around it: if
what follows it can be gone over with the same brackets open, then so can the document before it. -/
private def GoneOver (limit : Nat) : Prop :=
  ∀ {s rest last : Text} {v : Value} (opened : List Bracket),
    Takes (document limit) (trimBlanks s) v rest → Leaves (skipThrough false opened rest) last →
      Leaves (skipThrough true opened s) last

private theorem leaves_skipThrough_of_items (documents : GoneOver limit) {state items : List Value}
    (h : Takes (foldItems (arrayItem limit) state false) s items rest)
    (later : Leaves (skipThrough false opened rest) last) :
    Leaves (skipThrough false (.square :: opened) s) last := by
  induction size : s.length using Nat.strong_induction_on generalizing s state with
  | _ n ih =>
    rcases takes_foldItems_iff.1 h with ⟨closed, hclosed, rfl, _⟩ |
      ⟨start, next, more, hstart, own, others⟩
    · have closing := takes_skipClosing_square (nextItem_closed_iff.1 ⟨closed, hclosed, rfl⟩)
      exact leaves_skipThrough_of_closing closing later
    · obtain ⟨v, taken, _⟩ := takes_map_iff.1 own
      obtain ⟨c, inside, begins⟩ := own.exists_eq_cons
      obtain ⟨tail, comma, eq, _⟩ := nextItem_later_iff.1 ⟨start, hstart, begins⟩
      rw [begins, ← eq] at taken
      have shorter : more.length < n := size ▸ Nat.lt_of_lt_of_le own.length_lt start.property
      -- The bracket stays on the stack while the later items are gone over.
      have due := documents (.square :: opened) taken (ih more.length shorter others rfl)
      exact leaves_skipThrough_of_closing (takes_skipClosing_item comma) due

private theorem leaves_skipThrough_of_array (documents : GoneOver limit) {tail : Text}
    {items : List Value} (begins : trimBlanks s = '[' :: tail)
    (h : Takes (foldItems (arrayItem limit) [] true) tail items rest)
    (later : Leaves (skipThrough false opened rest) last) :
    Leaves (skipThrough true opened s) last := by
  rcases takes_foldItems_iff.1 h with ⟨closed, hclosed, rfl, _⟩ |
    ⟨start, next, more, hstart, own, others⟩
  · have empty := takes_skipOpening_emptyArray begins
      (nextItem_closed_iff.1 ⟨closed, hclosed, rfl⟩)
    exact leaves_skipThrough_of_opening empty later
  · obtain ⟨v, taken, _⟩ := takes_map_iff.1 own
    obtain ⟨c, inside, first⟩ := own.exists_eq_cons
    obtain ⟨eq, notClosed⟩ := nextItem_first_iff.1 ⟨start, hstart, first⟩
    rw [first, ← eq] at taken
    have opening := takes_skipOpening_array begins eq notClosed
    have others := leaves_skipThrough_of_items documents others later
    exact leaves_skipThrough_of_opening opening (documents (.square :: opened) taken others)

private theorem takes_skipKey_of_entry {start : Text} {e : String × Value}
    (quote : trimBlanks s = '"' :: start) (entry : TakesEntry limit start e rest) :
    ∃ after, Takes skipKey s () after ∧ Takes (document limit) (trimBlanks after) e.2 rest := by
  obtain ⟨more, after, key, colon, value⟩ := entry
  exact ⟨after, takes_skipKey quote (takes_skipString_of_body key) colon,
    takes_afterBlanks_iff.1 value⟩

private theorem leaves_skipThrough_of_members (documents : GoneOver limit)
    {entries : List (String × Value)} {isFirst : Bool} (h : Members limit isFirst s entries rest)
    (isLater : isFirst = false) (later : Leaves (skipThrough false opened rest) last) :
    Leaves (skipThrough false (.brace :: opened) s) last := by
  induction h with
  | closed hclosed =>
    have closing := takes_skipClosing_brace (nextKey_closed_iff.1 ⟨_, hclosed, rfl⟩)
    exact leaves_skipThrough_of_closing closing later
  | member next entry others ih =>
    subst isLater
    obtain ⟨tail, comma, quote⟩ := nextKey_later_iff.1 ⟨_, next, rfl⟩
    obtain ⟨after, key, value⟩ := takes_skipKey_of_entry quote entry
    have due := documents (.brace :: opened) value (ih rfl later)
    exact leaves_skipThrough_of_closing (takes_skipClosing_member comma key) due

private theorem leaves_skipThrough_of_object (documents : GoneOver limit) {tail : Text}
    {members : Object} (begins : trimBlanks s = '\x7b' :: tail)
    (h : Takes (foldMembers (objectMember limit) .empty true) tail members rest)
    (later : Leaves (skipThrough false opened rest) last) :
    Leaves (skipThrough true opened s) last := by
  obtain ⟨entries, written, _⟩ := takes_objectMembers_iff.1 h
  cases written with
  | closed hclosed =>
    have empty := takes_skipOpening_emptyObject begins
      (nextKey_closed_iff.1 ⟨_, hclosed, rfl⟩)
    exact leaves_skipThrough_of_opening empty later
  | member next entry others =>
    have quote := nextKey_first_iff.1 ⟨_, next, rfl⟩
    obtain ⟨after, key, value⟩ := takes_skipKey_of_entry quote entry
    have opening := takes_skipOpening_object begins key ⟨_, quote⟩
    have inside := leaves_skipThrough_of_members documents others rfl later
    exact leaves_skipThrough_of_opening opening (documents (.brace :: opened) value inside)

private theorem goneOver (limit : Nat) : GoneOver limit := by
  induction limit using Nat.strong_induction_on with
  | _ limit ih =>
    intro s rest last v opened h later
    have form := takes_document_iff.1 h
    generalize begins : trimBlanks s = text at form
    -- A document without brackets is gone over at once, and what follows it is known already.
    have scalar (opening : Takes skipOpening s none rest) :
        Leaves (skipThrough true opened s) last :=
      leaves_skipThrough_of_opening opening later
    cases form with
    | null word | true word | false word =>
      apply scalar
      rw [skipOpening, takes_afterBlanks_iff, begins]
      exact takes_map_iff.2 ⟨(), word, rfl⟩
    | string body =>
      have skipped := takes_skipString_of_body body
      apply scalar
      rw [skipOpening, takes_afterBlanks_iff, begins]
      exact (takes_widen_iff (length_le_cons _)).2 (takes_map_iff.2 ⟨(), skipped, rfl⟩)
    | number numeric digits =>
      exact scalar (takes_skipOpening_number begins numeric (takes_skipNumber_of_number digits))
    | array items =>
      exact leaves_skipThrough_of_array (ih _ (Nat.lt_succ_self _)) begins items later
    | object members =>
      exact leaves_skipThrough_of_object (ih _ (Nat.lt_succ_self _)) begins members later

/-- What is read as a document is gone over up to the same place. -/
theorem takes_skipDocument_of_document {v : Value}
    (h : Takes (afterBlanks (document limit)) s v rest) : Takes skipDocument s () rest := by
  have passed := goneOver limit [] (takes_afterBlanks_iff.1 h) (leaves_skipThrough_nil rest)
  obtain ⟨_, eq⟩ := passed
  rw [skipThrough] at eq
  split at eq
  · cases eq
  · rename_i begun after opening
    split at eq
    · cases eq
    · rename_i left through
      cases eq
      rw [List.append_nil] at through
      refine ⟨Nat.lt_of_le_of_lt left.property after.property, ?_⟩
      simp only [skipDocument, opening, through]

end Documents

end Intake.Json
