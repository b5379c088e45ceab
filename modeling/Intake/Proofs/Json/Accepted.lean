import Intake.Proofs.Json.RoundTrip

/-!
The texts that are accepted as a document: one document of any form, with only blanks around. Its
arrays and objects stand inside each other up to the limit and no deeper.
-/

set_option autoImplicit false
set_option relaxedAutoImplicit false

namespace Intake.Json

open Reader

/-- The text is a document and nothing else but blanks. -/
def Value.IsOf (v : Value) (text : String) : Prop :=
  ∃ rest, DocumentForm nestingLimit (trimBlanks text.toList) v rest ∧ trimBlanks rest = []

theorem parse_eq_ok_iff {text : String} {v : Value} : Value.parse text = .ok v ↔ v.IsOf text := by
  simp only [Value.parse, whole_eq_ok_iff, takes_afterBlanks_iff, takes_document_iff, Value.IsOf]

theorem exists_parse_eq_error_iff {text : String} :
    (∃ failure, Value.parse text = .error failure) ↔ ∀ v : Value, ¬ v.IsOf text := by
  simp only [← parse_eq_ok_iff]
  cases Value.parse text <;> simp

/-- What each item keeps, all items keep. -/
theorem Reader.Takes.foldItems_induction {σ : Type} {item : σ → Reader σ} {p : σ → Prop}
    (keeps : ∀ {state s next rest}, p state → Takes (item state) s next rest → p next)
    {state last : σ} {isFirst : Bool} {s rest : Text}
    (h : Takes (foldItems item state isFirst) s last rest) (start : p state) : p last := by
  induction size : s.length using Nat.strong_induction_on generalizing s state isFirst with
  | _ n ih =>
    rcases takes_foldItems_iff.1 h with ⟨_, _, _, rfl⟩ | ⟨first, next, more, _, taken, later⟩
    · exact start
    · have shorter : more.length < n :=
        size ▸ Nat.lt_of_lt_of_le taken.length_lt first.property
      exact ih more.length shorter later (keeps start taken) rfl

theorem Members.depth_le {limit : Nat} {isFirst : Bool} {s rest : Text}
    {entries : List (String × Value)} (h : Members limit isFirst s entries rest)
    (documents : ∀ {s v rest}, Takes (document limit) s v rest → v.depth ≤ limit) :
    ∀ e ∈ entries, e.2.depth ≤ limit := by
  induction h with
  | closed => exact nofun
  | member _ entry _ ih =>
    obtain ⟨_, _, _, _, value⟩ := entry
    exact List.forall_mem_cons.2 ⟨documents (takes_afterBlanks_iff.1 value), ih⟩

theorem depth_le_of_takes {limit : Nat} {s rest : Text} {v : Value}
    (h : Takes (document limit) s v rest) : v.depth ≤ limit := by
  induction limit generalizing s v rest with
  | zero => cases takes_document_iff.1 h <;> exact Nat.le_refl 0
  | succ limit ih =>
    cases takes_document_iff.1 h with
    | null | true | false | string | number => exact Nat.zero_le _
    | array items =>
      refine Nat.succ_le_succ (Value.itemsDepth_le_iff.2 ?_)
      simp only [List.mem_reverse]
      refine items.foldItems_induction (p := fun items => ∀ v ∈ items, v.depth ≤ limit) ?_ nofun
      intro items s next rest inside taken
      obtain ⟨v, own, rfl⟩ := takes_map_iff.1 taken
      exact List.forall_mem_cons.2 ⟨ih own, inside⟩
    | object members =>
      refine Nat.succ_le_succ (Value.membersDepth_le_iff.2 ?_)
      obtain ⟨entries, written, rfl⟩ := takes_objectMembers_iff.1 members
      exact fun e mem => written.depth_le ih e (Keyed.mem_of_mem_ofEntries mem)

/-- Nothing is accepted that is nested deeper than the limit. -/
theorem Value.IsOf.depth_le {v : Value} {text : String} (h : v.IsOf text) :
    v.depth ≤ nestingLimit := by
  obtain ⟨_, form, _⟩ := h
  exact depth_le_of_takes form.takes

end Intake.Json
