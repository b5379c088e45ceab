import Intake.Json.Codec.Choice
import Intake.Proofs.Json.Fields
import Intake.Proofs.Json.Skip

/-!
Two readers of one text. What a reader of a type takes is a document with a value of that type, so
where the reader of documents takes something as well, it is that document. A record passes over
members that are no fields, and finds its own where the reader of documents does.
-/

set_option autoImplicit false
set_option relaxedAutoImplicit false

namespace Intake.Json

open Reader

variable {α σ ρ τ : Type} {limit : Nat}

/-- There is only one thing that a reader takes from a text. -/
theorem Reader.Takes.unique {read : Reader α} {s rest rest' : Text} {a b : α}
    (h : Takes read s a rest) (h' : Takes read s b rest') : a = b ∧ rest = rest' := by
  obtain ⟨_, eq⟩ := h
  obtain ⟨_, eq'⟩ := h'
  have same := Except.ok.inj (eq.symm.trans eq')
  exact ⟨congrArg Prod.fst same, congrArg (fun taken => taken.2.val) same⟩

/-! ### Lists and choices -/

/-- Items that are read into one state can be read into another, if each of them can. -/
theorem Reader.Takes.foldItems_simulation {item : σ → Reader σ} {other : ρ → Reader ρ}
    (related : σ → ρ → Prop)
    (step : ∀ {a b s a' rest}, related a b → Takes (item a) s a' rest →
      ∃ b', Takes (other b) s b' rest ∧ related a' b')
    {a a' : σ} {b : ρ} {isFirst : Bool} {s rest : Text}
    (h : Takes (foldItems item a isFirst) s a' rest) (start : related a b) :
    ∃ b', Takes (foldItems other b isFirst) s b' rest ∧ related a' b' := by
  induction size : s.length using Nat.strong_induction_on generalizing s a b isFirst with
  | _ n ih =>
    rcases takes_foldItems_iff.1 h with ⟨closed, hclosed, eq, rfl⟩ |
      ⟨first, next, more, hfirst, own, others⟩
    · exact ⟨b, takes_foldItems_iff.2 (.inl ⟨closed, hclosed, eq, rfl⟩), start⟩
    · have shorter : more.length < n := size ▸ Nat.lt_of_lt_of_le own.length_lt first.property
      obtain ⟨c, hc, between⟩ := step start own
      obtain ⟨b', later, last⟩ := ih more.length shorter others between rfl
      exact ⟨b', takes_foldItems_iff.2 (.inr ⟨first, c, more, hfirst, hc, later⟩), last⟩

theorem mapM_eq_some_iff {β : Type} {f : α → Option β} {as : List α} {bs : List β} :
    as.mapM f = some bs ↔ as.map f = bs.map some := by
  induction as generalizing bs with
  | nil => cases bs <;> simp
  | cons a as ih =>
    rw [List.mapM_cons, List.map_cons]
    constructor
    · intro h
      obtain ⟨b, own, h⟩ := Option.bind_eq_some_iff.1 h
      obtain ⟨rest, others, h⟩ := Option.bind_eq_some_iff.1 h
      cases h
      rw [own, ih.1 others, List.map_cons]
    · intro h
      cases bs with
      | nil => cases h
      | cons b bs =>
        obtain ⟨own, others⟩ := List.cons.inj h
        rw [own, ih.2 others]
        rfl

namespace Codec

/-- The values of the items of an array. -/
def itemsOf (view : Value → Option α) (v : Value) : Option (List α) :=
  v.array?.bind fun items => items.mapM view

theorem sees_list {c : Codec α} {view : Value → Option α} (sees : Sees limit c.read view) :
    Sees (limit + 1) (list c).read (itemsOf view) := by
  rintro s items rest ⟨less, eq⟩
  simp only [list] at eq
  split at eq
  · rename_i tail
    obtain ⟨backwards, taken, rfl⟩ := takes_map_iff.1 ((takes_widen_iff _).1 ⟨less, eq⟩)
    have step {as : List α} {vs : List Value} {s : Text} {as' : List α} {rest : Text}
        (known : vs.map view = as.map some)
        (h : Takes (Reader.map (fun a => a :: as) c.read) s as' rest) :
        ∃ vs', Takes (arrayItem limit vs) s vs' rest ∧ vs'.map view = as'.map some := by
      obtain ⟨a, ha, rfl⟩ := takes_map_iff.1 h
      obtain ⟨v, hv, value⟩ := sees s a rest ha
      exact ⟨v :: vs, takes_map_iff.2 ⟨v, hv, rfl⟩, by simp [value, known]⟩
    obtain ⟨values, read, known⟩ := taken.foldItems_simulation
      (fun (as : List α) vs => vs.map view = as.map some) step (b := []) rfl
    refine ⟨.array values.reverse, (DocumentForm.array read).takes, ?_⟩
    simp [itemsOf, Value.array?, mapM_eq_some_iff, known]
  · cases eq

/-- The value of a choice that a document names, in one way or the other. -/
def named? (ch : Choice α) : Value → Option α
  | .string name => ch.find? name
  | .object members =>
    match members.entries with
    | [(name, .null)] => ch.find? name
    | _ => none
  | _ => none

theorem find?_of_select {ch : Choice α} {name : String} {a : α} (h : ch.select name = .ok a) :
    ch.find? name = some a := by
  unfold Choice.select at h
  split at h
  · rename_i found
    cases h
    exact found
  · cases h

private theorem trimBlanks_of_closeSingle {s rest : Text} (h : Takes closeSingle s () rest) :
    trimBlanks s = '\x7d' :: rest := by
  rw [closeSingle, takes_afterBlanks_iff] at h
  generalize trimBlanks s = text at h
  obtain ⟨less, eq⟩ := h
  simp only at eq
  split at eq
  · cases eq
  · cases eq
    rfl
  · cases eq

private theorem null_of_takes_unit {s rest : Text} (h : Takes unit s () rest) :
    Takes (document limit) s .null rest := by
  obtain ⟨less, eq⟩ := h
  unfold unit at eq
  split at eq
  · exact (DocumentForm.null ⟨less, eq⟩).takes
  · cases eq

private theorem key_of_takes_readKey {ch : Choice α} {s rest : Text} {a : α}
    (h : Takes (readKey ch) s a rest) :
    ∃ start name, nextKey true s = .ok (.item start) ∧ Takes stringBody start.val name rest ∧
      ch.find? name = some a := by
  obtain ⟨less, eq⟩ := h
  unfold readKey at eq
  split at eq
  · cases eq
  · cases eq
  · rename_i start next
    obtain ⟨name, key, selected⟩ := takes_check_iff.1 ((takes_widen_iff _).1 ⟨less, eq⟩)
    exact ⟨start, name, next, key, find?_of_select selected⟩

/-- A name in an object is the key of its only member, with `null` for a value. -/
private theorem members_of_takes_readKeyed {ch : Choice α} {s rest : Text} {a : α}
    (h : Takes (readKeyed ch) s a rest) :
    ∃ name, ch.find? name = some a ∧ Members limit true s [(name, .null)] rest := by
  obtain ⟨less, eq⟩ := h
  unfold readKeyed at eq
  split at eq
  · cases eq
  · rename_i a' inside hkey
    split at eq
    · cases eq
    · rename_i after hcolon
      split at eq
      · cases eq
      · rename_i last hnull
        obtain ⟨_, closing, rfl⟩ := takes_map_iff.1 ((takes_widen_iff _).1 ⟨less, eq⟩)
        obtain ⟨start, name, next, key, found⟩ := key_of_takes_readKey ⟨inside.property, hkey⟩
        have null : Takes (afterBlanks (document limit)) after.val .null last.val :=
          takes_afterBlanks_iff.2
            (null_of_takes_unit (takes_afterBlanks_iff.1 ⟨last.property, hnull⟩))
        have entry : TakesEntry limit start.val (name, .null) last.val :=
          ⟨inside.val, after.val, key, ⟨after.property, hcolon⟩, null⟩
        obtain ⟨closed, hclosed, rfl⟩ := nextKey_closed_iff.2 (trimBlanks_of_closeSingle closing)
        exact ⟨name, found, .member next entry (.closed hclosed)⟩

theorem sees_choice (limit : Nat) (ch : Choice α) :
    Sees (limit + 1) (choice ch).read (named? ch) := by
  rintro s a rest ⟨less, eq⟩
  simp only [choice] at eq
  split at eq
  · cases eq
  · obtain ⟨name, body, selected⟩ := takes_check_iff.1 ((takes_widen_iff _).1 ⟨less, eq⟩)
    exact ⟨.string name, (DocumentForm.string body).takes, find?_of_select selected⟩
  · obtain ⟨name, found, members⟩ :=
      members_of_takes_readKeyed ((takes_widen_iff _).1 ⟨less, eq⟩)
    have object := takes_objectMembers_iff.2 ⟨[(name, .null)], members, rfl⟩
    exact ⟨.object (.ofEntries [(name, .null)]), (DocumentForm.object object).takes, found⟩
  · cases eq

end Codec

/-! ### Members -/

/-- A reader of a member and the reader of documents take the same of a text, if they both take
something, and the state changes as the document says. -/
def KeepsPace (limit : Nat) (member : σ → String → Except Problem (Reader σ))
    (advance : σ → String × Value → Option σ) : Prop :=
  ∀ ⦃state next key read s v rest rest'⦄, member state key = .ok read →
    Takes (afterBlanks (document limit)) s v rest → Takes (afterBlanks read) s next rest' →
      rest' = rest ∧ advance state (key, v) = some next

/-- Reading members is taking the changes of state over what is written. -/
theorem Members.run {member : σ → String → Except Problem (Reader σ)}
    {advance : σ → String × Value → Option σ} (pace : KeepsPace limit member advance)
    {isFirst : Bool} {s rest rest' : Text} {entries : List (String × Value)}
    (written : Members limit isFirst s entries rest) {state last : σ}
    (taken : Takes (foldMembers member state isFirst) s last rest') :
    rest' = rest ∧ entries.foldlM advance state = some last := by
  induction written generalizing state with
  | closed hclosed =>
    rcases takes_foldMembers_iff.1 taken with ⟨closed, eq, rfl, rfl⟩ | ⟨start, _, _, eq, _⟩
    · cases hclosed.symm.trans eq
      exact ⟨rfl, rfl⟩
    · cases hclosed.symm.trans eq
  | member hnext entry _ ih =>
    rcases takes_foldMembers_iff.1 taken with ⟨_, eq, _⟩ | ⟨start, next, more, eq, own, others⟩
    · cases hnext.symm.trans eq
    · cases hnext.symm.trans eq
      obtain ⟨inside, after, hkey, hcolon, value⟩ := entry
      obtain ⟨key, inside', after', read, hkey', known, hcolon', hread⟩ :=
        takes_readMember_iff.1 own
      obtain ⟨rfl, rfl⟩ := hkey.unique hkey'
      obtain ⟨_, rfl⟩ := hcolon.unique hcolon'
      obtain ⟨rfl, change⟩ := pace known value hread
      obtain ⟨same, run⟩ := ih others
      refine ⟨same, ?_⟩
      rw [List.foldlM_cons, change]
      exact run

namespace Fields

/-- Puts a member into its field, and passes over one that is no field. -/
def advance (f : Fields τ) (sights : f.Sights) (draft : f.Draft) (e : String × Value) :
    Option f.Draft :=
  if e.1 ∈ f.names then f.put sights draft e else some draft

/-- Reads the value of a field, and goes over a member that is no field. -/
def fieldOrSkip (f : Fields τ) (draft : f.Draft) (key : String) : Except Problem (Reader f.Draft) :=
  match f.member? draft key with
  | some read => read
  | none => .ok (Reader.map (fun _ => draft) skipDocument)

theorem readMembers_eq (f : Fields τ) : f.readMembers = foldMembers f.fieldOrSkip f.blank true :=
  rfl

theorem keepsPace {f : Fields τ} {sights : f.Sights} (seen : f.Seen limit sights) :
    KeepsPace limit f.fieldOrSkip (f.advance sights) := by
  intro draft next key read s v rest rest' known whole taken
  rw [takes_afterBlanks_iff] at taken
  unfold fieldOrSkip at known
  split at known
  · rename_i result own
    subst known
    have isField : key ∈ f.names := by
      by_contra noField
      rw [(f.member?_eq_none_iff draft key).2 noField] at own
      cases own
    obtain ⟨w, hw, put⟩ := f.put_of_takes_member? seen own taken
    obtain ⟨rfl, same⟩ := (takes_afterBlanks_iff.1 whole).unique hw
    exact ⟨same.symm, by rw [advance, if_pos isField, put]⟩
  · rename_i none
    cases known
    have noField : key ∉ f.names := (f.member?_eq_none_iff draft key).1 none
    obtain ⟨_, skipped, rfl⟩ := takes_map_iff.1 taken
    have trimmed : Takes (afterBlanks (document limit)) (trimBlanks s) v rest := by
      rw [takes_afterBlanks_iff] at whole ⊢
      rwa [trimBlanks_trimBlanks]
    have passed := takes_skipDocument_of_document trimmed
    exact ⟨(skipped.unique passed).2, by rw [advance, if_neg noField]⟩

theorem foldlM_advance_eq (f : Fields τ) (sights : f.Sights) (entries : List (String × Value))
    (draft : f.Draft) :
    entries.foldlM (f.advance sights) draft =
      (entries.filter fun e => f.names.contains e.1).foldlM (f.put sights) draft := by
  induction entries generalizing draft with
  | nil => rfl
  | cons e entries ih =>
    rw [List.foldlM_cons, advance, List.filter_cons]
    by_cases isField : e.1 ∈ f.names
    · have own : f.names.contains e.1 = true := by simpa using isField
      rw [if_pos isField, if_pos own, List.foldlM_cons]
      simp only [ih]
    · have foreign : ¬ f.names.contains e.1 = true := by simpa using isField
      rw [if_neg isField, if_neg foreign]
      exact ih draft

end Fields

/-- A record that is read from the text of an object holds what is written for its fields. -/
theorem Record.filled_of_decode {r : Record α τ} (distinct : r.fields.names.Nodup)
    {sights : r.fields.Sights} (seen : r.fields.Seen (nestingLimit - 1) sights) {text : String}
    {a : α} {entries : List (String × Value)} (written : Value.written text = .ok entries)
    (decoded : r.codec.decode text = .ok a) :
    ∃ draft, r.fields.Filled sights entries draft ∧
      (r.fields.complete (fun _ name => .missingField name) 0 draft).map r.ofTuple = .ok a := by
  rw [Value.written, whole_braced_eq_ok_iff] at written
  obtain ⟨tail, rest, begins, members, _⟩ := written
  rw [Codec.decode, whole_eq_ok_iff] at decoded
  obtain ⟨rest', taken, _⟩ := decoded
  rw [takes_afterBlanks_iff, begins] at taken
  have object : Takes r.readObject tail a rest' := (takes_widen_iff (length_le_cons tail)).1 taken
  obtain ⟨draft, fields, complete⟩ := takes_check_iff.1 object
  rw [Fields.readMembers_eq] at fields
  obtain ⟨_, run⟩ := (takes_appendMembers_iff.1 members).run (Fields.keepsPace seen) fields
  rw [Fields.foldlM_advance_eq, Fields.foldlM_put_own_iff distinct] at run
  exact ⟨draft, run, complete⟩

end Intake.Json
