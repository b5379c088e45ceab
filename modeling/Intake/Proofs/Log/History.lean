import Intake.Proofs.Log.Stored

/-!
Tallies by their history. Each level counts what the last loaded text gave it, and one for each line
that was recorded since. The total, the entries and the written form agree with these counts, and
the order in which lines were recorded leaves no trace.
-/

set_option autoImplicit false
set_option relaxedAutoImplicit false

namespace Intake.Log

open Json

/-- What a change replaces the tally by: the text that it loads, if that holds a tally, or nothing
at all. -/
def Change.replaces? : Change → Option (Option String)
  | .load text => if (Tally.codec.decode text).isOk then some (some text) else none
  | .reset => some none
  | .level _ | .line _ => none

/-- The level that a change records. -/
def Change.records? : Change → Option Level
  | .level found => some found
  | .line text => Level.ofLine? text
  | .load _ | .reset => none

/-- The text that replaced the tally last; none if a reset did, or nothing. -/
def lastText? (changes : List Change) : Option String :=
  (changes.filterMap Change.replaces?).getLast?.join

/-- The levels that were recorded since the tally was replaced last. -/
def recordedLast (changes : List Change) : List Level :=
  (changes.rtakeWhile fun change => change.replaces?.isNone).filterMap Change.records?

/-- The numbers that a text writes for a level. -/
def writtenFor (text : String) (level : Level) : List Value :=
  match Value.written text with
  | .ok members => valuesOf level.marker members
  | .error _ => []

/-- The number that a text gives a level: the last that it writes, zero if it writes none. -/
def countIn (text : String) (level : Level) : Nat :=
  (((writtenFor text level).getLast?.bind Value.natural?).map UInt64.toNat).getD 0

/-- The number of lines of a level that the tally stands for after some changes. -/
def countAfter (changes : List Change) (level : Level) : Nat :=
  ((lastText? changes).map fun text => countIn text level).getD 0 +
    (recordedLast changes).count level

/-- A level is named in the text that replaced the tally last, or was recorded since. -/
def OccursIn (changes : List Change) (level : Level) : Prop :=
  (∃ text ∈ lastText? changes, writtenFor text level ≠ []) ∨ level ∈ recordedLast changes

/-! ### One more change -/

theorem lastText?_concat (changes : List Change) (change : Change) :
    lastText? (changes ++ [change]) = change.replaces?.getD (lastText? changes) := by
  rw [lastText?, List.filterMap_append]
  cases h : change.replaces? with
  | none => simp [h, lastText?]
  | some text => simp [h]

theorem recordedLast_concat (changes : List Change) (change : Change) :
    recordedLast (changes ++ [change]) =
      if change.replaces?.isNone then recordedLast changes ++ change.records?.toList else [] := by
  rw [recordedLast]
  cases h : change.replaces? with
  | none =>
    have taken :=
      List.rtakeWhile_concat_pos (fun change : Change => change.replaces?.isNone) changes
      change (by simp [h])
    rw [taken, List.filterMap_append]
    cases r : change.records? <;> simp [r, recordedLast]
  | some text =>
    have taken :=
      List.rtakeWhile_concat_neg (fun change : Change => change.replaces?.isNone) changes
      change (by simp [h])
    rw [taken]
    rfl

theorem since_after (changes : List Change) :
    (Course.after changes).since = recordedLast changes := by
  induction changes using List.reverseRecOn with
  | nil => rfl
  | append_singleton changes change ih =>
    rw [Course.after_concat, recordedLast_concat, ← ih]
    cases change with
    | level | line => rfl
    | load text =>
      rw [Course.apply, Change.replaces?]
      cases Tally.codec.decode text <;> simp [Except.isOk, Except.toBool, Change.records?]
    | reset => rfl

theorem base_eq_after (changes : List Change) :
    match lastText? changes with
    | some text => Tally.codec.decode text = .ok (Course.after changes).base
    | none => (Course.after changes).base = .empty := by
  induction changes using List.reverseRecOn with
  | nil => rfl
  | append_singleton changes change ih =>
    rw [Course.after_concat, lastText?_concat]
    cases change with
    | level | line => exact ih
    | load text =>
      rw [Course.apply, Change.replaces?]
      cases loaded : Tally.codec.decode text with
      | ok t => exact loaded
      | error failure => exact ih
    | reset => rfl

/-! ### Counts -/

theorem Level.marker_injective : Function.Injective Level.choice.name := by
  intro a b h
  cases a <;> cases b <;> first | rfl | exact absurd h (by decide)

theorem get?_of_decode {text : String} {t : Tally} (h : Tally.codec.decode text = .ok t)
    (level : Level) :
    (writtenFor text level).getLast?.map Value.natural? = (t.get? level).map some := by
  obtain ⟨members, entries, written, known, rfl⟩ := Tally.decode_eq_ok_iff.1 h
  have values : writtenFor text level = valuesOf (Level.choice.name level) members := by
    rw [writtenFor, written]
    rfl
  rw [values]
  exact Codec.map_view_getLast?_valuesOf Level.marker_injective known level

theorem toNat_count_of_decode {text : String} {t : Tally} (h : Tally.codec.decode text = .ok t)
    (level : Level) : (t.count level).toNat = countIn text level := by
  have last := get?_of_decode h level
  rw [countIn, Tally.count]
  cases entry : t.get? level with
  | none =>
    rw [entry, Option.map_none, Option.map_eq_none_iff] at last
    simp [last]
  | some n =>
    rw [entry] at last
    obtain ⟨v, hv, value⟩ := Option.map_eq_some_iff.1 last
    simp [hv, value]

theorem toNat_count_base (changes : List Change) (level : Level) :
    ((Course.after changes).base.count level).toNat =
      ((lastText? changes).map fun text => countIn text level).getD 0 := by
  have base := base_eq_after changes
  cases last : lastText? changes with
  | none =>
    rw [last] at base
    rw [show (Course.after changes).base = .empty from base, Tally.count, Keyed.get?_empty]
    rfl
  | some text =>
    rw [last] at base
    exact toNat_count_of_decode base level

theorem count_after (changes : List Change) (level : Level) :
    (Tally.after changes).count level = UInt64.ofNat (countAfter changes level) := by
  have base : (Course.after changes).base.count level =
      UInt64.ofNat (((lastText? changes).map fun text => countIn text level).getD 0) := by
    rw [← toNat_count_base, UInt64.ofNat_toNat]
  rw [← Course.tally_after, Course.tally, Tally.count_recordLevels, since_after, base, countAfter,
    UInt64.ofNat_add]

theorem isSome_get?_after_iff (changes : List Change) (level : Level) :
    ((Tally.after changes).get? level).isSome = true ↔ OccursIn changes level := by
  have named : ((Course.after changes).base.get? level).isSome = true ↔
      ∃ text ∈ lastText? changes, writtenFor text level ≠ [] := by
    have base := base_eq_after changes
    cases last : lastText? changes with
    | none =>
      rw [last] at base
      rw [show (Course.after changes).base = .empty from base, Keyed.get?_empty]
      simp
    | some text =>
      rw [last] at base
      have written := congrArg Option.isSome (get?_of_decode base level)
      rw [Option.isSome_map, Option.isSome_map] at written
      rw [← written]
      simp
  rw [← Course.tally_after, Course.isSome_get?_tally, named, since_after, OccursIn]

/-! ### The order of recording -/

namespace Tally

theorem recordLevels_perm (t : Tally) {levels others : List Level} (h : levels.Perm others) :
    t.recordLevels levels = t.recordLevels others := by
  refine Keyed.ext fun level => Option.ext fun n => ?_
  rw [get?_eq_some_iff, get?_eq_some_iff, isSome_get?_recordLevels, isSome_get?_recordLevels,
    count_recordLevels, count_recordLevels, h.mem_iff, h.count_eq]

theorem apply_of_replaces?_eq_none {change : Change} (h : change.replaces? = none) (t : Tally) :
    t.apply change = t.recordLevels change.records?.toList := by
  cases change with
  | level => rfl
  | line text =>
    rw [apply, recordLine, Change.records?]
    cases Level.ofLine? text <;> rfl
  | load text =>
    rw [apply]
    cases loaded : codec.decode text with
    | ok t =>
      rw [Change.replaces?, loaded] at h
      cases h
    | error failure => rfl
  | reset => cases h

/-- Changes that replace nothing record their levels. -/
theorem foldl_apply_eq {changes : List Change} (h : ∀ change ∈ changes, change.replaces? = none)
    (t : Tally) : changes.foldl apply t = t.recordLevels (changes.filterMap Change.records?) := by
  induction changes generalizing t with
  | nil => rfl
  | cons change changes ih =>
    obtain ⟨first, later⟩ := List.forall_mem_cons.1 h
    rw [List.foldl_cons, apply_of_replaces?_eq_none first, ih later, List.filterMap_cons]
    cases change.records? <;> rfl

theorem after_perm {before others later recorded : List Change}
    (kept : ∀ change ∈ recorded, change.replaces? = none) (h : recorded.Perm others) :
    after (before ++ recorded ++ later) = after (before ++ others ++ later) := by
  have kept' : ∀ change ∈ others, change.replaces? = none := fun change mem =>
    kept change (h.mem_iff.2 mem)
  have same : recorded.foldl apply (after before) = others.foldl apply (after before) := by
    rw [foldl_apply_eq kept, foldl_apply_eq kept']
    exact recordLevels_perm _ (h.filterMap _)
  rw [after, List.foldl_append, List.foldl_append]
  rw [after, List.foldl_append, List.foldl_append]
  exact congrArg (fun t => later.foldl apply t) same

end Tally

/-- After any changes that leave the counts below `2 ^ 64`, a level counts what the text that
replaced the tally last gives it, and one for each line recorded since. The total is the sum of the
five counts. The entries are one for each level that occurs, in order of priority and with its
count, and so are the members of the written form. Changes that replace nothing may be made in any
order. -/
theorem count_after_eq (changes : List Change)
    (few : ∀ level, countAfter changes level < 2 ^ 64) :
    let t := Tally.after changes
    (∀ level, (t.count level).toNat = countAfter changes level) ∧
    t.total = (Level.priority.map t.count).foldr (· + ·) 0 ∧
    ((Level.priority.map (countAfter changes)).sum < 2 ^ 64 →
      t.total.toNat = (Level.priority.map (countAfter changes)).sum) ∧
    (t.entries.map Prod.fst).Pairwise (· < ·) ∧
    (∀ e ∈ t.entries, e.2 = t.count e.1) ∧
    (∀ level, level ∈ t.entries.map Prod.fst ↔ OccursIn changes level) ∧
    (∀ level, t.count level ≠ 0 → level ∈ t.entries.map Prod.fst) ∧
    Value.written (Tally.codec.encode t) =
      .ok (t.entries.map fun e => (e.1.marker, .number (.natural e.2))) ∧
    ∀ before recorded later others : List Change,
      (∀ change ∈ recorded, change.replaces? = none) → recorded.Perm others →
        changes = before ++ recorded ++ later → t = Tally.after (before ++ others ++ later) := by
  intro t
  have count (level : Level) : (t.count level).toNat = countAfter changes level := by
    rw [count_after, UInt64.toNat_ofNat_of_lt' (few level)]
  have entry (level : Level) :
      level ∈ t.entries.map Prod.fst ↔ (t.get? level).isSome = true := by
    rw [Keyed.map_fst_entries, Keyed.isSome_get?_iff]
  refine ⟨count, Tally.total_eq_foldr t, ?_, List.pairwise_map.2 t.increasing_entries, ?_, ?_, ?_,
    Tally.written_encode t, ?_⟩
  · intro small
    have lines : t.lines = (Level.priority.map (countAfter changes)).sum := by
      rw [Tally.lines_eq_sum]
      simp only [count]
    rw [Tally.toNat_total (lines ▸ small), lines]
  · intro e mem
    exact ((Tally.get?_eq_some_iff.1 (Keyed.mem_entries_iff.1 mem)).2).symm
  · intro level
    rw [entry, isSome_get?_after_iff]
  · intro level counted
    rw [entry]
    by_contra absent
    apply counted
    rw [Tally.count, Option.not_isSome_iff_eq_none.1 absent]
    rfl
  · rintro before recorded later others kept perm rfl
    exact Tally.after_perm kept perm

/-- A text that repeats a level, one that holds no tally, and lines recorded in between. -/
theorem count_after_eq_repeated :
    let changes : List Change :=
      [.level .error, .load "\x7b\"INFO\":2,\"WARN\":0,\"INFO\":3\x7d", .level .info, .load "[]",
        .line "FATAL".toList]
    (∀ level, countAfter changes level < 2 ^ 64) ∧
      (∀ level, ((Tally.after changes).count level).toNat =
        match level with
        | .info => 4
        | .fatal => 1
        | _ => 0) ∧
      Tally.after changes =
        Tally.after [.level .error, .load "\x7b\"INFO\":2,\"WARN\":0,\"INFO\":3\x7d",
          .line "FATAL".toList, .level .info, .load "[]"] := by
  intro changes
  have written : Value.written "\x7b\"INFO\":2,\"WARN\":0,\"INFO\":3\x7d" =
      .ok [("INFO", .number (.natural 2)), ("WARN", .number (.natural 0)),
        ("INFO", .number (.natural 3))] := by cbv
  have loaded : (Tally.codec.decode "\x7b\"INFO\":2,\"WARN\":0,\"INFO\":3\x7d").isOk = true := by
    cbv
  have refused : (Tally.codec.decode "[]").isOk = false := by cbv
  have marked : Level.ofLine? "FATAL".toList = some .fatal := by decide
  have last : lastText? changes = some "\x7b\"INFO\":2,\"WARN\":0,\"INFO\":3\x7d" := by
    simp only [changes, lastText?, List.filterMap_cons, List.filterMap_nil, Change.replaces?,
      loaded, refused, if_true]
    rfl
  have since : recordedLast changes = [.info, .fatal] := by
    have taken : changes.rtakeWhile (fun change => change.replaces?.isNone) = changes.drop 2 := by
      simp [changes, List.rtakeWhile, Change.replaces?, loaded, refused]
    rw [recordedLast, taken]
    simp only [changes, List.drop_succ_cons, List.drop_zero, List.filterMap_cons,
      List.filterMap_nil, Change.records?, marked]
  have counts (level : Level) : countAfter changes level =
      match level with
      | .info => 4
      | .fatal => 1
      | _ => 0 := by
    rw [countAfter, last, since, Option.map_some, Option.getD_some, countIn, writtenFor, written]
    cases level <;> decide
  have few (level : Level) : countAfter changes level < 2 ^ 64 := by
    rw [counts]
    cases level <;> decide
  obtain ⟨count, -, -, -, -, -, -, -, order⟩ := count_after_eq changes few
  refine ⟨few, fun level => (count level).trans (counts level), ?_⟩
  have others : ([.level .info, .load "[]"] ++ [.line "FATAL".toList] : List Change).Perm
      ([.line "FATAL".toList] ++ [.level .info, .load "[]"]) :=
    List.perm_append_comm
  refine order (changes.take 2) (changes.drop 2) [] [.line "FATAL".toList, .level .info, .load "[]"]
    ?_ others rfl
  simp [changes, Change.replaces?, refused]

end Intake.Log
