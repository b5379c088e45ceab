import Intake.Profile.Census
import Mathlib

/-!
Batches of profiles, counted one after the other with one meter. Each count of a census is the
number of profiles that meet a test of their own, so the counts of consecutive batches add up, in
whatever order their profiles come; the running total is the number of profiles so far.
-/

set_option autoImplicit false
set_option relaxedAutoImplicit false

namespace Intake.Profile

/-- What a census counts. -/
inductive Aspect where
  | total
  | validEmails
  | admins
  | active
  deriving DecidableEq, Repr

/-- Whether a profile is counted. -/
def Aspect.holds : Aspect → Profile → Bool
  | total, _ => true
  | validEmails, p => Mail.Rule.standard.accepts (p.email.getD "")
  | admins, p => p.role = some "admin"
  | active, p => p.status = some "active"

namespace Census

def count (c : Census) : Aspect → UInt64
  | .total => c.total
  | .validEmails => c.validEmails
  | .admins => c.admins
  | .active => c.active

theorem total_note (c : Census) (p : Profile) : (c.note p).total = c.total := rfl

theorem count_note (c : Census) (p : Profile) {aspect : Aspect} (h : aspect ≠ .total) :
    (c.note p).count aspect = c.count aspect + if aspect.holds p then 1 else 0 := by
  have admin : p.isAdmin = Aspect.admins.holds p := by
    simp only [isAdmin, adminRole, Aspect.holds]
    rw [Bool.eq_iff_iff, beq_iff_eq, decide_eq_true_iff]
  have active : p.isActive = Aspect.active.holds p := by
    simp only [isActive, activeStatus, Aspect.holds]
    rw [Bool.eq_iff_iff, beq_iff_eq, decide_eq_true_iff]
  cases aspect with
  | total => exact absurd rfl h
  | validEmails => rfl
  | admins => rw [← admin]; rfl
  | active => rw [← active]; rfl

theorem count_foldl_note (batch : List Profile) (c : Census) {aspect : Aspect}
    (h : aspect ≠ .total) :
    (batch.foldl note c).count aspect =
      c.count aspect + UInt64.ofNat (batch.countP aspect.holds) := by
  induction batch generalizing c with
  | nil => simp
  | cons p batch ih =>
    rw [List.foldl_cons, ih, count_note c p h, UInt64.add_assoc, List.countP_cons]
    by_cases met : aspect.holds p = true
    · simp only [met, if_true, UInt64.ofNat_add, UInt64.add_comm 1]
      rfl
    · simp [met]

theorem total_foldl_note (batch : List Profile) (c : Census) :
    (batch.foldl note c).total = c.total := by
  induction batch generalizing c with
  | nil => rfl
  | cons p batch ih => rw [List.foldl_cons, ih, total_note]

theorem total_ofBatch (batch : List Profile) :
    (ofBatch batch).total = UInt64.ofNat batch.length :=
  total_foldl_note batch _

/-- Each count is the number of profiles that meet its test. -/
theorem count_ofBatch (batch : List Profile) (aspect : Aspect) :
    (ofBatch batch).count aspect = UInt64.ofNat (batch.countP aspect.holds) := by
  by_cases h : aspect = .total
  · subst h
    have all : batch.countP Aspect.total.holds = batch.length :=
      List.countP_eq_length.2 fun _ _ => rfl
    rw [all]
    exact total_ofBatch batch
  · have start : count { total := batch.length.toUInt64 } aspect = 0 := by
      cases aspect with
      | total => exact absurd rfl h
      | validEmails | admins | active => rfl
    rw [ofBatch, count_foldl_note batch _ h, start, UInt64.zero_add]

theorem ext_count {c d : Census} (h : ∀ aspect, c.count aspect = d.count aspect) : c = d := by
  obtain ⟨total, validEmails, admins, active⟩ := c
  obtain ⟨total', validEmails', admins', active'⟩ := d
  have first : total = total' := h .total
  have second : validEmails = validEmails' := h .validEmails
  have third : admins = admins' := h .admins
  have fourth : active = active' := h .active
  rw [first, second, third, fourth]

theorem ofBatch_perm {batch other : List Profile} (h : other.Perm batch) :
    ofBatch other = ofBatch batch := by
  refine ext_count fun aspect => ?_
  rw [count_ofBatch, count_ofBatch, h.countP_eq]

end Census

/-- A batch as a meter takes it: profiles, or documents to read them from. -/
inductive Batch where
  | profiles (batch : List Profile)
  | documents (values : List Json.Value)
  deriving DecidableEq, Repr

namespace Batch

def toList : Batch → List Profile
  | profiles batch => batch
  | documents values => values.map ofValue

def size (batch : Batch) : Nat := batch.toList.length

/-- The event of a batch, from the running total with it. -/
def event (batch : Batch) (processed : Nat) : Event where
  severity := .debug
  message := "Processed user batch"
  details := [("batch", toString batch.size), ("processed", toString processed)]

end Batch

namespace Meter

/-- Takes a batch by the way in for its kind. -/
def take (meter : Meter) : Batch → Logged (Census × Meter)
  | .profiles batch => meter.process batch
  | .documents values => meter.processValues values

/-- Takes batches one after the other. -/
def takeEach (meter : Meter) : List Batch → List (Logged (Census × Meter))
  | [] => []
  | batch :: batches => meter.take batch :: (meter.take batch).value.2.takeEach batches

/-- The meter after a number of profiles. -/
def plus (meter : Meter) (n : Nat) : Meter := ⟨meter.processed + UInt64.ofNat n⟩

theorem plus_zero (meter : Meter) : meter.plus 0 = meter :=
  congrArg Meter.mk (UInt64.add_zero meter.processed)

theorem plus_plus (meter : Meter) (m n : Nat) : (meter.plus m).plus n = meter.plus (m + n) := by
  rw [plus, plus, plus, UInt64.ofNat_add, UInt64.add_assoc]

theorem take_eq (meter : Meter) (batch : Batch) :
    meter.take batch =
      ⟨(Census.ofBatch batch.toList, meter.plus batch.size),
        [batchEvent (UInt64.ofNat batch.size) (meter.plus batch.size).processed]⟩ := by
  have total : (Census.ofBatch batch.toList).total = UInt64.ofNat batch.size :=
    Census.total_ofBatch batch.toList
  have run : meter.take batch = meter.process batch.toList := by cases batch <;> rfl
  rw [run, process, advance, total, plus]

theorem toNat_processed_plus {n : Nat} (few : n < 2 ^ 64) :
    (plus {} n).processed.toNat = n := by
  rw [plus, UInt64.zero_add, UInt64.toNat_ofNat_of_lt' few]

/-- The event of a batch tells the plain numbers, as long as they are few enough. -/
theorem events_take_plus {n : Nat} {batch : Batch} (few : n + batch.size < 2 ^ 64) :
    ((plus {} n).take batch).events = [batch.event (n + batch.size)] := by
  have size : (UInt64.ofNat batch.size).toNat = batch.size :=
    UInt64.toNat_ofNat_of_lt' (Nat.lt_of_le_of_lt (Nat.le_add_left _ _) few)
  rw [take_eq, plus_plus, batchEvent, size, toNat_processed_plus few]
  rfl

/-- A batch is taken with the profiles of all batches before it on the meter. -/
theorem getElem?_takeEach (meter : Meter) (batches : List Batch) (i : Nat) :
    (meter.takeEach batches)[i]? =
      batches[i]?.map (meter.plus ((batches.take i).flatMap Batch.toList).length).take := by
  induction batches generalizing meter i with
  | nil => rfl
  | cons batch batches ih =>
    cases i with
    | zero => simp [takeEach, plus_zero]
    | succ i =>
      have next : (meter.take batch).value.2 = meter.plus batch.size := by rw [take_eq]
      rw [takeEach, List.getElem?_cons_succ, ih, next, plus_plus, List.getElem?_cons_succ,
        List.take_succ_cons, List.flatMap_cons, List.length_append]
      rfl

theorem length_takeEach (meter : Meter) (batches : List Batch) :
    (meter.takeEach batches).length = batches.length := by
  induction batches generalizing meter with
  | nil => rfl
  | cons batch batches ih => simp [takeEach, ih]

end Meter

private theorem countP_lt_of_mem {batches : List Batch} {batch : Batch} (h : batch ∈ batches)
    (few : (batches.flatMap Batch.toList).length < 2 ^ 64) (aspect : Aspect) :
    batch.toList.countP aspect.holds < 2 ^ 64 := by
  have most : batch.toList.countP aspect.holds ≤ batch.toList.length := List.countP_le_length
  obtain ⟨front, back, rfl⟩ := List.append_of_mem h
  simp only [List.flatMap_append, List.flatMap_cons, List.length_append] at few
  omega

private theorem toNat_count_ofBatch {batch : List Profile} {aspect : Aspect}
    (few : batch.countP aspect.holds < 2 ^ 64) :
    ((Census.ofBatch batch).count aspect).toNat = batch.countP aspect.holds := by
  rw [Census.count_ofBatch, UInt64.toNat_ofNat_of_lt' few]

/-- The counts of consecutive batches add up to those of the batch of all their profiles. -/
theorem sum_count_takeEach (batches : List Batch)
    (few : (batches.flatMap Batch.toList).length < 2 ^ 64) (meter : Meter) (aspect : Aspect) :
    ((meter.takeEach batches).map fun run => (run.value.1.count aspect).toNat).sum =
      (batches.flatMap Batch.toList).countP aspect.holds := by
  induction batches generalizing meter with
  | nil => rfl
  | cons batch batches ih =>
    have own := countP_lt_of_mem List.mem_cons_self few aspect
    have later : (batches.flatMap Batch.toList).length < 2 ^ 64 := by
      rw [List.flatMap_cons, List.length_append] at few
      omega
    rw [Meter.takeEach, List.map_cons, List.sum_cons, ih later, Meter.take_eq,
      toNat_count_ofBatch own, List.flatMap_cons, List.countP_append]

/-- What is no object has none of the things that are counted beside the total. -/
private theorem holds_ofValue {v : Json.Value} (h : v.object? = none) {aspect : Aspect}
    (counted : aspect ≠ .total) : aspect.holds (ofValue v) = false := by
  have unknown : ofValue v = {} := by
    cases v with
    | object members => cases h
    | null | bool | number | string | array => rfl
  rw [unknown]
  cases aspect with
  | total => exact absurd rfl counted
  | validEmails | admins | active => decide

private theorem ofBatch_insert_nonobject (front back : List Json.Value) {v : Json.Value}
    (h : v.object? = none) :
    let others := Census.ofBatch ((front ++ back).map ofValue)
    Census.ofBatch ((front ++ v :: back).map ofValue) =
      { others with total := others.total + 1 } := by
  intro others
  refine Census.ext_count fun aspect => ?_
  have number : others.count aspect =
      UInt64.ofNat ((front.map ofValue).countP aspect.holds +
        (back.map ofValue).countP aspect.holds) := by
    rw [Census.count_ofBatch, List.map_append, List.countP_append]
  rw [Census.count_ofBatch, List.map_append, List.map_cons, List.countP_append, List.countP_cons,
    ← Nat.add_assoc]
  by_cases counted : aspect = .total
  · subst counted
    have one : UInt64.ofNat (if Aspect.total.holds (ofValue v) then 1 else 0) = 1 := rfl
    rw [UInt64.ofNat_add, one, ← number]
    rfl
  · rw [holds_ofValue h counted, if_neg Bool.false_ne_true, Nat.add_zero, ← number]
    cases aspect with
    | total => exact absurd rfl counted
    | validEmails | admins | active => rfl

/-- Batches that a new meter takes one after the other. Each count of a batch is the number of its
profiles that meet a test, whatever their order and whatever the meter took before, and together
they are the counts of all profiles in one batch. What is no object counts for the total alone. The
running total after a batch, which its event tells, is the number of profiles up to there. -/
theorem takeEach_adds_up (batches : List Batch)
    (few : (batches.flatMap Batch.toList).length < 2 ^ 64) :
    let runs := Meter.takeEach {} batches
    runs.length = batches.length ∧
    (∀ (whole : Batch) (aspect : Aspect), whole.toList = batches.flatMap Batch.toList →
      (runs.map fun run => (run.value.1.count aspect).toNat).sum =
        ((Meter.take {} whole).value.1.count aspect).toNat) ∧
    (∀ i batch run, batches[i]? = some batch → runs[i]? = some run →
      (∀ aspect, (run.value.1.count aspect).toNat = batch.toList.countP aspect.holds ∧
        run.value.1.count aspect ≤ run.value.1.total) ∧
      (∀ (meter : Meter) (other : Batch), other.toList.Perm batch.toList →
        (meter.take other).value.1 = run.value.1) ∧
      let soFar := ((batches.take (i + 1)).flatMap Batch.toList).length
      run.value.2.processed.toNat = soFar ∧ run.events = [batch.event soFar]) ∧
    ∀ (meter : Meter) (front back : List Json.Value) (v : Json.Value), v.object? = none →
      let others := (meter.take (.documents (front ++ back))).value.1
      (meter.take (.documents (front ++ v :: back))).value.1 =
        { others with total := others.total + 1 } := by
  intro runs
  refine ⟨Meter.length_takeEach {} batches, ?_, ?_, ?_⟩
  · intro whole aspect together
    have most : whole.toList.countP aspect.holds ≤ whole.toList.length := List.countP_le_length
    rw [together] at most
    rw [sum_count_takeEach batches few, Meter.take_eq, together,
      toNat_count_ofBatch (Nat.lt_of_le_of_lt most few)]
  · intro i batch run hbatch hrun
    set before := ((batches.take i).flatMap Batch.toList).length
    have taken : run = (Meter.plus {} before).take batch := by
      rw [Meter.getElem?_takeEach, hbatch, Option.map_some, Option.some.injEq] at hrun
      exact hrun.symm
    have census : run.value.1 = Census.ofBatch batch.toList := by rw [taken, Meter.take_eq]
    have counted (aspect : Aspect) :
        (run.value.1.count aspect).toNat = batch.toList.countP aspect.holds := by
      rw [census, toNat_count_ofBatch (countP_lt_of_mem (List.mem_of_getElem? hbatch) few aspect)]
    refine ⟨fun aspect => ⟨counted aspect, ?_⟩, ?_, ?_⟩
    · have all : batch.toList.countP Aspect.total.holds = batch.toList.length :=
        List.countP_eq_length.2 fun _ _ => rfl
      have total : run.value.1.total.toNat = batch.toList.length := (counted .total).trans all
      rw [UInt64.le_iff_toNat_le, counted, total]
      exact List.countP_le_length
    · intro meter other reordered
      rw [census, Meter.take_eq, Census.ofBatch_perm reordered]
    · have upTo : ((batches.take (i + 1)).flatMap Batch.toList).length = before + batch.size := by
        rw [List.take_add_one, hbatch, List.flatMap_append, List.length_append]
        simp [before, Batch.size]
      have most : before + batch.size < 2 ^ 64 := by
        rw [← upTo]
        rw [← List.take_append_drop (i + 1) batches, List.flatMap_append,
          List.length_append] at few
        omega
      rw [upTo, taken, Meter.events_take_plus most, Meter.take_eq, Meter.plus_plus]
      exact ⟨Meter.toNat_processed_plus most, rfl⟩
  · intro meter front back v h
    rw [Meter.take_eq, Meter.take_eq]
    exact ofBatch_insert_nonobject front back h

/-- Three batches: documents of which one is no object, none, and one profile. -/
theorem takeEach_adds_up_mixed :
    let batches : List Batch :=
      [.documents [.string "x",
          .object (.ofEntries [("email", .string "a@b.cd\n"), ("role", .string "Admin")])],
        .profiles [], .profiles [{ status := some "active" }]]
    (batches.flatMap Batch.toList).length < 2 ^ 64 ∧
      ((Meter.takeEach {} batches).map fun run => (run.value.1.count .validEmails).toNat).sum = 1 ∧
      ∀ run ∈ (Meter.takeEach {} batches)[2]?, run.events =
        [⟨.debug, "Processed user batch", [("batch", "1"), ("processed", "3")]⟩] := by
  intro batches
  have few : (batches.flatMap Batch.toList).length < 2 ^ 64 := by decide
  obtain ⟨-, sums, each, -⟩ := takeEach_adds_up batches few
  refine ⟨few, ?_, ?_⟩
  · rw [sums (.profiles (batches.flatMap Batch.toList)) .validEmails rfl]
    decide
  · intro run third
    exact (each 2 _ run rfl third).2.2.2.trans (by decide)

end Intake.Profile
