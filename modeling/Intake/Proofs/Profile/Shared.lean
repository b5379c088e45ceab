import Intake.Proofs.Profile.Batches

/-!
A meter that clients share. The call for a batch takes three steps, between which other clients take
theirs: the census, the addition to the running total, and the event. Whatever the order of the
steps, no addition is lost, every reading is a sum of additions, and each event tells the running
total right after the addition of its own call.
-/

set_option autoImplicit false
set_option relaxedAutoImplicit false

namespace Intake.Profile

/-- What a client asks of a meter. -/
inductive Call where
  | take (batch : Batch)
  | read

/-- A client: between calls, or inside the call for a batch. -/
inductive Client where
  | ready (calls : List Call)
  /-- The census is made; the running total is without the batch. -/
  | counted (batch : Batch) (census : Census) (calls : List Call)
  /-- The running total, which was `previous`, is with the batch; no event tells of it. -/
  | added (batch : Batch) (census : Census) (previous : UInt64) (calls : List Call)

/-- What a client does in a step. -/
inductive Act where
  | counts (batch : Batch)
  | adds (batch : Batch)
  /-- Logs an event and returns from the call. -/
  | returns (batch : Batch) (census : Census) (event : Event)
  | reads (processed : UInt64)

/-- The next step of a client, if it has any call left: what it does, and itself and the meter
after it. -/
def Client.next (meter : Meter) : Client → Option (Act × Client × Meter)
  | ready [] => none
  | ready (.read :: calls) => some (.reads meter.processed, ready calls, meter)
  | ready (.take batch :: calls) =>
    some (.counts batch, counted batch (Census.ofBatch batch.toList) calls, meter)
  | counted batch census calls =>
    let (previous, meter) := meter.advance census.total
    some (.adds batch, added batch census previous calls, meter)
  | added batch census previous calls =>
    let event := Meter.batchEvent census.total (previous + census.total)
    some (.returns batch census event, ready calls, meter)

/-- A meter, the clients that share it, and what they did, in the order of the steps. -/
structure Shared (ι : Type) where
  meter : Meter
  clients : ι → Client
  history : List (ι × Act)

namespace Shared

variable {ι : Type}

/-- A new meter and clients with all their calls to make. -/
def start (programs : ι → List Call) : Shared ι := ⟨{}, fun i => .ready (programs i), []⟩

section Steps

variable [DecidableEq ι]

/-- What is left by an act of a client. -/
def after (s : Shared ι) (i : ι) (act : Act) (client : Client) (meter : Meter) : Shared ι :=
  ⟨meter, Function.update s.clients i client, s.history ++ [(i, act)]⟩

/-- The step of a client: nothing if it has no call left. -/
def step (s : Shared ι) (i : ι) : Shared ι :=
  match (s.clients i).next s.meter with
  | none => s
  | some (act, client, meter) => s.after i act client meter

/-- Lets clients take steps in the order of a schedule. -/
def run (s : Shared ι) (schedule : List ι) : Shared ι := schedule.foldl step s

end Steps

/-! ### What happened -/

/-- The batches that were added, in the order of the additions. -/
def added (history : List (ι × Act)) : List (ι × Batch) :=
  history.filterMap fun
    | (i, .adds batch) => some (i, batch)
    | _ => none

/-- The events of the calls that returned, in the order of logging. -/
def logged (history : List (ι × Act)) : List (ι × Batch × Event) :=
  history.filterMap fun
    | (i, .returns batch _ event) => some (i, batch, event)
    | _ => none

/-- What a client read, in the order of reading. -/
def readings [DecidableEq ι] (i : ι) (history : List (ι × Act)) : List UInt64 :=
  history.filterMap fun
    | (j, .reads processed) => if j = i then some processed else none
    | _ => none

/-- The number of profiles in some batches. -/
def amount (batches : List (ι × Batch)) : Nat := (batches.map fun e => e.2.size).sum

/-- The event of each addition, which tells the running total right after it. -/
def due (before : Nat) : List (ι × Batch) → List (ι × Batch × Event)
  | [] => []
  | (i, batch) :: batches =>
    (i, batch, batch.event (before + batch.size)) :: due (before + batch.size) batches

/-- What belongs to one client. -/
def own {α : Type} [DecidableEq ι] (i : ι) (entries : List (ι × α)) : List (ι × α) :=
  entries.filter fun e => e.1 = i

end Shared

namespace Client

/-- The batches of some calls. -/
def batches (calls : List Call) : List Batch :=
  calls.filterMap fun
    | .take batch => some batch
    | .read => none

/-- The batches that a client has not added. -/
def upcoming : Client → List Batch
  | ready calls => batches calls
  | counted batch _ calls => batch :: batches calls
  | added _ _ _ calls => batches calls

/-- The event that a client has not logged for a batch it added. -/
def pending {ι : Type} (i : ι) : Client → List (ι × Batch × Event)
  | added batch census previous _ =>
    [(i, batch, Meter.batchEvent census.total (previous + census.total))]
  | _ => []

/-- The census that a client keeps is the one of its batch. -/
def Honest : Client → Prop
  | ready _ => True
  | counted batch census _ => census = Census.ofBatch batch.toList
  | added batch census _ _ => census = Census.ofBatch batch.toList

end Client

namespace Shared

variable {ι : Type}

theorem added_concat (history : List (ι × Act)) (i : ι) (act : Act) :
    added (history ++ [(i, act)]) = added history ++ added [(i, act)] :=
  List.filterMap_append

theorem logged_concat (history : List (ι × Act)) (i : ι) (act : Act) :
    logged (history ++ [(i, act)]) = logged history ++ logged [(i, act)] :=
  List.filterMap_append

theorem amount_concat (batches : List (ι × Batch)) (i : ι) (batch : Batch) :
    amount (batches ++ [(i, batch)]) = amount batches + batch.size := by
  simp [amount]

theorem due_concat (before : Nat) (batches : List (ι × Batch)) (i : ι) (batch : Batch) :
    due before (batches ++ [(i, batch)]) =
      due before batches ++ [(i, batch, batch.event (before + amount batches + batch.size))] := by
  induction batches generalizing before with
  | nil => simp [due, amount]
  | cons e batches ih => simp [due, ih, amount, Nat.add_assoc]

variable [DecidableEq ι]

theorem readings_concat (i : ι) (history : List (ι × Act)) (j : ι) (act : Act) :
    readings i (history ++ [(j, act)]) = readings i history ++ readings i [(j, act)] :=
  List.filterMap_append

theorem own_concat_self {α : Type} (i : ι) (entries : List (ι × α)) (a : α) :
    own i (entries ++ [(i, a)]) = own i entries ++ [(i, a)] := by
  simp [own]

theorem own_concat_of_ne {α : Type} {i j : ι} (h : j ≠ i) (entries : List (ι × α)) (a : α) :
    own i (entries ++ [(j, a)]) = own i entries := by
  simp [own, h]

/-- What holds after every step, whatever the schedule. -/
structure Sound (programs : ι → List Call) (s : Shared ι) : Prop where
  counter : s.meter.processed.toNat = amount (added s.history)
  honest : ∀ i, (s.clients i).Honest
  added : ∀ i, Client.batches (programs i) =
    (own i (Shared.added s.history)).map Prod.snd ++ (s.clients i).upcoming
  logged : ∀ i, own i (due 0 (Shared.added s.history)) =
    own i (Shared.logged s.history) ++ (s.clients i).pending i
  returned : ∀ i batch census event, (i, .returns batch census event) ∈ s.history →
    census = Census.ofBatch batch.toList
  read : ∀ before i processed after, s.history = before ++ (i, .reads processed) :: after →
    processed.toNat = amount (Shared.added before)
  passed : ∀ i, ∀ processed ∈ readings i s.history, processed ≤ s.meter.processed
  rising : ∀ i, (readings i s.history).Pairwise (· ≤ ·)

theorem sound_start (programs : ι → List Call) : Sound programs (start programs) where
  counter := rfl
  honest _ := trivial
  added _ := rfl
  logged _ := rfl
  returned _ _ _ _ h := absurd h List.not_mem_nil
  read before i processed after h := by simp [start] at h
  passed _ _ h := absurd h List.not_mem_nil
  rising _ := List.Pairwise.nil

theorem own_added_of_ne {i j : ι} (h : i ≠ j) (history : List (ι × Act)) (act : Act) :
    own j (added (history ++ [(i, act)])) = own j (added history) := by
  rw [added_concat]
  cases act with
  | adds batch => exact own_concat_of_ne h _ batch
  | counts | returns | reads => exact congrArg (own j) (List.append_nil _)

theorem own_due_of_ne {i j : ι} (h : i ≠ j) (history : List (ι × Act)) (act : Act) :
    own j (due 0 (added (history ++ [(i, act)]))) = own j (due 0 (added history)) := by
  rw [added_concat]
  cases act with
  | adds batch =>
    have one : added [(i, Act.adds batch)] = [(i, batch)] := rfl
    rw [one, due_concat, own_concat_of_ne h]
  | counts | returns | reads => exact congrArg (fun l => own j (due 0 l)) (List.append_nil _)

theorem own_logged_of_ne {i j : ι} (h : i ≠ j) (history : List (ι × Act)) (act : Act) :
    own j (logged (history ++ [(i, act)])) = own j (logged history) := by
  rw [logged_concat]
  cases act with
  | returns batch census event => exact own_concat_of_ne h _ (batch, event)
  | counts | adds | reads => exact congrArg (own j) (List.append_nil _)

section Steps

variable {programs : ι → List Call} {s : Shared ι} {i : ι} {act : Act}

omit [DecidableEq ι] in
theorem amount_added_le (history : List (ι × Act)) (i : ι) (act : Act) :
    amount (added history) ≤ amount (added (history ++ [(i, act)])) := by
  rw [added_concat, amount, amount, List.map_append, List.sum_append]
  exact Nat.le_add_right _ _

theorem Sound.read_concat (h : Sound programs s)
    (fresh : ∀ processed, act = .reads processed → processed = s.meter.processed)
    {before after : List (ι × Act)} {j : ι} {processed : UInt64}
    (split : s.history ++ [(i, act)] = before ++ (j, .reads processed) :: after) :
    processed.toNat = amount (Shared.added before) := by
  -- The reading is this act, or it stands in the history before it.
  rcases List.eq_nil_or_concat after with rfl | ⟨front, last, rfl⟩
  · obtain ⟨rfl, eq⟩ := List.append_inj' split rfl
    cases eq
    rw [fresh processed rfl, h.counter]
  · rw [List.concat_eq_append, ← List.cons_append, ← List.append_assoc] at split
    exact h.read before j processed front (List.append_inj' split rfl).1

theorem eq_reads_of_mem {j : ι} {processed : UInt64}
    (mem : processed ∈ readings j [(i, act)]) : act = .reads processed := by
  cases act with
  | reads total =>
    by_cases same : i = j
    · simpa [readings, same, eq_comm] using mem
    · simp [readings, same] at mem
  | counts | adds | returns => cases mem

theorem Sound.rising_concat (h : Sound programs s)
    (fresh : ∀ processed, act = .reads processed → processed = s.meter.processed) (j : ι) :
    (readings j (s.history ++ [(i, act)])).Pairwise (· ≤ ·) := by
  have single : (readings j [(i, act)]).Pairwise (· ≤ ·) :=
    List.pairwise_filterMap.2 (List.pairwise_singleton _ _)
  rw [readings_concat, List.pairwise_append]
  refine ⟨h.rising j, single, fun a earlier b last => ?_⟩
  rw [fresh b (eq_reads_of_mem last)]
  exact h.passed j a earlier

/-- An act leaves everything sound, if it does so for the client itself. -/
theorem Sound.after (h : Sound programs s) {client : Client} {meter : Meter}
    (counter : meter.processed.toNat = amount (Shared.added (s.history ++ [(i, act)])))
    (honest : client.Honest)
    (added : Client.batches (programs i) =
      (own i (Shared.added (s.history ++ [(i, act)]))).map Prod.snd ++ client.upcoming)
    (logged : own i (due 0 (Shared.added (s.history ++ [(i, act)]))) =
      own i (Shared.logged (s.history ++ [(i, act)])) ++ client.pending i)
    (returned : ∀ batch census event, act = .returns batch census event →
      census = Census.ofBatch batch.toList)
    (fresh : ∀ processed, act = .reads processed → processed = s.meter.processed) :
    Sound programs (s.after i act client meter) where
  counter := counter
  honest := (Function.forall_update_iff s.clients fun _ c => c.Honest).2
    ⟨honest, fun j _ => h.honest j⟩
  added := by
    refine (Function.forall_update_iff s.clients fun j c => Client.batches (programs j) =
      (own j (Shared.added (s.history ++ [(i, act)]))).map Prod.snd ++ c.upcoming).2
      ⟨added, fun j other => ?_⟩
    rw [own_added_of_ne other.symm]
    exact h.added j
  logged := by
    refine (Function.forall_update_iff s.clients fun j c =>
      own j (due 0 (Shared.added (s.history ++ [(i, act)]))) =
        own j (Shared.logged (s.history ++ [(i, act)])) ++ c.pending j).2
      ⟨logged, fun j other => ?_⟩
    rw [own_due_of_ne other.symm, own_logged_of_ne other.symm]
    exact h.logged j
  returned j batch census event mem := by
    rcases List.mem_append.1 mem with earlier | last
    · exact h.returned j batch census event earlier
    · cases List.mem_singleton.1 last
      exact returned batch census event rfl
  read _ _ _ _ split := h.read_concat fresh split
  passed j processed mem := by
    have grows : s.meter.processed ≤ meter.processed := by
      rw [UInt64.le_iff_toNat_le, counter, h.counter]
      exact amount_added_le s.history i act
    have earlier : processed ≤ s.meter.processed := by
      rcases List.mem_append.1 (readings_concat j s.history i act ▸ mem) with earlier | last
      · exact h.passed j processed earlier
      · rw [fresh processed (eq_reads_of_mem last)]
        exact UInt64.le_refl _
    exact UInt64.le_trans earlier grows
  rising := h.rising_concat fresh

variable {batch : Batch} {census : Census} {previous : UInt64} {calls : List Call}

/-- An act that adds nothing leaves everything sound, if the client logs what is pending or keeps it
so, and has the same batches to come. -/
theorem Sound.quiet (h : Sound programs s) (quiet : ∀ batch, act ≠ .adds batch) {client : Client}
    (honest : client.Honest) (upcoming : client.upcoming = (s.clients i).upcoming)
    (told : own i (Shared.logged [(i, act)]) ++ client.pending i = (s.clients i).pending i)
    (returned : ∀ batch census event, act = .returns batch census event →
      census = Census.ofBatch batch.toList)
    (fresh : ∀ processed, act = .reads processed → processed = s.meter.processed) :
    Sound programs (s.after i act client s.meter) := by
  have same : Shared.added (s.history ++ [(i, act)]) = Shared.added s.history := by
    rw [added_concat]
    cases act with
    | adds batch => exact absurd rfl (quiet batch)
    | counts | returns | reads => exact List.append_nil _
  have logged : own i (Shared.logged (s.history ++ [(i, act)])) =
      own i (Shared.logged s.history) ++ own i (Shared.logged [(i, act)]) := by
    rw [logged_concat, own, List.filter_append]
    rfl
  refine h.after ?_ honest ?_ ?_ returned fresh
  · rw [same, h.counter]
  · rw [same, h.added, upcoming]
  · rw [same, logged, h.logged, ← told, List.append_assoc]

theorem Sound.reads (h : Sound programs s) (here : s.clients i = .ready (.read :: calls)) :
    Sound programs (s.after i (.reads s.meter.processed) (.ready calls) s.meter) := by
  refine h.quiet (by nofun) trivial ?_ ?_ nofun ?_
  · rw [here]
    rfl
  · rw [here]
    rfl
  · intro processed eq
    cases eq
    rfl

theorem Sound.counts (h : Sound programs s) (here : s.clients i = .ready (.take batch :: calls)) :
    Sound programs
      (s.after i (.counts batch) (.counted batch (Census.ofBatch batch.toList) calls) s.meter) := by
  refine h.quiet (by nofun) rfl ?_ ?_ nofun nofun
  · rw [here]
    rfl
  · rw [here]
    rfl

theorem Sound.returns (h : Sound programs s)
    (here : s.clients i = .added batch census previous calls) :
    Sound programs
      (s.after i (.returns batch census (Meter.batchEvent census.total (previous + census.total)))
        (.ready calls) s.meter) := by
  have honest := h.honest i
  rw [here] at honest
  refine h.quiet (by nofun) trivial ?_ ?_ ?_ nofun
  · rw [here]
    rfl
  · rw [here]
    exact (List.append_nil _).trans (List.filter_cons_of_pos (decide_eq_true rfl))
  · intro other kept told eq
    cases eq
    exact honest

/-- The one act that changes the running total; it must not wrap. -/
theorem Sound.adds (h : Sound programs s) (here : s.clients i = .counted batch census calls)
    (few : amount (Shared.added (s.history ++ [(i, .adds batch)])) < 2 ^ 64) :
    Sound programs
      (s.after i (.adds batch) (.added batch census s.meter.processed calls)
        (s.meter.advance census.total).2) := by
  have more : Shared.added (s.history ++ [(i, .adds batch)]) =
      Shared.added s.history ++ [(i, batch)] :=
    added_concat ..
  have silent : Shared.logged (s.history ++ [(i, .adds batch)]) = Shared.logged s.history :=
    (logged_concat ..).trans (List.append_nil _)
  have honest := h.honest i
  have added := h.added i
  have logged := h.logged i
  rw [here] at honest added logged
  rw [more, amount_concat] at few
  have size : census.total.toNat = batch.size := by
    rw [show census = Census.ofBatch batch.toList from honest, Census.total_ofBatch]
    exact UInt64.toNat_ofNat_of_lt' (Nat.lt_of_le_of_lt (Nat.le_add_left _ _) few)
  have counter : (s.meter.processed + census.total).toNat =
      amount (Shared.added s.history) + batch.size := by
    rw [UInt64.toNat_add, h.counter, size, Nat.mod_eq_of_lt few]
  refine h.after ?_ honest ?_ ?_ nofun nofun
  · rw [more, amount_concat]
    exact counter
  · rw [more, own_concat_self, added]
    simp [Client.upcoming]
  · rw [more, silent, due_concat, own_concat_self, logged]
    have event : Meter.batchEvent census.total (s.meter.processed + census.total) =
        batch.event (amount (Shared.added s.history) + batch.size) := by
      rw [Meter.batchEvent, size, counter]
      rfl
    simp only [Client.pending, event, List.append_nil, Nat.zero_add]

theorem Sound.step (h : Sound programs s) (i : ι)
    (few : amount (Shared.added (s.step i).history) < 2 ^ 64) : Sound programs (s.step i) := by
  rw [Shared.step] at few ⊢
  cases here : s.clients i with
  | ready calls =>
    match calls with
    | [] => exact h
    | .read :: calls => exact h.reads here
    | .take batch :: calls => exact h.counts here
  | counted batch census calls =>
    rw [here] at few
    exact h.adds here few
  | added batch census previous calls => exact h.returns here

theorem run_concat (s : Shared ι) (schedule : List ι) (i : ι) :
    s.run (schedule ++ [i]) = (s.run schedule).step i :=
  List.foldl_concat ..

theorem amount_added_step_le (s : Shared ι) (i : ι) :
    amount (Shared.added s.history) ≤ amount (Shared.added (s.step i).history) := by
  rw [Shared.step]
  cases (s.clients i).next s.meter with
  | none => exact Nat.le_refl _
  | some result => exact amount_added_le ..

theorem sound_run (programs : ι → List Call) (schedule : List ι)
    (few : amount (Shared.added ((start programs).run schedule).history) < 2 ^ 64) :
    Sound programs ((start programs).run schedule) := by
  induction schedule using List.reverseRecOn with
  | nil => exact sound_start programs
  | append_singleton schedule i ih =>
    rw [run_concat] at few ⊢
    exact (ih (Nat.lt_of_le_of_lt (amount_added_step_le _ i) few)).step i few

theorem step_of_next {client : Client} {meter : Meter}
    (next : (s.clients i).next s.meter = some (act, client, meter)) :
    s.step i = s.after i act client meter := by
  rw [Shared.step, next]

theorem step_after {client next : Client} {meter meter' : Meter} {act' : Act}
    (move : client.next meter = some (act', next, meter')) :
    (s.after i act client meter).step i = (s.after i act client meter).after i act' next meter' :=
  step_of_next <| by
    rw [show (s.after i act client meter).clients i = client from Function.update_self ..]
    exact move

/-- The three steps of a call, when no other client steps in between, are the call as a whole. -/
theorem run_alone (here : s.clients i = .ready (.take batch :: calls)) :
    let whole := s.meter.take batch
    ∃ event, whole.events = [event] ∧
      s.run [i, i, i] =
        ⟨whole.value.2, Function.update s.clients i (.ready calls),
          s.history ++ [(i, .counts batch), (i, .adds batch),
            (i, .returns batch whole.value.1 event)]⟩ := by
  set census := Census.ofBatch batch.toList
  set event := Meter.batchEvent census.total (s.meter.processed + census.total)
  have whole : s.meter.take batch = ⟨(census, (s.meter.advance census.total).2), [event]⟩ := by
    cases batch <;> rfl
  have first : s.step i = s.after i (.counts batch) (.counted batch census calls) s.meter :=
    step_of_next (by rw [here]; rfl)
  rw [whole]
  refine ⟨event, rfl, ?_⟩
  rw [run, List.foldl_cons, List.foldl_cons, List.foldl_cons, List.foldl_nil, first,
    step_after rfl, step_after rfl]
  simp only [Shared.after, Function.update_idem, List.append_assoc, List.cons_append,
    List.nil_append]
  rfl

end Steps

/-! ### Events of different calls -/

/-- Events for batches that are not empty tell different running totals. -/
def Differ (e f : ι × Batch × Event) : Prop :=
  e.2.1.size ≠ 0 → f.2.1.size ≠ 0 →
    e.2.2.details.lookup "processed" ≠ f.2.2.details.lookup "processed"

omit [DecidableEq ι] in
theorem Differ.symm {e f : ι × Batch × Event} (h : Differ e f) : Differ f e :=
  fun hf he eq => h he hf eq.symm

theorem lookup_event_ne {m n : Nat} (h : m ≠ n) (batch other : Batch) :
    (batch.event m).details.lookup "processed" ≠ (other.event n).details.lookup "processed" := by
  intro eq
  have text : toString m = toString n := Option.some.inj eq
  have digits := congrArg (fun text => Nat.ofDigitChars 10 text.toList 0) text
  simp only [Nat.toString_eq_ofList_toDigits, String.toList_ofList,
    Nat.ofDigitChars_ten_toDigits] at digits
  exact h digits

omit [DecidableEq ι] in
theorem exists_of_mem_due {before : Nat} {batches : List (ι × Batch)} {e : ι × Batch × Event}
    (mem : e ∈ due before batches) :
    ∃ n, e.2.2 = e.2.1.event n ∧ before + e.2.1.size ≤ n := by
  induction batches generalizing before with
  | nil => cases mem
  | cons first batches ih =>
    rcases List.mem_cons.1 mem with rfl | later
    · exact ⟨_, rfl, Nat.le_refl _⟩
    · obtain ⟨n, event, most⟩ := ih later
      exact ⟨n, event, by omega⟩

omit [DecidableEq ι] in
theorem pairwise_differ_due (before : Nat) (batches : List (ι × Batch)) :
    (due before batches).Pairwise Differ := by
  induction batches generalizing before with
  | nil => exact List.Pairwise.nil
  | cons first batches ih =>
    refine List.Pairwise.cons (fun e later _ filled => ?_) (ih _)
    obtain ⟨n, event, most⟩ := exists_of_mem_due later
    rw [event]
    exact lookup_event_ne (by omega) _ _

/-- Every event that is logged is due, and none is logged more often. -/
theorem Sound.subperm {programs : ι → List Call} {s : Shared ι} (h : Sound programs s) :
    (Shared.logged s.history).Subperm (due 0 (Shared.added s.history)) := by
  refine List.subperm_ext_iff.2 fun e _ => ?_
  -- An event is counted among those of its own client, where the order is known.
  have count_own (entries : List (ι × Batch × Event)) :
      (own e.1 entries).count e = entries.count e :=
    List.count_filter (decide_eq_true rfl)
  rw [← count_own (due 0 _), h.logged, List.count_append, count_own]
  exact Nat.le_add_right _ _

theorem Sound.pairwise_differ {programs : ι → List Call} {s : Shared ι} (h : Sound programs s) :
    (Shared.logged s.history).Pairwise Differ := by
  obtain ⟨entries, perm, sublist⟩ := h.subperm
  exact (perm.pairwise_iff Differ.symm).1 ((pairwise_differ_due 0 _).sublist sublist)

/-- Clients that share a meter, after any schedule. The running total is that of the batches that
were added, each client's in the order of its calls; every reading is the total of what was added
before it, and those of one client rise. Every census is that of the batch taken alone. The events
of a client are those of its additions in their order, each with the running total right after the
addition, up to an event that is still to be logged; no two events of batches with profiles tell the
same running total. -/
theorem run_loses_nothing (programs : ι → List Call) (schedule : List ι)
    (few : amount (Shared.added ((start programs).run schedule).history) < 2 ^ 64) :
    let s := (start programs).run schedule
    s.meter.processed.toNat = amount (Shared.added s.history) ∧
    (∀ i, Client.batches (programs i) =
      (own i (Shared.added s.history)).map Prod.snd ++ (s.clients i).upcoming) ∧
    (∀ before i processed after, s.history = before ++ (i, .reads processed) :: after →
      processed.toNat = amount (Shared.added before)) ∧
    (∀ i, (readings i s.history).Pairwise (· ≤ ·)) ∧
    (∀ i batch census event, (i, .returns batch census event) ∈ s.history →
      ∀ meter : Meter, (meter.take batch).value.1 = census) ∧
    (∀ i, own i (due 0 (Shared.added s.history)) =
      own i (Shared.logged s.history) ++ (s.clients i).pending i) ∧
    (Shared.logged s.history).Pairwise Differ := by
  intro s
  have sound : Sound programs s := sound_run programs schedule few
  refine ⟨sound.counter, sound.added, sound.read, sound.rising, ?_, sound.logged,
    sound.pairwise_differ⟩
  intro i batch census event mem meter
  rw [Meter.take_eq, sound.returned i batch census event mem]

/-- Two clients, of which the second to add is the first to log. -/
theorem run_loses_nothing_crossed :
    let programs : Bool → List Call
      | false => [.take (.profiles [{}])]
      | true => [.take (.documents [.null, .object .empty]), .read]
    let s := (start programs).run [false, true, true, false, false, true, true]
    amount (Shared.added s.history) < 2 ^ 64 ∧
      s.meter.processed.toNat = 3 ∧
      own true (due 0 (Shared.added s.history)) = own true (Shared.logged s.history) ∧
      (Shared.logged s.history).map (fun e => e.2.2.details.lookup "processed") =
        [some "3", some "2"] ∧
      readings true s.history = [3] := by
  intro programs s
  have few : amount (Shared.added s.history) < 2 ^ 64 := by decide
  obtain ⟨counter, -, -, -, -, told, -⟩ := run_loses_nothing programs _ few
  refine ⟨few, counter.trans (by decide), (told true).trans (List.append_nil _), by decide,
    by decide⟩

end Shared

end Intake.Profile
