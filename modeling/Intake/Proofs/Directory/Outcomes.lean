import Intake.Proofs.Directory.Sendable
import Intake.Proofs.Json.Spelling

/-!
A session with a service, whatever becomes of its requests: which requests are sent, and what each
call makes of the outcome of its own.
-/

set_option autoImplicit false
set_option relaxedAutoImplicit false

namespace Intake.Directory

/-- What becomes of a request: it fails on the way, or is answered with a text. -/
inductive Outcome where
  | failed (reason : String)
  | answered (status : UInt16) (body : String)

def Outcome.delivery : Outcome → Delivery
  | .failed reason => .failed reason
  | .answered status body => .answered status (.complete (Text.Utf8.encode body))

/-- A service that keeps the requests it receives; `outcomes` says what becomes of each of them, by
how many came before. -/
def serve (outcomes : Nat → Outcome) (request : Request) : StateM (List Request) Delivery :=
  fun received => ((outcomes received.length).delivery, received ++ [request])

/-- What a call gives for the outcome of its request. -/
inductive Call.Gives : Call → Outcome → Reply → Prop
  | lost {id : UInt64} {reason : String} :
    Gives (.getUser id) (.failed reason) (.found (.error (.network reason)))
  | absent {id : UInt64} {body : String} :
    Gives (.getUser id) (.answered 404 body) (.found (.ok none))
  | found {id : UInt64} {status : UInt16} {body : String} {user : User}
    (success : 200 ≤ status.toNat ∧ status.toNat < 300)
    (decoded : User.codec.decode body = .ok user) :
    Gives (.getUser id) (.answered status body) (.found (.ok (some user)))
  | garbled {id : UInt64} {status : UInt16} {body : String} {failure : Json.Failure}
    (success : 200 ≤ status.toNat ∧ status.toNat < 300)
    (decoded : User.codec.decode body = .error failure) :
    Gives (.getUser id) (.answered status body) (.found (.error (.answer notDecodable)))
  | denied {id : UInt64} {status : UInt16} {body : String} (present : status ≠ 404)
    (failure : ¬ (200 ≤ status.toNat ∧ status.toNat < 300)) :
    Gives (.getUser id) (.answered status body) (.found (.error (.status status body)))
  | refused {data : Json.Object} {outcome : Outcome} {fault : Signup.Fault}
    (checked : Signup.check data = .error fault) :
    Gives (.createUser data) outcome (.created (.error (.refused fault)))
  | uncreatedLost {data : Json.Object} {reason : String} (checked : Signup.check data = .ok ()) :
    Gives (.createUser data) (.failed reason) (.created (.error (.network reason)))
  | created {data : Json.Object} {status : UInt16} {body : String}
    (checked : Signup.check data = .ok ()) (success : 200 ≤ status.toNat ∧ status.toNat < 300) :
    Gives (.createUser data) (.answered status body) (.created (.ok true))
  | uncreatedDenied {data : Json.Object} {status : UInt16} {body : String}
    (checked : Signup.check data = .ok ())
    (failure : ¬ (200 ≤ status.toNat ∧ status.toNat < 300)) :
    Gives (.createUser data) (.answered status body) (.created (.error (.status status body)))

namespace Call

/-- The requests of calls, in their order. -/
def requests (access : Access) (calls : List Call) : List Request :=
  calls.filterMap (request? access)

@[simp]
theorem requests_nil (access : Access) : requests access [] = [] := rfl

theorem requests_cons (access : Access) (call : Call) (calls : List Call) :
    requests access (call :: calls) = (call.request? access).toList ++ requests access calls := by
  cases sent : call.request? access <;> simp [requests, sent]

/-- The body of a request to create a user is the text of the data, which can be read from it. -/
theorem request?_body {access : Access} {data : Json.Object} {request : Request}
    (sent : (createUser data).request? access = some request) :
    (Json.Value.object data).Spelled request.body.toList ∧
      ((Json.Value.object data).depth ≤ Json.nestingLimit → (Json.Value.object data).Whole →
        Json.Value.parse request.body = .ok (.object data)) := by
  cases checked : Signup.check data with
  | error fault => exact absurd ((request?_refused checked).symm.trans sent) (by simp)
  | ok =>
    cases (request?_createUser checked).symm.trans sent
    refine ⟨Json.Value.spelled_iff.2 ?_, (Json.Value.object data).parse_text⟩
    rw [Remote.createRequest, Json.Value.text, String.toList_ofList]

theorem Gives.unique {call : Call} {outcome : Outcome} {first second : Reply}
    (h : call.Gives outcome first) (h' : call.Gives outcome second) : first = second := by
  cases h <;> cases h' <;> simp_all

theorem gives_getUser (id : UInt64) (outcome : Outcome) :
    (getUser id).Gives outcome (.found (Remote.foundUser outcome.delivery)) := by
  cases outcome with
  | failed reason => exact .lost
  | answered status body =>
    simp only [Outcome.delivery, Remote.foundUser, notFound, Body.user?_encode, Body.text_encode,
      isSuccess_iff]
    split_ifs with missing success
    · subst missing
      exact .absent
    · cases decoded : User.codec.decode body with
      | ok user => exact .found success decoded
      | error failure => exact .garbled success decoded
    · exact .denied missing success

theorem gives_createUser {data : Json.Object} (checked : Signup.check data = .ok ())
    (outcome : Outcome) :
    (createUser data).Gives outcome (.created (Remote.createdUser outcome.delivery)) := by
  cases outcome with
  | failed reason => exact .uncreatedLost checked
  | answered status body =>
    simp only [Outcome.delivery, Remote.createdUser, Body.text_encode, isSuccess_iff]
    split_ifs with success
    · exact .created checked success
    · exact .uncreatedDenied checked success

end Call

namespace Remote

variable {canSend : Request → Bool} {access : Access}

/-- One call: its request is added to those received, and it gives what its outcome says. -/
theorem run_ask (usable : access.UsableBy canSend) (outcomes : Nat → Outcome) (call : Call)
    (received : List Request) :
    ∃ reply, call.Gives (outcomes received.length) reply ∧
      ((directoryOver ⟨canSend, serve outcomes⟩ access).ask call).run received =
        (⟨reply, call.events access⟩, received ++ (call.request? access).toList) := by
  rcases call.request?_cases access with
    ⟨id, rfl, sent⟩ | ⟨data, rfl, checked, sent⟩ | ⟨data, fault, rfl, checked, unsent⟩
  · refine ⟨_, Call.gives_getUser id _, ?_⟩
    rw [ask_getUser usable]
    rfl
  · refine ⟨_, Call.gives_createUser checked _, ?_⟩
    rw [ask_createUser usable checked, sent, Call.events, checked]
    rfl
  · refine ⟨_, .refused checked, ?_⟩
    rw [ask_refused checked, unsent, Call.events, checked, Option.toList_none, List.append_nil]
    rfl

/-- A session that starts when some requests have been received. -/
theorem run_session_from (usable : access.UsableBy canSend) (outcomes : Nat → Outcome)
    (calls : List Call) (received : List Request) :
    ∃ replies : List (Logged Reply),
      ((directoryOver ⟨canSend, serve outcomes⟩ access).session calls).run received =
        (replies, received ++ Call.requests access calls) ∧
      replies.map (·.events) = calls.map (Call.events access) ∧
      ∀ i, (h : i < calls.length) → ∃ reply, replies[i]?.map (·.value) = some reply ∧
        calls[i].Gives (outcomes (received ++ Call.requests access (calls.take i)).length)
          reply := by
  -- What becomes of a request depends on how many came before, so these stay general.
  induction calls generalizing received with
  | nil => exact ⟨[], by simp only [Call.requests_nil, List.append_nil]; rfl, rfl, by simp⟩
  | cons call calls ih =>
    obtain ⟨reply, gives, asked⟩ := run_ask usable outcomes call received
    obtain ⟨replies, rest, events, given⟩ := ih (received ++ (call.request? access).toList)
    refine ⟨⟨reply, call.events access⟩ :: replies, ?_, ?_, fun i h => ?_⟩
    · rw [session, List.mapM_cons, StateT.run_bind, asked, Call.requests_cons, ← List.append_assoc]
      exact congrArg (fun result => (_ :: result.1, result.2)) rest
    · rw [List.map_cons, List.map_cons, events]
    · cases i with
      | zero => exact ⟨reply, rfl, by simpa using gives⟩
      | succ i =>
        obtain ⟨later, valued, laterGives⟩ := given i (by simpa using h)
        refine ⟨later, valued, ?_⟩
        rwa [List.append_assoc, ← Call.requests_cons] at laterGives

/-- A session with a service, whatever becomes of the requests. They are those of the calls, in the
order of the calls: one for each call but the refused ones, which have none. A request to create a
user has the data in its body, spelled as a document. A call's events come with it, and its reply is
what the outcome of its own request gives. -/
theorem run_session (usable : access.UsableBy canSend) (outcomes : Nat → Outcome)
    (calls : List Call) :
    ∃ replies : List (Logged Reply),
      ((directoryOver ⟨canSend, serve outcomes⟩ access).session calls).run [] =
        (replies, calls.filterMap (Call.request? access)) ∧
      (∀ data request, (Call.createUser data).request? access = some request →
        (Json.Value.object data).Spelled request.body.toList ∧
          ((Json.Value.object data).depth ≤ Json.nestingLimit → (Json.Value.object data).Whole →
            Json.Value.parse request.body = .ok (.object data))) ∧
      replies.map (·.events) = calls.map (Call.events access) ∧
      ∀ i, (h : i < calls.length) → ∀ reply,
        replies[i]?.map (·.value) = some reply ↔
          calls[i].Gives (outcomes ((calls.take i).filterMap (Call.request? access)).length)
            reply := by
  obtain ⟨replies, run, events, given⟩ := run_session_from usable outcomes calls []
  refine ⟨replies, run, fun _ _ => Call.request?_body, events, fun i h reply => ?_⟩
  obtain ⟨actual, valued, gives⟩ := given i h
  constructor
  · intro replied
    obtain rfl : actual = reply := Option.some.inj (valued.symm.trans replied)
    exact gives
  · intro replyGives
    rw [valued, gives.unique replyGives]

/-- A user who is missing, data that is not sent, a user who is created, and a request that is lost:
the third call takes the second outcome. -/
theorem run_session_lost :
    let access : Access := { baseUrl := "HTTP://localhost:8080/api//", apiKey := "key" }
    let outcomes : Nat → Outcome
      | 0 => .answered 404 "gone"
      | 1 => .answered 201 ""
      | _ => .failed "closed"
    let data : Json.Object :=
      .ofEntries
        [("name", .string "A \"B\""), ("email", .string "a@b.co"), ("password", .array [.null])]
    let calls : List Call :=
      [.getUser 7, .createUser .empty, .createUser data, .getUser 0xFFFFFFFFFFFFFFFF]
    let created : Request :=
      { method := .post
        url := "HTTP://localhost:8080/api/users"
        authorization := "Bearer key"
        contentType := some "application/json"
        body := "\x7b\"email\":\"a@b.co\",\"name\":\"A \\\"B\\\"\",\"password\":[null]\x7d" }
    let requests : List Request :=
      [⟨.get, "HTTP://localhost:8080/api/users/7", "Bearer key", none, ""⟩, created,
        ⟨.get, "HTTP://localhost:8080/api/users/18446744073709551615", "Bearer key", none, ""⟩]
    access.UsableBy Request.isSendable ∧
      ∃ replies : List (Logged Reply),
        ((directoryOver ⟨Request.isSendable, serve outcomes⟩ access).session calls).run [] =
          (replies, requests) ∧
        Json.Value.parse created.body = .ok (.object data) ∧
        replies[1]?.map (·.value) = some (.created (.error (.refused (.missing "name")))) ∧
        replies[2]?.map (·.value) = some (.created (.ok true)) ∧
        replies[3]?.map (·.value) = some (.found (.error (.network "closed"))) := by
  intro access outcomes data calls created requests
  have usable : access.UsableBy Request.isSendable :=
    Access.usableBy_isSendable (by decide) (by decide)
  obtain ⟨replies, run, bodies, _, given⟩ := run_session usable outcomes calls
  have refused : Signup.check .empty = .error (.missing "name") := by decide
  have valid : Signup.check data = .ok () := by decide
  have body : (Call.createUser data).request? access = some created := by decide
  have sent : calls.filterMap (Call.request? access) = requests := by decide
  have before : ((calls.take 3).filterMap (Call.request? access)).length = 2 := by decide
  refine ⟨usable, replies, sent ▸ run, (bodies data created body).2 (by decide) (by decide),
    (given 1 (by decide) _).2 (.refused refused),
    (given 2 (by decide) _).2 (.created valid (by decide)), (given 3 (by decide) _).2 ?_⟩
  rw [before]
  exact .lost

end Remote

end Intake.Directory
