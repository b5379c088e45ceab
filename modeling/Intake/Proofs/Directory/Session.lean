import Intake.Directory.Remote
import Intake.Directory.Synthetic
import Intake.Proofs.Text.Encoding

/-!
Sessions: calls to a directory, one after another. Behind a service each call but a refused one is
one request, and what it gives depends on the delivery alone.
-/

set_option autoImplicit false
set_option relaxedAutoImplicit false

namespace Intake

namespace Directory

/-- A call to a directory. -/
inductive Call where
  | getUser (id : UInt64)
  | createUser (data : Json.Object)

/-- What a call gives. -/
inductive Reply where
  | found (user : Except Fault (Option User))
  | created (done : Except Fault Bool)

section Asking

variable {m : Type → Type} [Monad m]

def ask (directory : Directory m) : Call → m (Logged Reply)
  | .getUser id => do
    let run ← directory.getUser id
    return ⟨.found run.value, run.events⟩
  | .createUser data => do
    let run ← directory.createUser data
    return ⟨.created run.value, run.events⟩

/-- Calls to a directory, in their order. -/
def session (directory : Directory m) (calls : List Call) : m (List (Logged Reply)) :=
  calls.mapM directory.ask

end Asking

namespace Call

/-- The request of a call to the directory behind a service. Data that is refused is not sent. -/
def request? (access : Access) : Call → Option Request
  | .getUser id =>
    some
      { method := .get
        url := access.endpoint ("users/" ++ toString id.toNat)
        authorization := "Bearer " ++ access.apiKey }
  | .createUser data =>
    match Signup.check data with
    | .ok () =>
      some
        { method := .post
          url := access.endpoint "users"
          authorization := "Bearer " ++ access.apiKey
          contentType := some "application/json"
          body := (Json.Value.object data).text }
    | .error _ => none

/-- The events of a call to the directory behind a service. -/
def events (access : Access) : Call → List Event
  | .getUser id => [Remote.fetching (access.endpoint ("users/" ++ toString id.toNat))]
  | .createUser data =>
    match Signup.check data with
    | .ok () => [creating data]
    | .error _ => []

section Requests

variable {access : Access} {data : Json.Object}

theorem request?_getUser (access : Access) (id : UInt64) :
    (getUser id).request? access = some (Remote.getRequest access id) := rfl

theorem request?_createUser (checked : Signup.check data = .ok ()) :
    (createUser data).request? access = some (Remote.createRequest access data) := by
  rw [request?, checked]
  rfl

theorem request?_refused {fault : Signup.Fault} (checked : Signup.check data = .error fault) :
    (createUser data).request? access = none := by
  rw [request?, checked]

/-- The calls by their requests: to find a user, to create one, and none for refused data. -/
theorem request?_cases (access : Access) (call : Call) :
    (∃ id, call = .getUser id ∧ call.request? access = some (Remote.getRequest access id)) ∨
      (∃ data, call = .createUser data ∧ Signup.check data = .ok () ∧
        call.request? access = some (Remote.createRequest access data)) ∨
      ∃ data fault, call = .createUser data ∧ Signup.check data = .error fault ∧
        call.request? access = none := by
  cases call with
  | getUser id => exact .inl ⟨id, rfl, rfl⟩
  | createUser data =>
    cases checked : Signup.check data with
    | ok => exact .inr (.inl ⟨data, rfl, checked, request?_createUser checked⟩)
    | error fault => exact .inr (.inr ⟨data, fault, rfl, checked, request?_refused checked⟩)

end Requests

end Call

/-- Whether every request to a service can be sent, whatever the call. -/
def Access.UsableBy (access : Access) (canSend : Request → Bool) : Prop :=
  ∀ call request, Call.request? access call = some request → canSend request = true

namespace Remote

variable {m : Type → Type} [Monad m] {client : Client m} {access : Access}

theorem exchange_of_canSend {request : Request} (sendable : client.canSend request = true) :
    exchange client request = client.send request :=
  if_pos sendable

theorem ask_getUser [LawfulMonad m] (usable : access.UsableBy client.canSend) (id : UInt64) :
    (directoryOver client access).ask (.getUser id) =
      (fun delivery => ⟨.found (foundUser delivery), [fetching (access.userUrl id)]⟩) <$>
        client.send (getRequest access id) := by
  have sendable := usable _ _ (Call.request?_getUser access id)
  simp only [ask, directoryOver, getUser, exchange_of_canSend sendable, bind_assoc, pure_bind,
    map_eq_pure_bind]

theorem ask_createUser [LawfulMonad m] (usable : access.UsableBy client.canSend)
    {data : Json.Object} (checked : Signup.check data = .ok ()) :
    (directoryOver client access).ask (.createUser data) =
      (fun delivery => ⟨.created (createdUser delivery), [creating data]⟩) <$>
        client.send (createRequest access data) := by
  have sendable := usable _ _ (Call.request?_createUser checked)
  simp only [ask, directoryOver, createUser, checked, exchange_of_canSend sendable, bind_assoc,
    pure_bind, map_eq_pure_bind]

/-- A call for data that is refused sends nothing and says nothing. -/
theorem ask_refused [LawfulMonad m] {data : Json.Object} {fault : Signup.Fault}
    (checked : Signup.check data = .error fault) :
    (directoryOver client access).ask (.createUser data) =
      pure ⟨.created (.error (.refused fault)), []⟩ := by
  simp only [ask, directoryOver, createUser, checked, pure_bind]

end Remote

namespace Body

theorem user?_encode (text : String) :
    (complete (Text.Utf8.encode text)).user? = (User.codec.decode text).toOption := by
  simp only [user?, Text.Utf8.decodeWith_encode, String.ofList_toList]

/-- A byte that is no character, in a member that is no part of a user and in the name. -/
example :
    let front := "\x7b\"note\":\""
    let user := "\",\"id\":7,\"email\":\"e\",\"name\":\"n"
    let body (inNote inName : List UInt8) : Body :=
      complete (Text.Utf8.encode front ++ inNote ++ Text.Utf8.encode user ++ inName ++
        Text.Utf8.encode "\"\x7d")
    (body [0xFF] []).user?.isSome = true ∧ (body [] [0xFF]).user?.isSome = false := by
  decide +kernel

theorem text_encode (text : String) : (complete (Text.Utf8.encode text)).text = text := by
  simp only [Body.text, Text.Utf8.decodeLossy_encode, String.ofList_toList]

end Body

theorem isSuccess_iff {status : UInt16} :
    isSuccess status = true ↔ 200 ≤ status.toNat ∧ status.toNat < 300 := by
  simp [isSuccess]

end Directory

end Intake
