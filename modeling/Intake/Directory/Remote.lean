import Intake.Directory.Basic
import Intake.Settings
import Intake.Text.Utf8

/-!
A directory behind a service: how to reach it, what is sent to it, and what its answers mean. Which
requests can be sent at all, and how they travel, is left to a client.
-/

set_option autoImplicit false
set_option relaxedAutoImplicit false

namespace Intake.Directory

/-- How to reach a service. -/
structure Access where
  baseUrl : String := "https://api.example.com/v1"
  /-- Sent with every request. -/
  apiKey : String
  /-- In seconds. -/
  timeout : UInt64 := Settings.standard.timeout
  deriving DecidableEq, Repr

namespace Access

/-- The address of the service if no other is given. -/
def usualBaseUrl : String := ({ apiKey := "" } : Access).baseUrl

/-- How to reach a service, as a record of a document. -/
def record : Json.Record Access (String × String × UInt64 × Unit) where
  name := "DirectoryConfig"
  fields :=
    .field "base_url" .string (some usualBaseUrl) <| .field "api_key" .string none <|
    .field "timeout_secs" (.uint64 "u64") (some Settings.standard.timeout) .nil
  toTuple a := (a.baseUrl, a.apiKey, a.timeout, ())
  ofTuple := fun (baseUrl, apiKey, timeout, _) => ⟨baseUrl, apiKey, timeout⟩

/-- How to reach a service, in a document. -/
def codec : Json.Codec Access := record.codec

/-- The base address and a path, joined by one slash. -/
def endpoint (access : Access) (path : String) : String :=
  let isSlash : Char → Bool := (· == '/')
  String.ofList
    ((access.baseUrl.toList.reverse.dropWhile isSlash).reverse ++
      '/' :: path.toList.dropWhile isSlash)

def userUrl (access : Access) (id : UInt64) : String :=
  access.endpoint ("users/" ++ toString id.toNat)

def usersUrl (access : Access) : String := access.endpoint "users"

end Access

/-- What a request does. -/
inductive Method where
  | get
  | post
  deriving DecidableEq, Repr

def Method.label : Method → String
  | get => "GET"
  | post => "POST"

structure Request where
  method : Method
  url : String
  authorization : String
  contentType : Option String := none
  body : String := ""
  deriving DecidableEq, Repr

/-- Whether a text can be sent as the value of a header: no controls but the tab. -/
def isHeaderValue (s : String) : Bool :=
  s.toList.all fun c => c == '\t' || (0x20 ≤ c.toNat && c.toNat != 0x7F)

/-- Whether a text names a service: `http` or `https`, `://`, and something of a host. -/
def isServiceUrl (url : String) : Bool :=
  let startsHost (s : List Char) : Bool := (s.takeWhile fun c => c ∉ ['/', '?', '#', '\\']) ≠ []
  let lower := url.toList.map Text.lowerAscii
  ["http://".toList, "https://".toList].any fun scheme =>
    scheme.isPrefixOf lower && startsHost (lower.drop scheme.length)

/-- Whether a request has an address and a key that can be sent. -/
def Request.isSendable (request : Request) : Bool :=
  isHeaderValue request.authorization && isServiceUrl request.url

/-- The key of a service, as each request shows it. -/
def Access.authorization (access : Access) : String := "Bearer " ++ access.apiKey

/-- What arrives of the body of an answer: all of it, or too little to be used. -/
inductive Body where
  | complete (bytes : List UInt8)
  | brokenOff
  deriving DecidableEq, Repr

/-- What comes back for a request. -/
inductive Delivery where
  /-- No answer, and the reason. -/
  | failed (reason : String)
  | answered (status : UInt16) (body : Body)
  deriving DecidableEq, Repr

namespace Body

/-- A body as text, U+FFFD standing for what is no UTF-8; empty if it did not arrive. -/
def text : Body → String
  | complete bytes => String.ofList (Text.Utf8.decodeLossy bytes)
  | brokenOff => ""

/-- Stands for what is no UTF-8 in a document: a character, so that it completes no escape, and half
of a pair of surrogates. A string with it can be gone over, but not be read. -/
def unreadable : List Char := "x\\udc00".toList

/-- The user in a body. What is no UTF-8 does no harm in the strings that nobody asks for. -/
def user? : Body → Option User
  | complete bytes =>
    (User.codec.decode (String.ofList (Text.Utf8.decodeWith unreadable bytes))).toOption
  | brokenOff => none

end Body

def isSuccess (status : UInt16) : Bool := 200 ≤ status.toNat && status.toNat < 300

def notFound : UInt16 := 404

/-- What sends requests: which of them it can make, and what comes back for those. -/
structure Client (m : Type → Type) where
  canSend : Request → Bool
  send : Request → m Delivery

def notSendable : String := "builder error"

/-- The reason why the body of an answer is of no use. -/
def notDecodable : String := "error decoding response body"

namespace Remote

/-- What an answer to the request for a user means: no user has status 404. -/
def foundUser : Delivery → Except Fault (Option User)
  | .failed reason => .error (.network reason)
  | .answered status body =>
    if status = notFound then .ok none
    else if isSuccess status then
      match body.user? with
      | some user => .ok (some user)
      | none => .error (.answer notDecodable)
    else .error (.status status body.text)

/-- What an answer to the request to create a user means. -/
def createdUser : Delivery → Except Fault Bool
  | .failed reason => .error (.network reason)
  | .answered status body =>
    if isSuccess status then .ok true else .error (.status status body.text)

def getRequest (access : Access) (id : UInt64) : Request where
  method := .get
  url := access.userUrl id
  authorization := access.authorization

def createRequest (access : Access) (data : Json.Object) : Request where
  method := .post
  url := access.usersUrl
  authorization := access.authorization
  contentType := some "application/json"
  body := (Json.Value.object data).text

/-- The event of a user who is about to be looked up. -/
def fetching (url : String) : Event where
  severity := .debug
  message := "Fetching user"
  details := [("url", url)]

variable {m : Type → Type} [Monad m]

/-- Sends a request, if it can be sent. -/
def exchange (client : Client m) (request : Request) : m Delivery :=
  if client.canSend request then client.send request else pure (.failed notSendable)

def getUser (client : Client m) (access : Access) (id : UInt64) :
    m (Logged (Except Fault (Option User))) := do
  let delivery ← exchange client (getRequest access id)
  return ⟨foundUser delivery, [fetching (access.userUrl id)]⟩

def createUser (client : Client m) (access : Access) (data : Json.Object) :
    m (Logged (Except Fault Bool)) :=
  match Signup.check data with
  | .error fault => pure ⟨.error (.refused fault), []⟩
  | .ok () => do
    let delivery ← exchange client (createRequest access data)
    return ⟨createdUser delivery, [creating data]⟩

/-- The directory behind a service that a client reaches. -/
def directoryOver (client : Client m) (access : Access) : Directory m where
  getUser := getUser client access
  createUser := createUser client access

/-- The directory behind a service that is reached by `send`. -/
def directory (access : Access) (send : Request → m Delivery) : Directory m :=
  directoryOver { canSend := Request.isSendable, send := send } access

end Remote

end Intake.Directory
