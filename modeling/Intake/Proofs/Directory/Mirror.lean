import Intake.Proofs.Directory.Sendable
import Intake.Proofs.Records

/-!
A service that knows the users a synthetic directory makes up: sessions with the two agree. There
is such a service, since the address of a user tells the number.
-/

set_option autoImplicit false
set_option relaxedAutoImplicit false

namespace Intake.Directory

namespace Access

theorem endpoint_users (access : Access) (rest : String) :
    (access.endpoint ("users/" ++ rest)).toList =
      (access.endpoint "users/").toList ++ rest.toList := by
  have first : ("users/".toList ++ rest.toList).dropWhile (· == '/') =
      "users/".toList.dropWhile (· == '/') ++ rest.toList := rfl
  simp only [endpoint, String.toList_ofList, String.toList_append, first, List.append_assoc,
    List.cons_append]

/-- The number of the user whom an address of a service is for. -/
def idAt (access : Access) (url : String) : UInt64 :=
  UInt64.ofNat (Nat.ofDigitChars 10 (url.toList.drop (access.endpoint "users/").toList.length) 0)

theorem idAt_userUrl (access : Access) (id : UInt64) :
    access.idAt (access.endpoint ("users/" ++ toString id.toNat)) = id := by
  rw [idAt, endpoint_users, List.drop_left, Nat.toString_eq_ofList_toDigits, String.toList_ofList,
    Nat.ofDigitChars_ten_toDigits, UInt64.ofNat_toNat]

theorem userUrl_injective (access : Access) :
    Function.Injective fun id : UInt64 => access.endpoint ("users/" ++ toString id.toNat) :=
  Function.LeftInverse.injective access.idAt_userUrl

end Access

/-- A service knows the users that are made up from their numbers, and creates whom it is told to.
Its state is its own affair. -/
structure Mirrors {σ : Type} (access : Access) (send : Request → StateM σ Delivery) : Prop where
  knows : ∀ (request : Request) (id : UInt64) (s : σ), request.method = .get →
    request.url = access.endpoint ("users/" ++ toString id.toNat) →
    ((send request).run s).1 =
      .answered 200 (.complete (Text.Utf8.encode (User.codec.encode (Synthetic.user id))))
  creates : ∀ (request : Request) (s : σ), request.method = .post →
    request.url = access.endpoint "users" →
    ∃ status body, 200 ≤ status.toNat ∧ status.toNat < 300 ∧
      ((send request).run s).1 = .answered status body

/-- The service that finds the number of a user in the address. -/
def mirror (access : Access) (request : Request) : StateM Unit Delivery :=
  pure <|
    match request.method with
    | .get =>
      let user := Synthetic.user (access.idAt request.url)
      .answered 200 (.complete (Text.Utf8.encode (User.codec.encode user)))
    | .post => .answered 201 .brokenOff

theorem mirrors_mirror (access : Access) : Mirrors access (mirror access) where
  knows request id s method url := by
    simp only [mirror, method, url, Access.idAt_userUrl]
    rfl
  creates request s method _ := by
    refine ⟨201, .brokenOff, by decide, by decide, ?_⟩
    simp only [mirror, method]
    rfl

/-- Whether an event says that a user is created. -/
def announcesUser (event : Event) : Bool :=
  "Creating user: ".toList.isPrefixOf event.message.toList

/-- The events of a session that say that a user is created. -/
def announcements (replies : List (Logged Reply)) : List Event :=
  (replies.flatMap (·.events)).filter announcesUser

theorem announcesUser_creating (data : Json.Object) : announcesUser (creating data) = true := by
  rw [announcesUser, creating, String.toList_append, List.isPrefixOf_iff_prefix]
  exact List.prefix_append _ _

theorem announcesUser_fetching (url : String) : announcesUser (Remote.fetching url) = false := by
  have differs : "Creating user: ".toList.isPrefixOf "Fetching user".toList = false := by decide
  exact differs

/-- What sessions are compared by: what a call gave, and the users it said it creates. -/
def view (run : Logged Reply) : Reply × List Event := (run.value, run.events.filter announcesUser)

theorem announcements_eq_flatMap (replies : List (Logged Reply)) :
    announcements replies = (replies.map view).flatMap (·.2) := by
  simp only [announcements, List.filter_flatMap, List.flatMap_map, view]

namespace Synthetic

theorem announcesUser_of_mem_ask (synthetic : Synthetic) (call : Call) :
    ∀ event ∈ (synthetic.directory.ask call).run.events, announcesUser event = true := by
  cases call with
  | getUser id => exact nofun
  | createUser data =>
    intro event said
    have created : event ∈ (createUser data).events := said
    rw [createUser] at created
    cases checked : Signup.check data with
    | error fault =>
      rw [checked] at created
      cases created
    | ok =>
      rw [checked, List.mem_singleton] at created
      rw [created, announcesUser_creating]

/-- A synthetic directory says which users it creates, and nothing else. -/
theorem announcements_session (synthetic : Synthetic) (calls : List Call) :
    announcements (synthetic.directory.session calls).run =
      (synthetic.directory.session calls).run.flatMap (·.events) := by
  have all : ∀ run ∈ (synthetic.directory.session calls).run, ∀ event ∈ run.events,
      announcesUser event = true := by
    induction calls with
    | nil => exact nofun
    | cons call calls ih =>
      intro run asked
      rw [session, List.mapM_cons] at asked
      rcases List.mem_cons.1 asked with rfl | later
      · exact synthetic.announcesUser_of_mem_ask call
      · exact ih run later
  refine List.filter_eq_self.2 fun event said => ?_
  obtain ⟨run, asked, own⟩ := List.mem_flatMap.1 said
  exact all run asked event own

end Synthetic

namespace Remote

variable {σ : Type} {canSend : Request → Bool} {access : Access}
  {send : Request → StateM σ Delivery}

theorem foundUser_synthetic (id : UInt64) :
    foundUser
        (.answered 200 (.complete (Text.Utf8.encode (User.codec.encode (Synthetic.user id))))) =
      .ok (some (Synthetic.user id)) := by
  have decoded := (User.lawful_codec (Synthetic.user id)).decode_encode
  rw [foundUser, if_neg (by decide), if_pos (by decide), Body.user?_encode, decoded]
  rfl

theorem createdUser_success {status : UInt16} (body : Body) (least : 200 ≤ status.toNat)
    (below : status.toNat < 300) : createdUser (.answered status body) = .ok true :=
  if_pos (isSuccess_iff.2 ⟨least, below⟩)

/-- One call gives the same with a service that mirrors the synthetic directory, in every state of
the service. -/
theorem view_ask (usable : access.UsableBy canSend) (mirrors : Mirrors access send)
    (synthetic : Synthetic) (call : Call) (s : σ) :
    view (((directoryOver ⟨canSend, send⟩ access).ask call).run s).1 =
      view (synthetic.directory.ask call).run := by
  cases call with
  | getUser id =>
    have delivered := mirrors.knows (getRequest access id) id s rfl rfl
    have asked : (((directoryOver ⟨canSend, send⟩ access).ask (.getUser id)).run s).1 =
        ⟨.found (foundUser ((send (getRequest access id)).run s).1),
          [fetching (access.userUrl id)]⟩ := by
      rw [ask_getUser usable]
      rfl
    have unannounced : [fetching (access.userUrl id)].filter announcesUser = [] := by
      rw [List.filter_cons, announcesUser_fetching]
      rfl
    rw [asked, delivered, foundUser_synthetic, view, unannounced]
    rfl
  | createUser data =>
    cases checked : Signup.check data with
    | error fault =>
      rw [ask_refused checked]
      simp only [ask, Synthetic.directory, Synthetic.createUser, checked]
      rfl
    | ok =>
      obtain ⟨status, body, least, below, delivered⟩ :=
        mirrors.creates (createRequest access data) s rfl rfl
      have asked : (((directoryOver ⟨canSend, send⟩ access).ask (.createUser data)).run s).1 =
          ⟨.created (createdUser ((send (createRequest access data)).run s).1),
            [creating data]⟩ := by
        rw [ask_createUser usable checked]
        rfl
      rw [asked, delivered, createdUser_success body least below]
      simp only [ask, Synthetic.directory, Synthetic.createUser, checked]
      rfl

/-- Sessions agree call by call, since single calls do. -/
theorem view_session (usable : access.UsableBy canSend) (mirrors : Mirrors access send)
    (synthetic : Synthetic) (calls : List Call) (s : σ) :
    (((directoryOver ⟨canSend, send⟩ access).session calls).run s).1.map view =
      (synthetic.directory.session calls).run.map view := by
  -- A call may leave the service in any state; the one after it agrees in all of them.
  induction calls generalizing s with
  | nil => rfl
  | cons call calls ih =>
    have first := view_ask usable mirrors synthetic call s
    have later := ih (((directoryOver ⟨canSend, send⟩ access).ask call).run s).2
    rw [session, session, List.mapM_cons, List.mapM_cons]
    exact congrArg₂ List.cons first later

end Remote

/-- Sessions with a service that mirrors a synthetic directory give, call by call, what sessions
with that directory give, and announce the same users, which is all that the directory says. Such a
service is possible, since the addresses of different users differ. -/
theorem session_mirrors {σ : Type} {canSend : Request → Bool} {access : Access}
    {send : Request → StateM σ Delivery} (usable : access.UsableBy canSend)
    (mirrors : Mirrors access send) (synthetic : Synthetic) (calls : List Call) (s : σ) :
    (let remote := (((Remote.directoryOver ⟨canSend, send⟩ access).session calls).run s).1
    let made := (synthetic.directory.session calls).run
    remote.map (·.value) = made.map (·.value) ∧ announcements remote = announcements made ∧
      announcements made = made.flatMap (·.events)) ∧
      (∃ possible : Request → StateM Unit Delivery, Mirrors access possible) ∧
      Function.Injective fun id : UInt64 => access.endpoint ("users/" ++ toString id.toNat) := by
  have agree := Remote.view_session usable mirrors synthetic calls s
  have possible := mirrors_mirror access
  refine ⟨⟨?_, ?_, synthetic.announcements_session calls⟩, ⟨mirror access, possible⟩,
    access.userUrl_injective⟩
  · have values := congrArg (List.map Prod.fst) agree
    rwa [List.map_map, List.map_map] at values
  · rw [announcements_eq_flatMap, announcements_eq_flatMap, agree]

/-- The user with the largest number, data that neither directory takes, and a user whom both create
and announce. -/
theorem session_mirrors_largest :
    let access : Access := { baseUrl := "http://localhost:8080//", apiKey := "key" }
    let remote := Remote.directoryOver ⟨Request.isSendable, mirror access⟩ access
    let data : Json.Object :=
      .ofEntries [("email", .string "a@b.co"), ("name", .string "A"), ("password", .string "p")]
    let calls : List Call := [.getUser 0xFFFFFFFFFFFFFFFF, .createUser .empty, .createUser data]
    access.UsableBy Request.isSendable ∧ Mirrors access (mirror access) ∧
      ((remote.session calls).run ()).1.map (·.value) =
        [.found (.ok (some (Synthetic.user 0xFFFFFFFFFFFFFFFF))),
          .created (.error (.refused (.missing "name"))), .created (.ok true)] ∧
      announcements ((remote.session calls).run ()).1 =
        [⟨.info, "Creating user: a@b.co", []⟩] := by
  intro access remote data calls
  have usable : access.UsableBy Request.isSendable :=
    Access.usableBy_isSendable (by decide) (by decide)
  let synthetic : Synthetic := ⟨"other", 0⟩
  obtain ⟨⟨values, announced, said⟩, -⟩ :=
    session_mirrors usable (mirrors_mirror access) synthetic calls ()
  have valid : Signup.check data = .ok () := by decide
  have created : (synthetic.directory.ask (.createUser data)).run =
      ⟨.created (.ok true), [creating data]⟩ := by
    simp only [ask, Synthetic.directory, Synthetic.createUser, valid]
    rfl
  have made : (synthetic.directory.session calls).run =
      [⟨.found (.ok (some (Synthetic.user 0xFFFFFFFFFFFFFFFF))), []⟩,
        ⟨.created (.error (.refused (.missing "name"))), []⟩,
        ⟨.created (.ok true), [creating data]⟩] :=
    congrArg (fun run => [_, _, run]) created
  rw [made] at values announced said
  have announcement : [creating data] = [⟨.info, "Creating user: a@b.co", []⟩] := by decide
  exact ⟨usable, mirrors_mirror access, values, announced.trans (said.trans announcement)⟩

end Intake.Directory
