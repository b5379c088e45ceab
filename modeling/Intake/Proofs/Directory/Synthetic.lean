import Intake.Directory.Synthetic
import Intake.Proofs.Mail.Overlap
import Intake.Proofs.Profile.Batches
import Intake.Proofs.Records

/-!
The users that a synthetic directory makes up. Their addresses follow both rules, so with any
password they could be created, and the profile of what was given to create one is counted among
those with a valid address.
-/

set_option autoImplicit false
set_option relaxedAutoImplicit false

namespace Intake

open Json

/-- A profile with an aspect counts one, wherever in a batch it stands. -/
theorem Profile.Census.count_ofBatch_insert {aspect : Aspect} {p : Profile}
    (met : aspect.holds p = true) (front back : List Profile) :
    (ofBatch (front ++ p :: back)).count aspect = (ofBatch (front ++ back)).count aspect + 1 := by
  rw [count_ofBatch, count_ofBatch, List.countP_append, List.countP_append,
    List.countP_cons_of_pos met, ← Nat.add_assoc, UInt64.ofNat_add]
  rfl

namespace Directory

namespace User

/-- The fields of a user, as members of a document in the order of writing. -/
def members (user : User) : List (String × Value) :=
  [("id", .number (.natural user.id)), ("name", .string user.name), ("email", .string user.email)]

/-- The fields of a user with a password: the data to create such a user from. -/
def signup (user : User) (password : Value) : Object :=
  (Keyed.ofEntries user.members).insert "password" password

theorem parse_encode (user : User) :
    Value.parse (codec.encode user) = .ok (.object (Keyed.ofEntries user.members)) := by
  have text : codec.encode user =
      String.ofList (objectText (Value.memberTexts user.members)) := rfl
  rw [text]
  refine Value.parse_objectText fun e he => ?_
  simp only [members, List.mem_cons, List.not_mem_nil, or_false] at he
  rcases he with rfl | rfl | rfl
  · exact readsBack_natural _ user.id
  · exact readsBack_string _ user.name
  · exact readsBack_string _ user.email

variable (user : User) (password : Value)

theorem get?_signup (key : String) :
    (user.signup password).get? key =
      if key = "password" then some password
      else if key = "email" then some (.string user.email)
      else if key = "name" then some (.string user.name)
      else if key = "id" then some (.number (.natural user.id))
      else none := by
  have fields : (Keyed.ofEntries user.members).get? key =
      if key = "email" then some (.string user.email)
      else if key = "name" then some (.string user.name)
      else if key = "id" then some (.number (.natural user.id))
      else none := by
    simp only [Keyed.get?_ofEntries, members, List.filter_cons, List.filter_nil]
    grind
  rw [signup, Keyed.get?_insert, fields]

theorem check_signup {user : User} (follows : Mail.Rule.relaxed.accepts user.email = true) :
    Signup.check (user.signup password) = .ok () := by
  have present : Signup.requiredFields.find?
      (fun field => !(user.signup password).contains field) = none := by
    simp [Signup.requiredFields, Keyed.contains, get?_signup]
  have address : Signup.email (user.signup password) = user.email := by
    simp [Signup.email, get?_signup, Value.string?]
  rw [Signup.check, present, address]
  exact if_pos follows

/-- The profile of the data knows the number, the name and the address. -/
theorem ofValue_signup :
    let profile := Profile.ofValue (.object (user.signup password))
    profile.id = some user.id ∧ profile.name = some user.name ∧
      profile.email = some user.email := by
  simp [Profile.ofValue, Profile.ofObject, get?_signup, Value.natural?, Number.natural?,
    Value.string?]

end User

namespace Synthetic

/-- The parts of the address of the user with a number. -/
def address (id : UInt64) : Mail.Address :=
  ⟨"user".toList ++ (toString id.toNat).toList, "example".toList, "com".toList⟩

theorem toList_email (id : UInt64) : (user id).email.toList = (address id).text := by
  have shape : (user id).email = "user" ++ toString id.toNat ++ "@example.com" := rfl
  have host : "@example.com".toList = '@' :: ("example".toList ++ '.' :: "com".toList) := by decide
  rw [shape, String.toList_append, String.toList_append, host]
  rfl

private theorem isAlphanum_of_mem_address {id : UInt64} {c : Char}
    (h : c ∈ (address id).localPart) :
    c.isAlphanum = true := by
  rcases List.mem_append.1 h with letter | digit
  · have letters : ∀ c ∈ "user".toList, c.isAlphanum = true := by simp
    exact letters c letter
  · rw [Nat.toString_eq_ofList_toDigits, String.toList_ofList] at digit
    have numeral : c.isDigit = true := Nat.isDigit_of_mem_toDigits (by decide) (by decide) digit
    rw [Char.isAlphanum, numeral, Bool.or_true]

theorem spells_address (rule : Mail.Rule) (id : UInt64) : rule.Spells (address id) := by
  have hostChars : ∀ c ∈ "example".toList, c.isAlphanum ∨ c ∈ ['.', '-'] := by simp
  have endingChars : ∀ c ∈ "com".toList, c.isAlpha := by simp
  have strict : Mail.Rule.standard.Spells (address id) :=
    { local_ne_nil := List.append_ne_nil_of_left_ne_nil (by decide) _
      domain_ne_nil := List.cons_ne_nil _ _
      least_le := Nat.le_add_left 2 1
      of_local := fun c mem => Or.inl (isAlphanum_of_mem_address mem)
      of_domain := hostChars
      of_ending := endingChars }
  cases rule with
  | standard => exact strict
  | relaxed =>
    have plain {c : Char} (sign : c.isAlphanum = false) : c ∉ (address id).localPart := fun mem =>
      Bool.false_ne_true (sign.symm.trans (isAlphanum_of_mem_address mem))
    exact strict.relaxed_iff.2 ⟨plain (by decide), plain (by decide)⟩

theorem accepts_email (rule : Mail.Rule) (id : UInt64) : rule.accepts (user id).email = true := by
  have spelled := spells_address rule id
  have noFeed : '\n' ∉ (address id).text := spelled.break_notMem (by simp)
  have lastDot : '.' ∉ "com".toList := by decide
  have cuts : (address id).Cuts (user id).email :=
    ⟨(Mail.dropLineFeed_eq_iff noFeed).2 (Or.inl (toList_email id)), lastDot⟩
  have noAt : '@' ∉ (address id).localPart := (spelled.notMem (by simp)).1
  exact (Mail.Rule.accepts_iff_of_ofText? (cuts.ofText?_eq noAt)).2 spelled

private theorem toString_toNat_inj {id other : UInt64} :
    toString other.toNat = toString id.toNat ↔ other = id :=
  Nat.repr_inj.trans UInt64.toNat_inj

theorem name_user_inj {id other : UInt64} : (user other).name = (user id).name ↔ other = id := by
  simp only [user, String.append_right_inj]
  exact toString_toNat_inj

theorem email_user_inj {id other : UInt64} : (user other).email = (user id).email ↔ other = id := by
  simp only [user, String.append_left_inj, String.append_right_inj]
  exact toString_toNat_inj

theorem run_createUser (synthetic : Synthetic) {data : Object}
    (usable : Signup.check data = .ok ()) :
    (synthetic.directory.createUser data).run = ⟨.ok true, [creating data]⟩ := by
  have created : createUser data = ⟨.ok true, [creating data]⟩ := by
    rw [createUser, usable]
  exact created

/-- The user that is made up for a number follows both rules for addresses, and no other has the
same name or address. Its fields with any password can be used to create it, and the profile of
these data has the same number, name and address and counts as one with a valid address. -/
theorem user_signs_up (synthetic : Synthetic) (id : UInt64) (password : Value) :
    (synthetic.directory.getUser id).run = ⟨.ok (some (user id)), []⟩ ∧
    (∀ rule : Mail.Rule, rule.accepts (user id).email = true) ∧
    (∀ other : UInt64, ((user other).name = (user id).name ↔ other = id) ∧
      ((user other).email = (user id).email ↔ other = id)) ∧
    Value.parse (User.codec.encode (user id)) =
      .ok (.object (Keyed.ofEntries (user id).members)) ∧
    let data := (user id).signup password
    Signup.check data = .ok () ∧
    (synthetic.directory.createUser data).run = ⟨.ok true, [creating data]⟩ ∧
    (∀ (meter : Profile.Meter) (front back : List Value),
      (meter.processValues (front ++ .object data :: back)).value.1.validEmails =
        (meter.processValues (front ++ back)).value.1.validEmails + 1) ∧
    let profile := Profile.ofValue (.object data)
    profile.id = some (user id).id ∧ profile.name = some (user id).name ∧
      profile.email = some (user id).email := by
  have usable := User.check_signup password (accepts_email .relaxed id)
  have known := (user id).ofValue_signup password
  refine ⟨rfl, fun rule => accepts_email rule id, fun other => ⟨name_user_inj, email_user_inj⟩,
    (user id).parse_encode, usable, synthetic.run_createUser usable, ?_, known⟩
  intro meter front back
  have met : Profile.Aspect.validEmails.holds
      (Profile.ofValue (.object ((user id).signup password))) = true := by
    rw [Profile.Aspect.holds, known.2.2]
    exact accepts_email .standard id
  have counted := Profile.Census.count_ofBatch_insert met (front.map Profile.ofValue)
    (back.map Profile.ofValue)
  rw [← List.map_cons, ← List.map_append, ← List.map_append] at counted
  exact counted

end Synthetic

end Directory

end Intake
