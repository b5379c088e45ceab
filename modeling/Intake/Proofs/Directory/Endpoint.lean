import Intake.Proofs.Directory.Mirror

/-!
Addresses of a service: a base address and a path, joined by one slash. Only slashes are dropped,
those at the end of the base and those at the beginning of the path, and the addresses of different
requests differ.
-/

set_option autoImplicit false
set_option relaxedAutoImplicit false

namespace Intake.Directory

/-- A number of slashes. -/
def slashes (n : Nat) : String := String.ofList (List.replicate n '/')

theorem slashes_add (m n : Nat) : slashes (m + n) = slashes m ++ slashes n := by
  rw [slashes, ← List.replicate_append_replicate, String.ofList_append, slashes, slashes]

private theorem dropWhile_slashes {s : List Char} (begins : s.head? ≠ some '/') (n : Nat) :
    (List.replicate n '/' ++ s).dropWhile (· == '/') = s := by
  rw [List.dropWhile_append_of_pos]
  · cases s with
    | nil => rfl
    | cons c rest =>
      have other : ¬ (c == '/') = true := by simpa using begins
      exact List.dropWhile_cons_of_neg other
  · intro c mem
    rw [(List.mem_replicate.1 mem).2]
    rfl

private theorem exists_slashes_append (s : List Char) :
    ∃ n rest, s = List.replicate n '/' ++ rest ∧ rest.head? ≠ some '/' := by
  induction s with
  | nil => exact ⟨0, [], rfl, nofun⟩
  | cons c s ih =>
    by_cases slash : c = '/'
    · obtain ⟨n, rest, rfl, begins⟩ := ih
      exact ⟨n + 1, rest, by rw [slash]; rfl, begins⟩
    · exact ⟨0, c :: s, rfl, by simpa using slash⟩

/-- A path is some slashes and what begins with none. -/
theorem exists_eq_slashes_append (path : String) :
    ∃ n rest, path = slashes n ++ rest ∧ rest.toList.head? ≠ some '/' := by
  obtain ⟨n, rest, whole, begins⟩ := exists_slashes_append path.toList
  refine ⟨n, String.ofList rest, ?_, by rwa [String.toList_ofList]⟩
  rw [slashes, ← String.ofList_append, ← whole, String.ofList_toList]

/-- A base address is some slashes after what ends with none. -/
theorem exists_eq_append_slashes (base : String) :
    ∃ stem n, base = stem ++ slashes n ∧ stem.toList.getLast? ≠ some '/' := by
  obtain ⟨n, rest, whole, begins⟩ := exists_slashes_append base.toList.reverse
  refine ⟨String.ofList rest.reverse, n, ?_, ?_⟩
  · rw [List.reverse_eq_iff, List.reverse_append, List.reverse_replicate] at whole
    rw [slashes, ← String.ofList_append, ← whole, String.ofList_toList]
  · rwa [String.toList_ofList, List.getLast?_reverse]

namespace Access

/-- The address joins what is left without the slashes around the junction. -/
theorem endpoint_eq {access : Access} {path stem rest : String} {k l : Nat}
    (base : access.baseUrl = stem ++ slashes k) (whole : path = slashes l ++ rest)
    (ends : stem.toList.getLast? ≠ some '/') (begins : rest.toList.head? ≠ some '/') :
    access.endpoint path = stem ++ "/" ++ rest := by
  have trimmedBase :
      (access.baseUrl.toList.reverse.dropWhile (· == '/')).reverse = stem.toList := by
    rw [← List.head?_reverse] at ends
    rw [base, slashes, String.toList_append, String.toList_ofList, List.reverse_append,
      List.reverse_replicate, dropWhile_slashes ends, List.reverse_reverse]
  have trimmedPath : path.toList.dropWhile (· == '/') = rest.toList := by
    rw [whole, slashes, String.toList_append, String.toList_ofList, dropWhile_slashes begins]
  have slash : "/".toList = ['/'] := rfl
  rw [← String.toList_inj, endpoint, String.toList_ofList, trimmedBase, trimmedPath,
    String.toList_append, String.toList_append, slash, List.append_assoc, List.singleton_append]

theorem toList_userUrl (access : Access) (id : UInt64) :
    (access.userUrl id).toList = access.usersUrl.toList ++ '/' :: (toString id.toNat).toList := by
  obtain ⟨stem, k, base, ends⟩ := exists_eq_append_slashes access.baseUrl
  have bare (path : String) (begins : path.toList.head? ≠ some '/') :
      access.endpoint path = stem ++ "/" ++ path :=
    endpoint_eq (l := 0) base (String.empty_append).symm ends begins
  have user : access.userUrl id = stem ++ "/" ++ ("users/" ++ toString id.toNat) :=
    bare _ (by simp [String.toList_append])
  have users : access.usersUrl = stem ++ "/" ++ "users" := bare _ (by simp)
  rw [user, users]
  simp [String.toList_append]

/-- An address is what the base has before its last slashes, one slash, and what the path has after
its first ones, so more slashes at the junction make no difference. The requests for different users
have different addresses, none of which is that of the request to create one. -/
theorem endpoint_joins (access : Access) (path : String) :
    (∀ m n : Nat,
      ({ access with baseUrl := access.baseUrl ++ slashes m } : Access).endpoint
        (slashes n ++ path) = access.endpoint path) ∧
    (∃ (stem rest : String) (k l : Nat),
      access.baseUrl = stem ++ slashes k ∧ path = slashes l ++ rest ∧
        stem.toList.getLast? ≠ some '/' ∧ rest.toList.head? ≠ some '/' ∧
        access.endpoint path = stem ++ "/" ++ rest) ∧
    (∀ id other : UInt64,
      (Remote.getRequest access id).url = (Remote.getRequest access other).url ↔ id = other) ∧
    ∀ (id : UInt64) (data : Json.Object),
      (Remote.getRequest access id).url ≠ (Remote.createRequest access data).url := by
  obtain ⟨stem, k, base, ends⟩ := exists_eq_append_slashes access.baseUrl
  obtain ⟨l, rest, whole, begins⟩ := exists_eq_slashes_append path
  have joined := endpoint_eq base whole ends begins
  refine ⟨?_, ⟨stem, rest, k, l, base, whole, ends, begins, joined⟩, ?_, ?_⟩
  · intro m n
    -- The longer base and path leave the same stem and rest.
    have longer : access.baseUrl ++ slashes m = stem ++ slashes (k + m) := by
      rw [base, slashes_add, String.append_assoc]
    have deeper : slashes n ++ path = slashes (n + l) ++ rest := by
      rw [whole, slashes_add, String.append_assoc]
    rw [joined, endpoint_eq longer deeper ends begins]
  · intro id other
    exact access.userUrl_injective.eq_iff
  · intro id data same
    have lengths := congrArg (fun url : String => url.toList.length) same
    have user : (Remote.getRequest access id).url = access.userUrl id := rfl
    have users : (Remote.createRequest access data).url = access.usersUrl := rfl
    simp only [user, users, toList_userUrl, List.length_append, List.length_cons] at lengths
    omega

/-- A base of slashes only, and a path that is empty but for slashes. -/
example : ({ baseUrl := "//", apiKey := "" } : Access).endpoint "///" = "/" := by decide

end Access

end Intake.Directory
