import Intake.Proofs.Directory.Session

/-!
Which services can be asked at all: where the base address names a host and the key is the value of
a header, every request can be sent.
-/

set_option autoImplicit false
set_option relaxedAutoImplicit false

namespace Intake.Directory

open Text (lowerAscii)

/-- An address names a service if it begins with a scheme, in any case, and goes on with a host. -/
theorem isServiceUrl_iff {url : String} :
    isServiceUrl url = true ↔
      ∃ scheme ∈ ["http://".toList, "https://".toList], ∃ front c rest,
        url.toList = front ++ c :: rest ∧ front.map lowerAscii = scheme ∧
          lowerAscii c ∉ ['/', '?', '#', '\\'] := by
  simp only [isServiceUrl, List.any_eq_true, Bool.and_eq_true, List.isPrefixOf_iff_prefix,
    decide_eq_true_eq]
  refine exists_congr fun scheme => and_congr_right fun _ => ⟨?_, ?_⟩
  · rintro ⟨⟨after, split⟩, host⟩
    obtain ⟨front, back, whole, rfl, rfl⟩ := List.map_eq_append_iff.1 split.symm
    rw [whole, List.map_append, List.drop_left] at host
    cases back with
    | nil => exact absurd rfl host
    | cons c rest =>
      refine ⟨front, c, rest, whole, rfl, fun stops => host ?_⟩
      simp only [List.map_cons, List.takeWhile_cons, decide_not, stops, decide_true, Bool.not_true,
        Bool.false_eq_true, if_false]
  · rintro ⟨front, c, rest, whole, rfl, opens⟩
    rw [whole, List.map_append, List.drop_left]
    refine ⟨List.prefix_append _ _, ?_⟩
    simp only [List.map_cons, List.takeWhile_cons, opens, not_false_eq_true, decide_true, if_true,
      ne_eq, reduceCtorEq]

/-- What is trimmed off the end of a text comes after all that is none of it. -/
theorem exists_trimmed_end {p : Char → Bool} {c : Char} (stays : p c = false)
    (front rest : List Char) :
    ∃ kept, ((front ++ c :: rest).reverse.dropWhile p).reverse = front ++ c :: kept := by
  rw [List.reverse_append, List.reverse_cons, List.append_assoc, List.dropWhile_append]
  split_ifs
  · exact ⟨[], by simp [stays]⟩
  · exact ⟨(rest.reverse.dropWhile p).reverse, by simp⟩

/-- A path of a service names a service. -/
theorem isServiceUrl_endpoint {access : Access} (named : isServiceUrl access.baseUrl = true)
    (path : String) : isServiceUrl (access.endpoint path) = true := by
  obtain ⟨scheme, known, front, c, rest, whole, lowered, opens⟩ := isServiceUrl_iff.1 named
  -- Trimming the slashes stops at the host, which does not begin with one.
  have stays : (c == '/') = false := by
    refine beq_false_of_ne fun slash => opens ?_
    subst slash
    decide
  obtain ⟨kept, trimmed⟩ := exists_trimmed_end (p := (· == '/')) stays front rest
  have joined : (access.endpoint path).toList =
      front ++ c :: (kept ++ '/' :: path.toList.dropWhile (· == '/')) := by
    rw [Access.endpoint, String.toList_ofList, whole, trimmed, List.append_assoc, List.cons_append]
  exact isServiceUrl_iff.2 ⟨scheme, known, front, c, _, joined, lowered, opens⟩

theorem isHeaderValue_authorization {access : Access}
    (key : isHeaderValue access.apiKey = true) :
    isHeaderValue ("Bearer " ++ access.apiKey) = true := by
  rw [isHeaderValue, String.toList_append, List.all_append, ← isHeaderValue, ← isHeaderValue, key]
  decide

/-- Every request is for a path of the service and shows its key. -/
theorem Call.request?_address {access : Access} {call : Call} {request : Request}
    (sent : call.request? access = some request) :
    (∃ path, request.url = access.endpoint path) ∧
      request.authorization = "Bearer " ++ access.apiKey := by
  rcases call.request?_cases access with
    ⟨id, rfl, known⟩ | ⟨data, rfl, _, known⟩ | ⟨data, fault, rfl, _, unsent⟩
  · obtain rfl := Option.some.inj (known.symm.trans sent)
    exact ⟨⟨_, rfl⟩, rfl⟩
  · obtain rfl := Option.some.inj (known.symm.trans sent)
    exact ⟨⟨_, rfl⟩, rfl⟩
  · exact absurd (unsent.symm.trans sent) (Option.some_ne_none request).symm

/-- A service with a named host and a key that can be sent can be asked everything. -/
theorem Access.usableBy_isSendable {access : Access} (named : isServiceUrl access.baseUrl = true)
    (key : isHeaderValue access.apiKey = true) : access.UsableBy Request.isSendable := by
  intro call request sent
  obtain ⟨⟨path, url⟩, authorization⟩ := Call.request?_address sent
  rw [Request.isSendable, url, authorization, isServiceUrl_endpoint named,
    isHeaderValue_authorization key]
  rfl

end Intake.Directory
