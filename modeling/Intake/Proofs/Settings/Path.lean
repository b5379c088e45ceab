import Intake.Proofs.Settings.Names
import Intake.Settings

/-!
The format that a path tells, by the last name of the path. Empty names and single dots at the end
of a path are passed over, what stands before the last slash does not matter, and neither does the
case of ASCII letters. A name tells a format by what follows its last dot.
-/

set_option autoImplicit false
set_option relaxedAutoImplicit false

namespace Intake

open Text Text.Utf8

variable {a b name ending : List UInt8} {format : Format}

/-- The last part of a path between slashes that is neither empty nor a single dot. -/
def lastPart? (path : List UInt8) : Option (List UInt8) :=
  (path.splitOn slash).reverse.find? fun part => part ≠ [] ∧ part ≠ [dot]

theorem fileName?_eq (path : List UInt8) :
    fileName? path = (lastPart? path).filter fun part => part ≠ [dot, dot] := by
  rw [fileName?, lastPart?]
  cases (path.splitOn slash).reverse.find? fun part => decide (part ≠ [] ∧ part ≠ [dot]) with
  | none => rfl
  | some part => by_cases up : part = [dot, dot] <;> simp [up, Option.filter]

/-! ### Parts of a path -/

theorem splitOn_append_cons (a b : List UInt8) :
    (a ++ slash :: b).splitOn slash = a.splitOn slash ++ b.splitOn slash :=
  List.splitOnP_append_cons a b (beq_self_eq_true slash)

theorem splitOn_of_notMem (h : slash ∉ name) : name.splitOn slash = [name] :=
  List.splitOnP_eq_singleton fun b hb => by
    rw [beq_eq_false_iff_ne]
    exact fun same => h (same ▸ hb)

theorem lastPart?_append_cons (a b : List UInt8) :
    lastPart? (a ++ slash :: b) = (lastPart? b).or (lastPart? a) := by
  rw [lastPart?, splitOn_append_cons, List.reverse_append, List.find?_append]
  rfl

theorem lastPart?_of_notMem (h : slash ∉ name) :
    lastPart? name = if name ≠ [] ∧ name ≠ [dot] then some name else none := by
  rw [lastPart?, splitOn_of_notMem h]
  by_cases passed : name ≠ [] ∧ name ≠ [dot] <;> simp [passed]

/-- A slash at the end of a path, or a slash and a dot, adds no name. -/
theorem lastPart?_append_tail {tail : List UInt8} (h : tail = [slash] ∨ tail = [slash, dot])
    (path : List UInt8) : lastPart? (path ++ tail) = lastPart? path := by
  have none_end : lastPart? [] = none := by decide
  have none_dot : lastPart? [dot] = none := by decide
  rcases h with rfl | rfl
  · rw [lastPart?_append_cons, none_end, Option.none_or]
  · rw [lastPart?_append_cons, none_dot, Option.none_or]

theorem lastPart?_append_tails (path : List UInt8) {tails : List (List UInt8)}
    (h : ∀ tail ∈ tails, tail = [slash] ∨ tail = [slash, dot]) :
    lastPart? (path ++ tails.flatten) = lastPart? path := by
  induction tails generalizing path with
  | nil => simp
  | cons tail tails ih =>
    obtain ⟨own, others⟩ := List.forall_mem_cons.1 h
    rw [List.flatten_cons, ← List.append_assoc, ih _ others, lastPart?_append_tail own]

/-- What stands before the last slash does not matter if a name follows it. -/
theorem lastPart?_join (dir : List UInt8) (nonempty : name ≠ []) (single : slash ∉ name)
    (plain : name ≠ [dot]) : lastPart? (dir ++ slash :: name) = lastPart? name := by
  rw [lastPart?_append_cons, lastPart?_of_notMem single, if_pos ⟨nonempty, plain⟩, Option.some_or]

/-! ### Endings -/

theorem extensionOf?_append (stem : List UInt8) (free : dot ∉ ending) :
    extensionOf? (stem ++ dot :: ending) = if stem ≠ [] then some ending else none := by
  have ending_part : ∀ b ∈ ending.reverse, decide (b ≠ dot) = true := fun b hb =>
    decide_eq_true fun same => free (same ▸ List.mem_reverse.1 hb)
  have taken : (stem ++ dot :: ending).reverse.takeWhile (· ≠ dot) = ending.reverse := by
    rw [List.reverse_append, List.reverse_cons, List.append_assoc,
      List.takeWhile_append_of_pos ending_part]
    simp
  have inside : ending.length + 1 < (stem ++ dot :: ending).length ↔ stem ≠ [] := by
    rw [← List.length_pos_iff, List.length_append, List.length_cons]
    omega
  rw [extensionOf?, taken, List.reverse_reverse, List.length_reverse]
  simp only [inside]

theorem extensionOf?_of_notMem (free : dot ∉ name) : extensionOf? name = none := by
  have whole : name.reverse.takeWhile (· ≠ dot) = name.reverse := by
    rw [List.takeWhile_eq_self_iff]
    exact fun b hb => decide_eq_true fun same => free (same ▸ List.mem_reverse.1 hb)
  rw [extensionOf?, whole, List.length_reverse, if_neg (by omega)]

/-- The ending of a name follows its last dot, which does not come first. -/
theorem extensionOf?_eq_some_iff :
    extensionOf? name = some ending ↔
      ∃ stem, stem ≠ [] ∧ dot ∉ ending ∧ name = stem ++ dot :: ending := by
  constructor
  · intro h
    by_cases dotted : dot ∈ name.reverse
    · obtain ⟨after, before, split, free⟩ := List.eq_append_cons_of_mem dotted
      obtain rfl : name = before.reverse ++ dot :: after.reverse := by
        rw [← List.reverse_inj, split]
        simp
      rw [extensionOf?_append _ (by rwa [List.mem_reverse])] at h
      obtain ⟨nonempty, taken⟩ := Option.ite_none_right_eq_some.1 h
      obtain rfl := Option.some.inj taken
      exact ⟨before.reverse, nonempty, by rwa [List.mem_reverse], rfl⟩
    · rw [extensionOf?_of_notMem (by rwa [List.mem_reverse] at dotted)] at h
      cases h
  · rintro ⟨stem, nonempty, free, rfl⟩
    rw [extensionOf?_append stem free, if_pos nonempty]

/-! ### Case -/

theorem lowerByte_eq_iff {b c : UInt8} (plain : c = slash ∨ c = dot) :
    lowerByte b = c ↔ b = c := by
  rcases plain with rfl | rfl <;> simp only [lowerByte, slash, dot] <;> grind

theorem mem_map_lowerByte {c : UInt8} (plain : c = slash ∨ c = dot) {bytes : List UInt8} :
    c ∈ bytes.map lowerByte ↔ c ∈ bytes := by
  simp [List.mem_map, lowerByte_eq_iff plain]

theorem splitOn_map_lowerByte (path : List UInt8) :
    (path.map lowerByte).splitOn slash = (path.splitOn slash).map (List.map lowerByte) := by
  rw [List.splitOn, List.splitOn]
  induction path with
  | nil => rfl
  | cons b path ih =>
    have same : (lowerByte b == slash) = (b == slash) := by
      rw [Bool.eq_iff_iff, beq_iff_eq, beq_iff_eq, lowerByte_eq_iff (.inl rfl)]
    rw [List.map_cons, List.splitOnP_cons_eq_if_modifyHead, List.splitOnP_cons_eq_if_modifyHead,
      same, ih]
    cases b == slash with
    | true => rfl
    | false => cases List.splitOnP (· == slash) path <;> rfl

theorem lastPart?_map_lowerByte (path : List UInt8) :
    lastPart? (path.map lowerByte) = (lastPart? path).map (List.map lowerByte) := by
  have same (part : List UInt8) : part.map lowerByte = [dot] ↔ part = [dot] := by
    rcases part with - | ⟨b, - | ⟨c, rest⟩⟩ <;> simp [lowerByte_eq_iff]
  rw [lastPart?, lastPart?, splitOn_map_lowerByte, ← List.map_reverse, List.find?_map]
  congr 1
  congr 1
  funext part
  simp [same]

/-! ### The format of a path -/

theorem encode_name_ne_nil (format : Format) : encode format.name ≠ [] := by
  cases format <;> decide +kernel

/-- A path tells a format if its last part is a stem, a dot and the name of the format, up to the
case of ASCII letters. -/
theorem ofPathBytes?_eq_some_iff {path : List UInt8} :
    Format.ofPathBytes? path = some format ↔
      ∃ stem ending, stem ≠ [] ∧ dot ∉ ending ∧ lastPart? path = some (stem ++ dot :: ending) ∧
        ending.map lowerByte = encode format.name := by
  rw [Format.ofPathBytes?, extension?, fileName?_eq, Option.bind_assoc,
    Option.bind_eq_some_iff]
  constructor
  · rintro ⟨ending, told, named⟩
    obtain ⟨part, last, ended⟩ := Option.bind_eq_some_iff.1 told
    obtain ⟨stem, nonempty, free, rfl⟩ := extensionOf?_eq_some_iff.1 ended
    exact ⟨stem, ending, nonempty, free, (Option.filter_eq_some_iff.1 last).1,
      bind_ofName?_eq_some_iff.1 named⟩
  · rintro ⟨stem, ending, nonempty, free, last, named⟩
    -- the last dot of `..` is followed by nothing, which names no format
    have down : stem ++ dot :: ending ≠ [dot, dot] := by
      intro up
      have parent : extensionOf? [dot, dot] = some ending :=
        up ▸ extensionOf?_eq_some_iff.2 ⟨stem, nonempty, free, rfl⟩
      obtain rfl : [] = ending := Option.some.inj ((by decide : _ = some []).symm.trans parent)
      exact encode_name_ne_nil format named.symm
    have kept : (lastPart? path).filter (fun part => part ≠ [dot, dot]) =
        some (stem ++ dot :: ending) :=
      Option.filter_eq_some_iff.2 ⟨last, decide_eq_true down⟩
    exact ⟨ending, Option.bind_eq_some_iff.2 ⟨_, kept, extensionOf?_eq_some_iff.2
      ⟨stem, nonempty, free, rfl⟩⟩, bind_ofName?_eq_some_iff.2 named⟩

theorem dot_notMem_name (format : Format) : dot ∉ encode format.name := by
  cases format <;> decide +kernel

/-- The same with the letters of the last part put in lower case. -/
theorem ofPathBytes?_eq_some_iff_lower {path : List UInt8} :
    Format.ofPathBytes? path = some format ↔
      ∃ stem, stem ≠ [] ∧
        (lastPart? path).map (List.map lowerByte) = some (stem ++ dot :: encode format.name) := by
  rw [ofPathBytes?_eq_some_iff]
  constructor
  · rintro ⟨stem, ending, nonempty, free, last, named⟩
    refine ⟨stem.map lowerByte, by simpa using nonempty, ?_⟩
    rw [last, Option.map_some, List.map_append, List.map_cons, named,
      (lowerByte_eq_iff (.inr rfl)).2 rfl]
  · rintro ⟨stem, nonempty, lowered⟩
    obtain ⟨part, last, parts⟩ := Option.map_eq_some_iff.1 lowered
    obtain ⟨own, rest, rfl, rfl, rest_lower⟩ := List.map_eq_append_iff.1 parts
    obtain ⟨b, ending, rfl, border, named⟩ := List.map_eq_cons_iff.1 rest_lower
    obtain rfl := (lowerByte_eq_iff (.inr rfl)).1 border
    refine ⟨own, ending, by simpa using nonempty, ?_, last, named⟩
    rw [← mem_map_lowerByte (.inr rfl), named]
    exact dot_notMem_name format

/-- The format of a path depends on its last part alone, up to the case of ASCII letters. -/
theorem ofPathBytes?_congr {path other : List UInt8}
    (same : (lastPart? path).map (List.map lowerByte) =
      (lastPart? other).map (List.map lowerByte)) :
    Format.ofPathBytes? path = Format.ofPathBytes? other := by
  apply Option.ext
  intro format
  rw [ofPathBytes?_eq_some_iff_lower, ofPathBytes?_eq_some_iff_lower, same]

/-- A name without slashes tells a format if it is a stem, a dot and the name of the format. -/
theorem ofPathBytes?_name_eq_some_iff (single : slash ∉ name) :
    Format.ofPathBytes? name = some format ↔
      ∃ stem ending, stem ≠ [] ∧ dot ∉ ending ∧ name = stem ++ dot :: ending ∧
        ending.map lowerByte = encode format.name := by
  rw [ofPathBytes?_eq_some_iff, lastPart?_of_notMem single]
  constructor
  · rintro ⟨stem, ending, nonempty, free, last, named⟩
    obtain ⟨-, whole⟩ := Option.ite_none_right_eq_some.1 last
    exact ⟨stem, ending, nonempty, free, Option.some.inj whole, named⟩
  · rintro ⟨stem, ending, nonempty, free, rfl, named⟩
    have kept : stem ++ dot :: ending ≠ [] ∧ stem ++ dot :: ending ≠ [dot] := by
      rcases stem with - | ⟨b, stem⟩
      · exact absurd rfl nonempty
      · simp
    exact ⟨stem, ending, nonempty, free, if_pos kept, named⟩

/-- A dot that comes first starts no ending. -/
theorem ofPathBytes?_hidden (single : slash ∉ ending) (free : dot ∉ ending) :
    Format.ofPathBytes? (dot :: ending) = none := by
  rw [Option.eq_none_iff_forall_not_mem]
  intro format told
  have whole_single : slash ∉ dot :: ending := List.not_mem_cons_of_ne_of_not_mem (by decide) single
  obtain ⟨stem, rest, nonempty, -, whole, -⟩ :=
    (ofPathBytes?_name_eq_some_iff whole_single).1 told
  rcases stem with - | ⟨b, stem⟩
  · exact nonempty rfl
  · rw [List.cons_append, List.cons.injEq] at whole
    exact free (whole.2 ▸ by simp)

namespace Settings

theorem supportsBytes_eq_true_iff {settings : Settings} {path : List UInt8} :
    settings.supportsBytes path = true ↔
      ∃ format, Format.ofPathBytes? path = some format ∧ format ∈ settings.formats := by
  rw [supportsBytes]
  cases Format.ofPathBytes? path <;> simp

/-- What the settings say of a path: the format it tells, and whether they have it. -/
def answers (settings : Settings) (path : List UInt8) : Option Format × Bool :=
  (Format.ofPathBytes? path, settings.supportsBytes path)

theorem answers_congr {settings : Settings} {path other : List UInt8}
    (same : Format.ofPathBytes? path = Format.ofPathBytes? other) :
    settings.answers path = settings.answers other := by
  rw [answers, answers, supportsBytes, supportsBytes, same]

/-- What settings say of a path depends on the last name of the path alone, up to the case of ASCII
letters: slashes and single dots after it and everything before it do not matter. A name tells a
format if it is a stem, a dot and the name of the format up to case; so none that starts with its
only dot does, and neither does the parent directory. Settings support the paths that tell one of
their formats. -/
theorem supports_last_name (settings : Settings) :
    (∀ path (tails : List (List UInt8)), (∀ tail ∈ tails, tail = [slash] ∨ tail = [slash, dot]) →
      settings.answers (path ++ tails.flatten) = settings.answers path) ∧
    (∀ dir name, name ≠ [] → slash ∉ name → name ≠ [dot] →
      settings.answers (dir ++ slash :: name) = settings.answers name) ∧
    (∀ path other : List UInt8, path.map lowerByte = other.map lowerByte →
      settings.answers path = settings.answers other) ∧
    (∀ name format, slash ∉ name → (Format.ofPathBytes? name = some format ↔
      ∃ stem ending, stem ≠ [] ∧ dot ∉ ending ∧ name = stem ++ dot :: ending ∧
        ending.map lowerByte = encode format.name)) ∧
    (∀ ending, slash ∉ ending → dot ∉ ending → Format.ofPathBytes? (dot :: ending) = none) ∧
    Format.ofPathBytes? [dot, dot] = none ∧
    (∀ path, settings.supportsBytes path = true ↔
      ∃ format, Format.ofPathBytes? path = some format ∧ format ∈ settings.formats) ∧
    ∀ text : String, (Format.ofPath? text, settings.supports text) =
      settings.answers (encode text) := by
  refine ⟨fun path tails blank => answers_congr ?_, fun dir name nonempty single plain =>
    answers_congr ?_, fun path other same => answers_congr ?_,
    fun name format single => ofPathBytes?_name_eq_some_iff single,
    fun ending single free => ofPathBytes?_hidden single free, by decide,
    fun path => supportsBytes_eq_true_iff, fun text => rfl⟩
  · exact ofPathBytes?_congr (by rw [lastPart?_append_tails path blank])
  · exact ofPathBytes?_congr (by rw [lastPart?_join dir nonempty single plain])
  · apply ofPathBytes?_congr
    rw [← lastPart?_map_lowerByte, ← lastPart?_map_lowerByte, same]

/-- A report in a folder, with slashes and dots after it and letters in either case. -/
theorem supports_last_name_report :
    standard.answers (encode "in/Report.v2.CSV" ++ [[slash], [slash, dot], [slash]].flatten) =
      standard.answers (encode "in/Report.v2.CSV") ∧
    standard.answers (encode ".." ++ slash :: encode "Report.v2.CSV") =
      standard.answers (encode "Report.v2.CSV") ∧
    standard.answers (encode "in/Report.v2.CSV") = standard.answers (encode "IN/rEPORT.V2.csv") ∧
    Format.ofPathBytes? (encode "Report.v2.CSV") = some .csv ∧
    Format.ofPathBytes? (dot :: encode "json") = none :=
  have ⟨tails, dirs, case, names, hidden, _⟩ := supports_last_name standard
  ⟨tails _ _ (by simp), dirs _ _ (by decide +kernel) (by decide +kernel) (by decide +kernel),
    case _ _ (by decide +kernel),
    (names _ _ (by decide +kernel)).2 ⟨encode "Report.v2", encode "CSV", by decide +kernel⟩,
    hidden _ (by decide +kernel) (by decide +kernel)⟩

end Settings

end Intake
