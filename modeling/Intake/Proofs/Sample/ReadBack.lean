import Intake.Proofs.Json.Figures
import Intake.Proofs.Json.Lawful
import Intake.Proofs.Sample.Middle

/-!
Figures from their own text. A text of figures is read again if all of them are finite; for any
other one it says `null`, which is no number.
-/

set_option autoImplicit false
set_option relaxedAutoImplicit false

namespace Intake.Sample.Summary

open Json

variable {s : Summary}

/-- All figures are finite. -/
structure IsFinite (s : Summary) : Prop where
  mean : s.mean.isFinite = true
  median : s.median.isFinite = true
  deviation : s.deviation.isFinite = true

theorem IsFinite.exists_decode_encode (h : s.IsFinite) :
    ∃ t, codec.decode (codec.encode s) = .ok t := by
  obtain ⟨mean, readsMean⟩ := Codec.exists_readsBack_binary64 h.mean
  obtain ⟨median, readsMedian⟩ := Codec.exists_readsBack_binary64 h.median
  obtain ⟨deviation, readsDeviation⟩ := Codec.exists_readsBack_binary64 h.deviation
  have fields : record.fields.ReadsAs (record.toTuple s) (mean, median, deviation, ()) :=
    ⟨readsMean, by decide, readsMedian, by decide, readsDeviation, by decide, trivial⟩
  exact ⟨_, (Record.readsBack_codec fields).decode_encode⟩

/-- The numbers that documents are. -/
def sights : record.fields.Sights := (Value.figure?, Value.figure?, Value.figure?, ())

theorem seen_fields (limit : Nat) : record.fields.Seen limit sights := by
  have sees := Codec.sees_binary64 limit
  exact ⟨sees, sees, sees, trivial⟩

theorem isFinite_of_decode_encode {t : Summary} (h : codec.decode (codec.encode s) = .ok t) :
    s.IsFinite := by
  obtain ⟨mean, readsMean, meanFinite⟩ := Codec.exists_readsBack_write (nestingLimit - 1) s.mean
  obtain ⟨median, readsMedian, medianFinite⟩ :=
    Codec.exists_readsBack_write (nestingLimit - 1) s.median
  obtain ⟨deviation, readsDeviation, deviationFinite⟩ :=
    Codec.exists_readsBack_write (nestingLimit - 1) s.deviation
  have texts : ∀ e ∈ [("mean", Codec.binary64.write s.mean, mean),
      ("median", Codec.binary64.write s.median, median),
      ("std_dev", Codec.binary64.write s.deviation, deviation)],
      ReadsBack (document (nestingLimit - 1)) e.2.1 e.2.2 := by
    simp [readsMean, readsMedian, readsDeviation]
  have written := Value.written_of_texts texts
  have distinct : record.fields.names.Nodup := by decide
  -- Each field holds the number that its document is, so that the document is one.
  obtain ⟨draft, filled, -⟩ := Record.filled_of_decode distinct (seen_fields _) written h
  obtain ⟨⟨x, hx, -⟩, ⟨y, hy, -⟩, ⟨z, hz, -⟩, -⟩ := filled
  exact ⟨meanFinite.1 (Option.isSome_of_eq_some hx), medianFinite.1 (Option.isSome_of_eq_some hy),
    deviationFinite.1 (Option.isSome_of_eq_some hz)⟩

/-- What is written for a figure: `null` for what is no finite number. -/
def figureText (x : Binary64) : String :=
  if x.isFinite then String.ofList x.shortestText else "null"

theorem encode_eq (s : Summary) :
    codec.encode s =
      "\x7b\"mean\":" ++ figureText s.mean ++ ",\"median\":" ++ figureText s.median ++
        ",\"std_dev\":" ++ figureText s.deviation ++ "\x7d" := by
  have written (x : Binary64) : (figureText x).toList = Codec.binary64.write x := by
    cases finite : x.isFinite <;> simp [figureText, Codec.binary64, finite]
  refine String.toList_inj.1 ?_
  have members : (codec.encode s).toList =
      objectText [("mean", Codec.binary64.write s.mean), ("median", Codec.binary64.write s.median),
        ("std_dev", Codec.binary64.write s.deviation)] := String.toList_ofList
  rw [members]
  simp only [String.toList_append, written, objectText, bracketed, List.map_cons, List.map_nil,
    List.intercalate_cons_cons, List.intercalate_singleton, List.append_assoc, List.cons_append,
    List.nil_append]
  rfl

/-- The text of the figures of a list has `null` for each that is not finite, and is read again just
if all of them are finite. -/
theorem exists_decode_encode_ofList_iff (xs : List Binary64) :
    ((∃ t, codec.decode (codec.encode (ofList xs)) = .ok t) ↔ (ofList xs).IsFinite) ∧
      codec.encode (ofList xs) =
        "\x7b\"mean\":" ++ figureText (ofList xs).mean ++
          ",\"median\":" ++ figureText (ofList xs).median ++
          ",\"std_dev\":" ++ figureText (ofList xs).deviation ++ "\x7d" := by
  refine ⟨⟨?_, IsFinite.exists_decode_encode⟩, encode_eq _⟩
  rintro ⟨t, h⟩
  exact isFinite_of_decode_encode h

/-- All figures of two finite samples may be infinite, and then they cannot be read again. -/
theorem not_exists_decode_encode_of_overflow :
    let xs : List Binary64 := [⟨0x7FEFFFFFFFFFFFFF⟩, ⟨0x7FEFFFFFFFFFFFFF⟩]
    (∀ x ∈ xs, x.isFinite = true) ∧
      codec.encode (ofList xs) = "\x7b\"mean\":null,\"median\":null,\"std_dev\":null\x7d" ∧
      ¬ ∃ t, codec.decode (codec.encode (ofList xs)) = .ok t := by
  intro xs
  have mean : (ofList xs).mean.isFinite = false := by decide +kernel
  have median : (ofList xs).median.isFinite = false := by
    rw [median_ofList (by decide), median_largest]
    decide
  have deviation : (ofList xs).deviation.isFinite = false := by decide +kernel
  refine ⟨by decide, ?_, ?_⟩
  · simp only [encode_eq, figureText, mean, median, deviation]
    rfl
  · rintro ⟨t, h⟩
    cases mean.symm.trans (isFinite_of_decode_encode h).mean

end Intake.Sample.Summary
