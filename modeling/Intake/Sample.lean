import Intake.Json.Codec.Record

/-!
Mean, median and standard deviation of a list of numbers. All arithmetic is that of the binary
format, in the order of the list; the median is taken in the total order, where NaNs stand at both
ends.
-/

set_option autoImplicit false
set_option relaxedAutoImplicit false

namespace Intake.Sample

/-- The figures of a list of numbers. -/
structure Summary where
  mean : Binary64 := .zero
  median : Binary64 := .zero
  /-- Of the whole population. -/
  deviation : Binary64 := .zero
  deriving DecidableEq, Repr, Inhabited

/-- The sum from left to right; the sum of nothing is `-0.0`, which changes no other number. -/
def sum (xs : List Binary64) : Binary64 := xs.foldl (· + ·) .negativeZero

def sorted (xs : List Binary64) : List Binary64 := xs.mergeSort Binary64.totalLe

/-- The middle of a list in order; of an even number of them the mean of the middle two. -/
def median (xs : List Binary64) : Binary64 :=
  let xs := sorted xs
  let half := xs.length / 2
  if xs.length % 2 = 0 then (xs.getD (half - 1) .zero + xs.getD half .zero) / .two
  else xs.getD half .zero

def squaredDistance (mean x : Binary64) : Binary64 := (x - mean) * (x - mean)

namespace Summary

/-- The figures of a list; all of them are zero if it is empty. -/
def ofList : List Binary64 → Summary
  | [] => {}
  | xs =>
    let count := Binary64.ofNat xs.length
    let mean := sum xs / count
    let variance := sum (xs.map (squaredDistance mean)) / count
    ⟨mean, Sample.median xs, variance.sqrt⟩

def record : Json.Record Summary (Binary64 × Binary64 × Binary64 × Unit) where
  name := "Statistics"
  fields :=
    .field "mean" .binary64 none <| .field "median" .binary64 none <|
    .field "std_dev" .binary64 none .nil
  toTuple s := (s.mean, s.median, s.deviation, ())
  ofTuple := fun (mean, median, deviation, _) => ⟨mean, median, deviation⟩

def codec : Json.Codec Summary := record.codec

/-- The figures in one line, with two decimal places. -/
def line (s : Summary) : String :=
  let places (x : Binary64) : String := String.ofList x.twoPlacesText
  "Mean: " ++ places s.mean ++ ", Median: " ++ places s.median ++ ", Std Dev: " ++
    places s.deviation

end Summary

end Intake.Sample
