/-!
Numbers of the 64-bit binary format of IEEE 754, kept as their bit patterns, so that the sign of a
NaN is never lost. Arithmetic goes through `Float`; the order on bit patterns is the total order of
the standard, in which equal means identical.
-/

set_option autoImplicit false
set_option relaxedAutoImplicit false

namespace Intake

/-- A number of the 64-bit binary format, given by its bits. -/
structure Binary64 where
  bits : UInt64
  deriving DecidableEq, Repr, Inhabited

namespace Binary64

/-- The number that a `Float` holds. -/
def ofFloat (x : Float) : Binary64 := ⟨x.toBits⟩

/-- The number as a `Float`, where all NaNs are one. -/
def toFloat (x : Binary64) : Float := Float.ofBits x.bits

def isNegative (x : Binary64) : Bool := 0x8000000000000000 ≤ x.bits.toNat

/-- The 63 bits after the sign. -/
def magnitude (x : Binary64) : Nat := x.bits.toNat % 0x8000000000000000

def exponentField (x : Binary64) : Nat := x.magnitude / 0x10000000000000

def fraction (x : Binary64) : Nat := x.magnitude % 0x10000000000000

/-- All exponent bits set and a fraction: not a number. -/
def isNaN (x : Binary64) : Bool := x.exponentField == 2047 && x.fraction != 0

/-- All exponent bits set and no fraction: an infinity. -/
def isInfinite (x : Binary64) : Bool := x.exponentField == 2047 && x.fraction == 0

def isFinite (x : Binary64) : Bool := x.exponentField != 2047

/-- The whole number `m` of a finite number's absolute value `m · 2 ^ q`. -/
def significand (x : Binary64) : Nat :=
  if x.exponentField = 0 then x.fraction else 0x10000000000000 + x.fraction

/-- The exponent `q` of a finite number's absolute value `m · 2 ^ q`. -/
def exponent (x : Binary64) : Int :=
  if x.exponentField = 0 then -1074 else (x.exponentField : Int) - 1075

/-- The number's place in the total order: negative NaNs first, then the numbers by value with
`-0.0` before `0.0`, then positive NaNs. -/
def place (x : Binary64) : Int :=
  if x.isNegative then -(x.magnitude : Int) - 1 else x.magnitude

/-- The total order on bit patterns. -/
def totalLe (x y : Binary64) : Bool := x.place ≤ y.place

def zero : Binary64 := ⟨0⟩

def negativeZero : Binary64 := ⟨0x8000000000000000⟩

def two : Binary64 := ⟨0x4000000000000000⟩

instance : Add Binary64 := ⟨fun x y => ofFloat (x.toFloat + y.toFloat)⟩

instance : Sub Binary64 := ⟨fun x y => ofFloat (x.toFloat - y.toFloat)⟩

instance : Mul Binary64 := ⟨fun x y => ofFloat (x.toFloat * y.toFloat)⟩

instance : Div Binary64 := ⟨fun x y => ofFloat (x.toFloat / y.toFloat)⟩

/-- The sign changed, of a NaN too. -/
instance : Neg Binary64 := ⟨fun x => ⟨x.bits ^^^ 0x8000000000000000⟩⟩

def sqrt (x : Binary64) : Binary64 := ofFloat x.toFloat.sqrt

def ofNat (n : Nat) : Binary64 := ofFloat (Float.ofNat n)

/-- The number nearest to `10 ^ e`. -/
def tenPow (e : Nat) : Binary64 := ofFloat (Float.ofScientific 1 false e)

theorem place_injective {x y : Binary64} (h : x.place = y.place) : x = y := by
  have hx := x.bits.toNat_lt
  have hy := y.bits.toNat_lt
  have : x.bits.toNat = y.bits.toNat := by
    simp only [place, isNegative, magnitude, decide_eq_true_eq] at h
    by_cases h₁ : 0x8000000000000000 ≤ x.bits.toNat <;>
      by_cases h₂ : 0x8000000000000000 ≤ y.bits.toNat <;>
      simp only [h₁, h₂, if_true, if_false] at h <;> omega
  cases x; cases y
  simp_all [UInt64.toNat_inj]

example : negativeZero.totalLe zero = true ∧ zero.totalLe negativeZero = false := by decide

end Binary64

end Intake
