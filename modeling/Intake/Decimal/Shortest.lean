/-!
The shortest decimal of a binary number: the point of the coarsest power-of-ten grid that still
rounds back to it, the nearer of two, and of two equally near the even one. All comparisons are
between whole numbers.
-/

set_option autoImplicit false
set_option relaxedAutoImplicit false

namespace Intake.Decimal

/-- The number `digits · 10 ^ exponent`. -/
structure Scaled where
  digits : Nat
  exponent : Int
  deriving DecidableEq, Repr

/-- A positive number `m · 2 ^ q` and the shape of the set of numbers that round to it. -/
structure Cell where
  m : Nat
  q : Int
  /-- Whether the gap below is half of the gap above. -/
  narrowBelow : Bool
  deriving DecidableEq, Repr

namespace Cell

/-- The lower end of the numbers that round to `x`, in units of `2 ^ (x.q - 2)`. -/
def lower (x : Cell) : Nat := 4 * x.m - (if x.narrowBelow then 1 else 2)

/-- The upper end of the numbers that round to `x`, in units of `2 ^ (x.q - 2)`. -/
def upper (x : Cell) : Nat := 4 * x.m + 2

/-- The step `10 ^ k` in units of `2 ^ (x.q - 2)`, as numerator and denominator. -/
def step (x : Cell) (k : Int) : Nat × Nat :=
  (Nat.pow 10 k.toNat * Nat.pow 2 (2 - x.q).toNat,
    Nat.pow 10 (-k).toNat * Nat.pow 2 (x.q - 2).toNat)

/-- Whether `c · 10 ^ k` rounds to `x`: the ends count when `m` is even. -/
def contains (x : Cell) (k : Int) (c : Nat) : Bool :=
  let (num, den) := x.step k
  if x.m % 2 = 0 then x.lower * den ≤ c * num && c * num ≤ x.upper * den
  else x.lower * den < c * num && c * num < x.upper * den

/-- The nearer to `x` of `c · 10 ^ k` and `(c + 1) · 10 ^ k`, where `x` lies between them; the
even one when `x` is in the middle. -/
def nearer (x : Cell) (k : Int) (c : Nat) : Nat :=
  let (num, den) := x.step k
  let twice := 8 * x.m * den
  let middle := (2 * c + 1) * num
  if twice < middle then c else if middle < twice then c + 1 else c + c % 2

/-- The largest point of the grid `10 ^ k` that is not above `x`. -/
def floor (x : Cell) (k : Int) : Nat :=
  let (num, den) := x.step k
  4 * x.m * den / num

/-- The point of the grid `10 ^ k` that rounds to `x` and is nearest to it, if there is one. -/
def onGrid? (x : Cell) (k : Int) : Option Nat :=
  let c := x.floor k
  match x.contains k c, x.contains k (c + 1) with
  | true, true => some (x.nearer k c)
  | true, false => some c
  | false, true => some (c + 1)
  | false, false => none

/-- Tries the grids from `10 ^ k` down to `10 ^ (k - n)`; the last one answers in any case. -/
def shortestFrom (x : Cell) (k : Int) : Nat → Scaled
  | 0 => ⟨x.nearer k (x.floor k), k⟩
  | n + 1 =>
    match x.onGrid? k with
    | some c => ⟨c, k⟩
    | none => shortestFrom x (k - 1) n

/-- The shortest decimal that rounds to `x`. No number of the 64-bit format reaches `10 ^ 309`,
and each has a point of the grid `10 ^ -324` that rounds to it. -/
def shortest (x : Cell) : Scaled := x.shortestFrom 308 632

end Cell

/-- The decimal digits of a number, most significant first. -/
def digitChars (n : Nat) : List Char := Nat.toDigits 10 n

end Intake.Decimal
