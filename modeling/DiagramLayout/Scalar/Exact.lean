import DiagramLayout.Scalar
import DiagramLayout.Scalar.SquareRoot
import Mathlib.Algebra.Order.Field.Rat

/-!
# Exact coordinates

Rational numbers as coordinates. Every operation is exact, but for the hypotenuse over two legs
that are both different from zero: its length need not be rational, and `Exact.root` takes the
fraction below it with the same denominator as the sum of the squares. Over a leg of length zero
the hypotenuse is the other leg, so the length of an axis-parallel line is exact.
-/

namespace DiagramLayout

namespace Exact

/-- The distance of a rational number from zero. -/
def abs (x : Rat) : Rat := if x < 0 then -x else x

/-- A rational number at most the square root of `x`, exact if `x` is the square of a fraction in
lowest terms. -/
def root (x : Rat) : Rat :=
  let product := (x.num * x.den).toNat
  (isqrt product : Rat) / (x.den : Rat)

/-- The length of the hypotenuse over two legs, exact where one of them is zero. -/
def hypot (x y : Rat) : Rat :=
  if y = 0 then abs x else if x = 0 then abs y else root (x * x + y * y)

/-- The nearest integer; halves go away from zero. -/
def round (x : Rat) : Int := if x < 0 then -(-x + 1 / 2).floor else (x + 1 / 2).floor

end Exact

instance : Scalar Rat where
  decideLE := inferInstance
  decideLT := inferInstance
  abs := Exact.abs
  hypot := Exact.hypot
  nearestKey x := OrderKey.nearest (Exact.round x)

end DiagramLayout
