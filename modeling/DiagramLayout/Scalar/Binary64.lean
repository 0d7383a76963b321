import DiagramLayout.Scalar
import DiagramLayout.Scalar.SquareRoot

/-!
# Binary floating point coordinates

A finite double is a natural number times a power of two, with a sign. `Binary64.Finite.ofFloat?`
reads these three parts off the bits, and `Binary64.ofDyadic` is the way back: the double nearest to
such a product, a tie going to the even neighbour. Both are exact integer arithmetic. The length of
a hypotenuse and the rounding to an order key are computed between the two, so that each of them is
rounded once.
-/

namespace DiagramLayout

namespace Binary64

/-- The parts of a finite double: it is `mantissa * 2 ^ exponent`, negated if `negative` is set. -/
structure Finite where
  negative : Bool
  mantissa : Nat
  exponent : Int
deriving DecidableEq, Repr

/-- The parts of a double, or nothing for the infinities and what is not a number. -/
def Finite.ofFloat? (x : Float) : Option Finite :=
  let bits : Nat := x.toBits.toNat
  let negative := bits >>> 63 == 1
  let field : Nat := (bits >>> 52) % 2048
  let fraction : Nat := bits % (1 <<< 52)
  if field = 2047 then none
  else if field = 0 then some ⟨negative, fraction, -1074⟩
  else some ⟨negative, fraction + (1 <<< 52), (field : Int) - 1075⟩

/-- The number of binary digits. -/
def bitLength (n : Nat) : Nat := if n = 0 then 0 else Nat.log2 n + 1

/-- The quotient by a power of two, rounded to nearest with ties to even. -/
def shiftRightRounded (n shift : Nat) : Nat :=
  let unit := 1 <<< shift
  let low := n / unit
  let rest := 2 * (n % unit)
  if unit < rest ∨ (rest = unit ∧ low % 2 = 1) then low + 1 else low

/-- The double nearest to `mantissa * 2 ^ exponent`. -/
def ofDyadic (mantissa : Nat) (exponent : Int) : Float :=
  let scale := max (exponent + bitLength mantissa - 53) (-1074)
  let rounded :=
    if exponent ≤ scale then shiftRightRounded mantissa (scale - exponent).toNat
    else mantissa <<< (exponent - scale).toNat
  let bits :=
    if rounded < 1 <<< 52 then rounded
    else ((scale + 1075).toNat <<< 52) + (rounded - (1 <<< 52))
  Float.ofBits (UInt64.ofNat (min bits (2047 <<< 52)))

/-- The length of a hypotenuse, rounded once. An infinite leg makes it infinite whatever the other
leg is. -/
def hypot (x y : Float) : Float :=
  match Finite.ofFloat? x, Finite.ofFloat? y with
  | some a, some b =>
    let scale := min a.exponent b.exponent
    let p := a.mantissa <<< (a.exponent - scale).toNat
    let q := b.mantissa <<< (b.exponent - scale).toNat
    let square := p * p + q * q
    -- enough further digits for the root to have more than a double holds
    let extra := 58 - bitLength square / 2
    let root := isqrt (square <<< (2 * extra))
    let inexact := root * root != square <<< (2 * extra)
    ofDyadic (2 * root + inexact.toNat) (scale - extra - 1)
  | _, _ => if x.isInf || y.isInf then Float.ofBits 0x7ff0000000000000 else x + y

/-- The order key nearest to a double. What is not a number is taken for zero. -/
def nearestKey (x : Float) : OrderKey :=
  match Finite.ofFloat? x with
  | some ⟨negative, mantissa, exponent⟩ =>
    let magnitude :=
      if 0 ≤ exponent then mantissa <<< exponent.toNat
      else (2 * mantissa + (1 <<< (-exponent).toNat)) >>> ((-exponent).toNat + 1)
    OrderKey.nearest (if negative then -(magnitude : Int) else magnitude)
  | none => if x.isNaN then 0 else if x < 0 then OrderKey.least else OrderKey.greatest

end Binary64

instance : Scalar Float where
  zero := 0
  natCast := Float.ofNat
  intCast := Float.ofInt
  decideLE := inferInstance
  decideLT := inferInstance
  abs := Float.abs
  hypot := Binary64.hypot
  nearestKey := Binary64.nearestKey

end DiagramLayout
