import DiagramLayout.Decimal.Shortest
import DiagramLayout.Scalar.Binary64

/-!
# Reading decimals

The double nearest to a decimal, a tie going to the even neighbour. A quotient is taken to more
binary digits than a double holds and a last digit records whether anything is left of it, so that
the one rounding that follows sees on which side of a tie it is.
-/

namespace DiagramLayout

namespace Binary64

/-- The double nearest to a quotient. -/
def ofQuotient (num den : Nat) : Float :=
  let shift := 56 + bitLength den - bitLength num
  let scaled := num <<< shift
  let inexact := scaled % den != 0
  ofDyadic (2 * (scaled / den) + inexact.toNat) (-shift - 1)

end Binary64

/-- The double nearest to a decimal. Beyond the largest double it is infinite; decimals far outside
the range of doubles are told by the position of their first digit. -/
def Decimal.nearest (d : Decimal) : Float :=
  let first := digitCount d.digits + d.exponent
  if d.digits = 0 ∨ first < -330 then 0
  else if 310 < first then Float.ofBits 0x7ff0000000000000
  else Binary64.ofQuotient (d.digits * tenPow d.exponent.toNat) (tenPow (-d.exponent).toNat)

end DiagramLayout
