/-!
# Shortest decimals

A floating point number stands for all the reals that are rounded to it. Its shortest decimal is the
one with the fewest digits among these reals, and of those with as few digits the nearest. There may
be a tie between two of them; `Tie` says which one is taken.

The value is a mantissa times a power of two and everything is compared in natural numbers. For one
digit, two digits and so on the two neighbours of the value on the decimal grid are tried. Seventeen
digits always suffice for a double.
-/

namespace DiagramLayout

/-- A natural number with a decimal exponent: `digits * 10 ^ exponent`. -/
structure Decimal where
  digits : Nat
  exponent : Int
deriving DecidableEq, Repr

/-- Which of two neighbours on the decimal grid stands for a value in their midst. -/
inductive Tie where
  /-- The one farther from zero. -/
  | away
  /-- The one with an even last digit. -/
  | even
deriving DecidableEq, Repr

/-- True if a tie between a natural number and its successor goes to the former. -/
def Tie.takesLower (tie : Tie) (digits : Nat) : Bool :=
  match tie with
  | away => false
  | even => digits % 2 == 0

namespace Decimal

/-- A power of ten. -/
abbrev tenPow (exponent : Nat) : Nat := Nat.pow 10 exponent

/-- The number of decimal digits of a natural number; zero has one. -/
def digitCount (n : Nat) : Nat := (Nat.toDigits 10 n).length

/-- The decimal without the zeros at the end of its digits; so many are taken at most. -/
def trim : Nat → Decimal → Decimal
  | 0, d => d
  | fuel + 1, d =>
    if d.digits ≠ 0 ∧ d.digits % 10 = 0 then trim fuel ⟨d.digits / 10, d.exponent + 1⟩ else d

/-- A positive double: `mantissa * 2 ^ exponent`. -/
structure Dyadic where
  mantissa : Nat
  exponent : Int
deriving DecidableEq, Repr

namespace Dyadic

/-- The numerator of the value. -/
def num (v : Dyadic) : Nat := v.mantissa <<< v.exponent.toNat

/-- The denominator of the value. -/
def den (v : Dyadic) : Nat := 1 <<< (-v.exponent).toNat

/-- The exponent of the least power of ten above the value. -/
def magnitude (v : Dyadic) : Int :=
  if v.den ≤ v.num then digitCount (v.num / v.den)
  else
    let inverse := digitCount (v.den / v.num)
    if v.den ≤ v.num * tenPow (inverse - 1) then 2 - (inverse : Int) else 1 - (inverse : Int)

/-- The distance down to the next boundary in quarters of the last binary place. It is halved where
the numbers below lie closer together. -/
def quartersBelow (v : Dyadic) : Nat :=
  if v.mantissa = 1 <<< 52 ∧ -1074 < v.exponent then 1 else 2

/-- True if the decimal is among the reals that are rounded to the value. -/
def admits (v : Dyadic) (d : Decimal) : Bool :=
  let unit := tenPow (-d.exponent).toNat <<< v.exponent.toNat
  let point := 4 * d.digits * tenPow d.exponent.toNat * v.den
  let low := (4 * v.mantissa - v.quartersBelow) * unit
  let high := (4 * v.mantissa + 2) * unit
  if v.mantissa % 2 = 0 then low ≤ point && point ≤ high else low < point && point < high

/-- The nearest decimal with the given exponent that is admitted, if there is one. -/
def nearestWith (v : Dyadic) (tie : Tie) (exponent : Int) : Option Decimal :=
  let num := v.num * tenPow (-exponent).toNat
  let den := v.den * tenPow exponent.toNat
  let low : Decimal := ⟨num / den, exponent⟩
  let high : Decimal := ⟨num / den + 1, exponent⟩
  match v.admits low, v.admits high with
  | true, true =>
    let doubled := 2 * num
    let middle := (low.digits + high.digits) * den
    let below := doubled < middle || (doubled == middle && tie.takesLower low.digits)
    if below then some low else some high
  | true, false => some low
  | false, true => some high
  | false, false => none

/-- The first hit when grids from `count` digits on are tried, and so many grids at most. -/
def search (v : Dyadic) (tie : Tie) : Nat → Nat → Decimal
  | 0, count => ⟨v.num * tenPow (count - v.magnitude).toNat / v.den, v.magnitude - count⟩
  | fuel + 1, count =>
    (v.nearestWith tie (v.magnitude - count)).getD (search v tie fuel (count + 1))

/-- The shortest decimal of a positive double. -/
def shortest (v : Dyadic) (tie : Tie) : Decimal := trim 17 (search v tie 17 1)

end Dyadic

end Decimal

end DiagramLayout
