import DiagramLayout.Decimal.Shortest
import DiagramLayout.Scalar.Binary64

/-!
# Numbers as text

A double is written with the digits of its shortest decimal. `DecimalStyle` says how they are laid
out: in which range of decimal exponents no exponent is written, whether a whole number has a
fraction, what happens to the sign of a zero, and which of two shortest decimals is taken.
-/

namespace DiagramLayout

/-- The layout of the digits of a number. -/
structure DecimalStyle where
  /-- The decimal exponents of the first digit for which the point is in its place; without bounds
  there is never an exponent. -/
  positional : Option (Int × Int)
  /-- Whether a whole number ends in a fraction of zero. -/
  wholeFraction : Bool
  /-- Whether a positive exponent has a sign. -/
  plusSign : Bool
  /-- Whether a negative zero has its sign. -/
  signedZero : Bool
  /-- Which of two shortest decimals that are equally near is taken. -/
  tie : Tie
deriving DecidableEq, Repr

namespace DecimalStyle

/-- True if the point is written in its place when the first digit has the given exponent. -/
def isPositional (style : DecimalStyle) (exponent : Int) : Bool :=
  match style.positional with
  | some (low, high) => low ≤ exponent && exponent ≤ high
  | none => true

/-- A text of zeros. -/
def zeros (count : Nat) : String := String.ofList (List.replicate count '0')

/-- Digits with the point in its place. -/
def plain (style : DecimalStyle) (digits : List Char) (exponent : Int) : String :=
  let point := digits.length + exponent
  if 0 ≤ exponent then
    String.ofList digits ++ zeros exponent.toNat ++ (if style.wholeFraction then ".0" else "")
  else if 0 < point then
    String.ofList (digits.take point.toNat) ++ "." ++ String.ofList (digits.drop point.toNat)
  else "0." ++ zeros (-point).toNat ++ String.ofList digits

/-- Digits with the point after the first one, and an exponent. -/
def scientific (style : DecimalStyle) (digits : List Char) (exponent : Int) : String :=
  let fraction := digits.drop 1
  let sign := if style.plusSign && 0 ≤ exponent then "+" else ""
  let behindPoint := if fraction.isEmpty then "" else "." ++ String.ofList fraction
  String.ofList (digits.take 1) ++ behindPoint ++ "e" ++ sign ++ toString exponent

/-- The text of a decimal. -/
def writeDecimal (style : DecimalStyle) (d : Decimal) : String :=
  let digits := Nat.toDigits 10 d.digits
  let first := digits.length + d.exponent - 1
  if style.isPositional first then style.plain digits d.exponent
  else style.scientific digits first

/-- The text of a double. -/
def write (style : DecimalStyle) (x : Float) : String :=
  match Binary64.Finite.ofFloat? x with
  | some parts =>
    let isZero := parts.mantissa == 0
    let sign := if parts.negative && (!isZero || style.signedZero) then "-" else ""
    let magnitude :=
      if isZero then ⟨0, 0⟩ else Decimal.Dyadic.shortest ⟨parts.mantissa, parts.exponent⟩ style.tie
    sign ++ style.writeDecimal magnitude
  | none => if x.isNaN then "NaN" else if x < 0 then "-inf" else "inf"

/-- Numbers in reports and messages: never an exponent, and no fraction where there is none. -/
def report : DecimalStyle := ⟨none, false, false, true, .away⟩

end DecimalStyle

end DiagramLayout
