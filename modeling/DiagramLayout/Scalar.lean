/-!
# Coordinates

The layout is written once, over any type of coordinates. A `Scalar` brings the four operations, an
order, and three operations that are not arithmetic: the absolute value, the length of a hypotenuse
and the order key nearest to a number. Exact rational numbers and binary floating point are its two
instances.

Nothing here assumes that the order is total: a number that is not below or equal to itself is *not
a number*. `Scalar.max` and `Scalar.min` pass it over, and `Scalar.isFinite` and
`Scalar.isBelowInfinity` are read off the arithmetic, so that for exact numbers all three tests are
settled by the laws of an ordered field.
-/

namespace DiagramLayout

/-- The persisted key that ranks an element along an axis or in a list. -/
abbrev OrderKey := Int32

namespace OrderKey

/-- The least order key. -/
abbrev least : OrderKey := Int32.minValue

/-- The greatest order key. -/
abbrev greatest : OrderKey := Int32.maxValue

/-- The order key nearest to an integer. -/
def nearest (n : Int) : OrderKey :=
  if n < least.toInt then least else if greatest.toInt < n then greatest else Int32.ofInt n

end OrderKey

/-- Numbers that coordinates are made of. -/
class Scalar (α : Type) extends
    Zero α, NatCast α, IntCast α, Neg α, Add α, Sub α, Mul α, Div α, LE α, LT α where
  /-- The order is decided. -/
  decideLE : DecidableLE α
  /-- The strict order is decided. -/
  decideLT : DecidableLT α
  /-- The distance from zero. -/
  abs : α → α
  /-- The length of the hypotenuse over two legs. -/
  hypot : α → α → α
  /-- The nearest order key; halves go away from zero and numbers beyond the keys to the last
  key. -/
  nearestKey : α → OrderKey

namespace Scalar

variable {α : Type} [Scalar α]

instance : DecidableLE α := decideLE

instance : DecidableLT α := decideLT

/-- A natural number as a coordinate. -/
abbrev num (n : Nat) : α := Nat.cast n

/-- An order key as a coordinate. -/
abbrev ofKey (key : OrderKey) : α := Int.cast key.toInt

/-- Only what is not a number fails to be below or equal to itself. -/
def isNaN (x : α) : Bool := !decide (x ≤ x)

/-- Equality as the order sees it, so that a negative zero is a zero. -/
def isZero (x : α) : Bool := decide (x ≤ 0) && decide (0 ≤ x)

/-- Only a finite number leaves zero when it is taken from itself. -/
def isFinite (x : α) : Bool := isZero (x - x)

/-- True of the finite numbers and of whatever lies below all of them. -/
def isBelowInfinity (x : α) : Bool := isFinite x || decide (x < 0)

/-- The larger of two numbers; what is not a number is passed over. -/
protected def max (a b : α) : α := if a < b || isNaN a then b else a

/-- The smaller of two numbers; what is not a number is passed over. -/
protected def min (a b : α) : α := if b < a || isNaN a then b else a

/-- The order in which distances are compared: what is not a number comes after every number. -/
def precedes (a b : α) : Bool := decide (a < b) || (isNaN b && !isNaN a)

/-- The sum of a list, added up from its head. -/
def sum (xs : List α) : α := xs.foldl (· + ·) 0

/-- The largest number of a list, at least `low`. -/
def maxFrom (low : α) (xs : List α) : α := xs.foldl Scalar.max low

/-- The first element of a list with the least measure. -/
def leastBy {β : Type} (measure : β → α) : List β → Option β
  | [] => none
  | x :: xs => some <| xs.foldl
      (fun best y => if precedes (measure y) (measure best) then y else best) x

/-- The cheaper of the best element so far, if there is one, and a further element. The earlier one
wins a tie, and a cost that is not below infinity never wins. -/
def cheaper {β : Type} (cost : β → α) (best : Option (β × α)) (x : β) : Option (β × α) :=
  let c := cost x
  match best with
  | none => if isBelowInfinity c then some (x, c) else none
  | some (_, least) => if c < least then some (x, c) else best

/-- The first element of a list with the least cost, if any cost is below infinity. -/
def cheapestBy {β : Type} (cost : β → α) (xs : List β) : Option β :=
  (xs.foldl (cheaper cost) none).map Prod.fst

@[simp] theorem sum_nil : sum ([] : List α) = 0 := rfl

@[simp] theorem maxFrom_nil (low : α) : maxFrom low [] = low := rfl

@[simp] theorem maxFrom_cons (low x : α) (xs : List α) :
    maxFrom low (x :: xs) = maxFrom (Scalar.max low x) xs := rfl

end Scalar

end DiagramLayout
