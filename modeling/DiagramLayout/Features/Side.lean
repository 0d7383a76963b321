import DiagramLayout.Geometry.Direction
import DiagramLayout.Geometry.Rect

/-!
# Sides of a symbol

A feature on the border of a symbol has its place from its list key. The keys in ascending order
walk around the symbol against the clock, from its lower right corner: up the right side, along the
top to the left, down the left side and along the bottom to the right. A quarter of the keys belongs
to each side.
-/

namespace DiagramLayout

/-- One of the four sides of a symbol. -/
inductive Side where
  | right
  | top
  | left
  | bottom
deriving DecidableEq, Repr

namespace Side

variable {α : Type} [Scalar α]

/-- The name of a side. -/
def name : Side → String
  | right => "Right"
  | top => "Top"
  | left => "Left"
  | bottom => "Bottom"

/-- Every side, in the order of the walk. -/
def all : List Side := [right, top, left, bottom]

/-- The keys at which the walk along a side starts and ends. -/
def span : Side → Int × Int
  | right => (OrderKey.least.toInt, -0x40000000)
  | top => (-0x40000000, 0)
  | left => (0, 0x40000000)
  | bottom => (0x40000000, OrderKey.greatest.toInt)

/-- The side to which a list key belongs. -/
def ofKey (key : OrderKey) : Side :=
  if key.toInt < top.span.1 then right
  else if key.toInt < left.span.1 then top
  else if key.toInt < bottom.span.1 then left
  else bottom

/-- How far along its side a list key is, from zero at the start to one at the end. -/
def fractionOfKey (key : OrderKey) : α :=
  let (start, stop) := (ofKey key).span
  Int.cast (key.toInt - start) / Int.cast (stop - start)

/-- The direction away from the symbol. -/
def outward : Side → Direction
  | right => .right
  | top => .up
  | left => .left
  | bottom => .down

/-- The coordinate at a fraction of the way from `start` to `stop`, kept off both ends by a margin.
Where there is no room for the margins it is the middle. -/
def along (start stop fraction margin : α) : Guarded α := do
  let (low, high) := if start ≤ stop then (start, stop) else (stop, start)
  let share ← clamp 0 (Scalar.num 1) fraction
  if Scalar.num 2 * margin < high - low then
    clamp (low + margin) (high - margin) (start + (stop - start) * share)
  else return (low + high) / Scalar.num 2

/-- The point of a side at a fraction of the walk along it. -/
def point (side : Side) (symbol : Rect α) (fraction margin : α) : Guarded (Point α) :=
  match side with
  | right => (⟨symbol.maxX, ·⟩) <$> along symbol.maxY symbol.minY fraction margin
  | top => (⟨·, symbol.minY⟩) <$> along symbol.maxX symbol.minX fraction margin
  | left => (⟨symbol.minX, ·⟩) <$> along symbol.minY symbol.maxY fraction margin
  | bottom => (⟨·, symbol.maxY⟩) <$> along symbol.minX symbol.maxX fraction margin

end Side

end DiagramLayout
