import DiagramLayout.Geometry.Point
import DiagramLayout.Guarded

/-!
# Rectangles

Axis-parallel rectangles, given by their least and greatest coordinates. A rectangle whose width or
height is not positive is *empty*: it has no area and overlaps nothing. The overlap of rectangles
that share no area is the empty rectangle at the origin, whatever kept them apart.

The operations are total. Reversed edges, disjoint rectangles and rectangles without extent all have
an answer; only `Rect.nearestPoint` is guarded, because there is no nearest point of a rectangle
whose least edge is not a number.
-/

namespace DiagramLayout

/-- An axis-parallel rectangle. -/
structure Rect (α : Type) where
  minX : α
  minY : α
  maxX : α
  maxY : α
deriving DecidableEq, Repr

variable {α : Type} [Scalar α]

namespace Rect

/-- The empty rectangle at the origin. -/
def empty : Rect α := ⟨0, 0, 0, 0⟩

/-- The rectangle with the given upper left corner and extent. -/
def ofCorner (left top width height : α) : Rect α := ⟨left, top, left + width, top + height⟩

/-- The rectangle of the given size around a center. -/
def centered (center : Point α) (size : Size α) : Rect α :=
  let halfWidth := size.width / Scalar.num 2
  let halfHeight := size.height / Scalar.num 2
  ⟨center.x - halfWidth, center.y - halfHeight, center.x + halfWidth, center.y + halfHeight⟩

/-- The least rectangle that reaches two points. -/
def spanning (p q : Point α) : Rect α :=
  ⟨Scalar.min p.x q.x, Scalar.min p.y q.y, Scalar.max p.x q.x, Scalar.max p.y q.y⟩

/-- The point in the middle. -/
def center (r : Rect α) : Point α :=
  ⟨(r.minX + r.maxX) / Scalar.num 2, (r.minY + r.maxY) / Scalar.num 2⟩

/-- The extent along `x`. -/
def width (r : Rect α) : α := r.maxX - r.minX

/-- The extent along `y`. -/
def height (r : Rect α) : α := r.maxY - r.minY

/-- The extent along both axes. -/
def size (r : Rect α) : Size α := ⟨r.width, r.height⟩

/-- True if no area is covered. -/
def isEmpty (r : Rect α) : Bool := r.width ≤ 0 || r.height ≤ 0

/-- The area that is covered. -/
def area (r : Rect α) : α := if r.isEmpty then 0 else r.width * r.height

/-- The region that two rectangles share. Rectangles that merely touch share none. -/
def overlap (a b : Rect α) : Rect α :=
  let minX := Scalar.max a.minX b.minX
  let minY := Scalar.max a.minY b.minY
  let maxX := Scalar.min a.maxX b.maxX
  let maxY := Scalar.min a.maxY b.maxY
  if maxX ≤ minX || maxY ≤ minY then empty else ⟨minX, minY, maxX, maxY⟩

/-- The area that two rectangles share. -/
def overlapArea (a b : Rect α) : α := (a.overlap b).area

/-- True if two rectangles share an area. -/
def overlaps (a b : Rect α) : Bool := !(a.overlap b).isEmpty

/-- The area of a rectangle that lies outside another. -/
def areaOutside (r outer : Rect α) : α := Scalar.max (r.area - r.overlapArea outer) 0

/-- True if `inner` lies within `r`; the edges belong to both. -/
def contains (r inner : Rect α) : Bool :=
  r.minX ≤ inner.minX && r.minY ≤ inner.minY && inner.maxX ≤ r.maxX && inner.maxY ≤ r.maxY

/-- True if a point lies within the rectangle or on its edges. -/
def containsPoint (r : Rect α) (p : Point α) : Bool :=
  r.minX ≤ p.x && p.x ≤ r.maxX && r.minY ≤ p.y && p.y ≤ r.maxY

/-- The least rectangle that contains both. -/
def join (a b : Rect α) : Rect α :=
  ⟨Scalar.min a.minX b.minX, Scalar.min a.minY b.minY,
    Scalar.max a.maxX b.maxX, Scalar.max a.maxY b.maxY⟩

/-- The rectangle moved by an offset. -/
def translate (r : Rect α) (offset : Point α) : Rect α :=
  ⟨r.minX + offset.x, r.minY + offset.y, r.maxX + offset.x, r.maxY + offset.y⟩

/-- The rectangle moved back by an offset. -/
def translateBack (r : Rect α) (offset : Point α) : Rect α :=
  ⟨r.minX - offset.x, r.minY - offset.y, r.maxX - offset.x, r.maxY - offset.y⟩

/-- The rectangle grown outward by the insets. -/
def pad (r : Rect α) (insets : Insets α) : Rect α :=
  ⟨r.minX - insets.left, r.minY - insets.top, r.maxX + insets.right, r.maxY + insets.bottom⟩

/-- An interval narrowed from both ends, or its middle twice if nothing is left of it. -/
def shrinkAxis (low high atLow atHigh : α) : α × α :=
  if high - atHigh < low + atLow then
    let middle := (low + high) / Scalar.num 2
    (middle, middle)
  else (low + atLow, high - atHigh)

/-- The rectangle shrunk inward by the insets. An axis on which nothing is left collapses onto its
center line. -/
def shrink (r : Rect α) (insets : Insets α) : Rect α :=
  let (minX, maxX) := shrinkAxis r.minX r.maxX insets.left insets.right
  let (minY, maxY) := shrinkAxis r.minY r.maxY insets.top insets.bottom
  ⟨minX, minY, maxX, maxY⟩

/-- The rectangle grown around its center; no extent falls below zero. -/
def expand (r : Rect α) (width height : α) : Rect α :=
  centered r.center ⟨Scalar.max (r.width + width) 0, Scalar.max (r.height + height) 0⟩

/-- The rectangle grown from its upper left corner; no extent falls below zero. -/
def enlarge (r : Rect α) (width height : α) : Rect α :=
  ⟨r.minX, r.minY,
    r.minX + Scalar.max (r.width + width) 0, r.minY + Scalar.max (r.height + height) 0⟩

/-- The shift that brings an interval into another. One that does not fit, or fits exactly, is
aligned at the lower end. -/
def offsetIntoAxis (low high outerLow outerHigh : α) : α :=
  if outerHigh - outerLow ≤ high - low || low < outerLow then outerLow - low
  else if outerHigh < high then outerHigh - high
  else 0

/-- The offset that brings a rectangle into another. -/
def offsetInto (r outer : Rect α) : Point α :=
  ⟨offsetIntoAxis r.minX r.maxX outer.minX outer.maxX,
    offsetIntoAxis r.minY r.maxY outer.minY outer.maxY⟩

/-- The point of a rectangle nearest to `p`. A reversed axis has its lower edge as its only
point. -/
def nearestPoint (r : Rect α) (p : Point α) : Guarded (Point α) := do
  let x ← clamp r.minX (Scalar.max r.maxX r.minX) p.x
  let y ← clamp r.minY (Scalar.max r.maxY r.minY) p.y
  return ⟨x, y⟩

/-- The rectangle itself, or the one empty rectangle. -/
def orEmpty (r : Rect α) : Rect α := if r.isEmpty then empty else r

/-- The parts of a rectangle to the left of an obstacle, to its right, above and below it. Each
spans the whole rectangle along the other axis. -/
def stripsOutside (r obstacle : Rect α) : List (Rect α) :=
  [orEmpty { r with maxX := Scalar.min r.maxX obstacle.minX },
    orEmpty { r with minX := Scalar.max r.minX obstacle.maxX },
    orEmpty { r with maxY := Scalar.min r.maxY obstacle.minY },
    orEmpty { r with minY := Scalar.max r.minY obstacle.maxY }]

end Rect

end DiagramLayout
