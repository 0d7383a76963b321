import DiagramLayout.Scalar

/-!
# Points, sizes and insets

The plane has its origin in the upper left corner: `x` grows to the right and `y` downwards. A point
serves as a position and as an offset between positions.
-/

namespace DiagramLayout

/-- A position in the plane, or the offset between two of them. -/
structure Point (α : Type) where
  x : α
  y : α
deriving DecidableEq, Repr

/-- The extent of a box. -/
structure Size (α : Type) where
  width : α
  height : α
deriving DecidableEq, Repr

/-- Distances to keep from the four sides of a box. -/
structure Insets (α : Type) where
  top : α
  right : α
  bottom : α
  left : α
deriving DecidableEq, Repr

variable {α : Type} [Scalar α]

namespace Insets

/-- The same distance on every side. -/
def uniform (distance : α) : Insets α := ⟨distance, distance, distance, distance⟩

/-- The insets with another distance from the upper side. -/
def withTop (insets : Insets α) (top : α) : Insets α := { insets with top }

/-- What the insets take from the width. -/
def horizontal (insets : Insets α) : α := insets.left + insets.right

/-- What the insets take from the height. -/
def vertical (insets : Insets α) : α := insets.top + insets.bottom

end Insets

namespace Point

/-- The origin of the plane, which is also the offset that moves nothing. -/
def origin : Point α := ⟨0, 0⟩

/-- True of the offset that moves nothing. -/
def isOrigin (p : Point α) : Bool := Scalar.isZero p.x && Scalar.isZero p.y

/-- The point with another `x`. -/
def withX (p : Point α) (x : α) : Point α := { p with x }

/-- The point with another `y`. -/
def withY (p : Point α) (y : α) : Point α := { p with y }

instance : Add (Point α) := ⟨fun p q => ⟨p.x + q.x, p.y + q.y⟩⟩

instance : Sub (Point α) := ⟨fun p q => ⟨p.x - q.x, p.y - q.y⟩⟩

@[simp] theorem add_x (p q : Point α) : (p + q).x = p.x + q.x := rfl

@[simp] theorem add_y (p q : Point α) : (p + q).y = p.y + q.y := rfl

@[simp] theorem sub_x (p q : Point α) : (p - q).x = p.x - q.x := rfl

@[simp] theorem sub_y (p q : Point α) : (p - q).y = p.y - q.y := rfl

/-- The point halfway to another. -/
def midpoint (p q : Point α) : Point α :=
  ⟨(p.x + q.x) / Scalar.num 2, (p.y + q.y) / Scalar.num 2⟩

/-- The distance from the origin. -/
def length (p : Point α) : α := Scalar.hypot p.x p.y

/-- The distance from the origin along the axes; it is what a move by this offset costs. -/
def manhattanLength (p : Point α) : α := Scalar.abs p.x + Scalar.abs p.y

/-- The point whose coordinates are multiplied by a factor. -/
def scale (p : Point α) (factor : α) : Point α := ⟨p.x * factor, p.y * factor⟩

/-- The point with the absolute values of the coordinates. -/
def abs (p : Point α) : Point α := ⟨Scalar.abs p.x, Scalar.abs p.y⟩

end Point

namespace Size

/-- No extent at all. -/
def zero : Size α := ⟨0, 0⟩

/-- The least size that is as wide and as high as both. -/
protected def max (a b : Size α) : Size α :=
  ⟨Scalar.max a.width b.width, Scalar.max a.height b.height⟩

/-- The size grown by the insets. -/
def pad (size : Size α) (insets : Insets α) : Size α :=
  ⟨size.width + insets.horizontal, size.height + insets.vertical⟩

/-- The size with both extents multiplied by a factor. -/
def scale (size : Size α) (factor : α) : Size α := ⟨size.width * factor, size.height * factor⟩

/-- True if there is no extent along either axis. -/
def isZero (size : Size α) : Bool := Scalar.isZero size.width && Scalar.isZero size.height

/-- The area that is covered, none if an extent is not positive. -/
def area (size : Size α) : α :=
  if size.width ≤ 0 || size.height ≤ 0 then 0 else size.width * size.height

end Size

end DiagramLayout
