import DiagramLayout.Geometry.Rect
import DiagramLayout.Scale

/-!
# Grids

A grid covers the drawing area of a diagram with two scales. In a structural diagram both turn order
keys of classifiers into coordinates. In a scenario one of them measures time instead: downwards in
a sequence diagram, to the right in a timing diagram.
-/

namespace DiagramLayout

/-- One of the two axes of the plane. -/
inductive Axis where
  | x
  | y
deriving DecidableEq, Repr

/-- What the two scales of a grid measure. -/
inductive GridKind where
  /-- Both axes place classifiers. -/
  | xy
  /-- Time runs along `y`; classifiers are placed along `x`. -/
  | timeY
  /-- Time runs along `x`; classifiers are placed along `y`. -/
  | timeX
deriving DecidableEq, Repr

namespace GridKind

/-- The name of a kind of grid. -/
def name : GridKind → String
  | xy => "XY"
  | timeY => "TimeY"
  | timeX => "TimeX"

/-- Every kind of grid. -/
def all : List GridKind := [xy, timeY, timeX]

/-- The axis along which time runs. -/
def timeAxis : GridKind → Option Axis
  | xy => none
  | timeY => some .y
  | timeX => some .x

/-- True if the grid places classifiers along an axis. -/
def places (kind : GridKind) (axis : Axis) : Bool := kind.timeAxis != some axis

/-- An offset without its part along the time axis, where classifiers keep their place. -/
def project {α : Type} [Scalar α] (kind : GridKind) (offset : Point α) : Point α :=
  match kind.timeAxis with
  | none => offset
  | some .y => offset.withY 0
  | some .x => offset.withX 0

end GridKind

/-- Two scales over a drawing area. -/
structure Grid (α : Type) where
  kind : GridKind
  x : Scale α
  y : Scale α
deriving DecidableEq, Repr

namespace Grid

variable {α : Type} [Scalar α]

/-- The grid over an area, without anchors. -/
def spanning (area : Rect α) (kind : GridKind) : Grid α :=
  ⟨kind, .spanning area.minX area.maxX, .spanning area.minY area.maxY⟩

/-- The scale along an axis. -/
def scale (g : Grid α) : Axis → Scale α
  | .x => g.x
  | .y => g.y

/-- The grid with the scale along an axis changed. -/
def modifyScale (g : Grid α) (axis : Axis) (change : Scale α → Scale α) : Grid α :=
  match axis with
  | .x => { g with x := change g.x }
  | .y => { g with y := change g.y }

/-- The scale that measures time, if there is one. -/
def timeScale (g : Grid α) : Option (Scale α) := g.kind.timeAxis.map g.scale

/-- The grid with its time scale changed, if there is one. -/
def modifyTimeScale (g : Grid α) (change : Scale α → Scale α) : Grid α :=
  match g.kind.timeAxis with
  | some axis => g.modifyScale axis change
  | none => g

/-- The point that belongs to a pair of order keys. -/
def location (g : Grid α) (xKey yKey : OrderKey) : Point α := ⟨g.x.location xKey, g.y.location yKey⟩

/-- The grid with the anchors of one classifier, on the axes that place classifiers. -/
def addKeys (g : Grid α) (xKey yKey : OrderKey) : Grid α :=
  let g := if g.kind.places .x then g.modifyScale .x (·.addKey xKey) else g
  if g.kind.places .y then g.modifyScale .y (·.addKey yKey) else g

end Grid

end DiagramLayout
