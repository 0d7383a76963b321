import DiagramLayout.Geometry.Rect

/-!
# Segments and connectors

A connector is an orthogonal route of three segments: from its source to the start of its main line,
along the main line, and from the end of the main line to its target. The main line is vertical or
horizontal and the two other segments are perpendicular to it.

To measure what a line covers it is drawn with a width, as a rectangle around it. A segment without
length covers nothing, however wide the line is.
-/

namespace DiagramLayout

/-- A straight line between two points. -/
structure Segment (α : Type) where
  start : Point α
  stop : Point α
deriving DecidableEq, Repr

/-- An orthogonal route of three segments, given by its four corners. -/
structure Connector (α : Type) where
  source : Point α
  mainStart : Point α
  mainEnd : Point α
  target : Point α
deriving DecidableEq, Repr

variable {α : Type} [Scalar α]

namespace Segment

/-- The distance between the ends. -/
def length (s : Segment α) : α := (s.stop - s.start).length

/-- The rectangle that the segment covers when it is drawn with the given width. -/
def thick (s : Segment α) (lineWidth : α) : Rect α :=
  if (s.stop - s.start).isOrigin then Rect.empty
  else (Rect.spanning s.start s.stop).expand lineWidth lineWidth

end Segment

namespace Connector

/-- The connector all of whose corners are the origin. -/
def collapsed : Connector α := ⟨.origin, .origin, .origin, .origin⟩

/-- The route whose main line is vertical, at `x`. -/
def vertical (source target : Point α) (x : α) : Connector α :=
  ⟨source, ⟨x, source.y⟩, ⟨x, target.y⟩, target⟩

/-- The route whose main line is horizontal, at `y`. -/
def horizontal (source target : Point α) (y : α) : Connector α :=
  ⟨source, ⟨source.x, y⟩, ⟨target.x, y⟩, target⟩

/-- The four corners from source to target. -/
def corners (c : Connector α) : List (Point α) := [c.source, c.mainStart, c.mainEnd, c.target]

/-- The three segments from source to target. -/
def segments (c : Connector α) : List (Segment α) :=
  [⟨c.source, c.mainStart⟩, ⟨c.mainStart, c.mainEnd⟩, ⟨c.mainEnd, c.target⟩]

/-- The length of the whole route. -/
def length (c : Connector α) : α := Scalar.sum (c.segments.map Segment.length)

/-- The least rectangle that reaches all corners. -/
def bounds (c : Connector α) : Rect α :=
  (Rect.spanning c.source c.target).join (Rect.spanning c.mainStart c.mainEnd)

/-- The middle of the main line, where a name is anchored. -/
def middle (c : Connector α) : Point α := c.mainStart.midpoint c.mainEnd

/-- The route moved by an offset. -/
def translate (c : Connector α) (offset : Point α) : Connector α :=
  ⟨c.source + offset, c.mainStart + offset, c.mainEnd + offset, c.target + offset⟩

/-- The area of a rectangle that the drawn segments cover, counted for each segment. -/
def coverage (c : Connector α) (r : Rect α) (lineWidth : α) : α :=
  Scalar.sum (c.segments.map fun s => (s.thick lineWidth).overlapArea r)

/-- The area in which the segments of two drawn routes cover each other, counted for each pair. -/
def crossing (c other : Connector α) (lineWidth : α) : α :=
  let theirs := other.segments.map fun s => s.thick lineWidth
  Scalar.sum (c.segments.map fun s =>
    let ours := s.thick lineWidth
    Scalar.sum (theirs.map fun their => ours.overlapArea their))

/-- The drawn area of a route outside a rectangle, counted for each segment. -/
def areaOutside (c : Connector α) (outer : Rect α) (lineWidth : α) : α :=
  Scalar.sum (c.segments.map fun s => (s.thick lineWidth).areaOutside outer)

end Connector

end DiagramLayout
