import DiagramLayout.Classifiers.Stranger
import DiagramLayout.Debt
import DiagramLayout.Ranking

/-!
# Spreading classifiers

The second step moves classifiers apart, one after the other, the simplest first. A classifier whose
turn it is chooses the cheapest of a few offsets:

* staying;
* going back into the draw area;
* the least shifts up, down, left and right that clear the strangers which have their place already;
* on a free grid, the nearest free slot in its neighbourhood;
* if it sticks out of the draw area, going back and then clear of every stranger in one of the four
  directions.

An offset that would add overlap with strangers is not eligible, so the overlap never grows. In a
scenario classifiers stay on their row or column.
-/

namespace DiagramLayout

variable {α : Type} [Scalar α]

/-- The distance that a box has to go in a direction to pass an obstacle by the gap. -/
def clearance (gap : α) (box : Rect α) (direction : Direction) (obstacle : Rect α) : α :=
  match direction with
  | .up => box.maxY - (obstacle.minY - gap)
  | .down => obstacle.maxY + gap - box.minY
  | .left => box.maxX - (obstacle.minX - gap)
  | .right => obstacle.maxX + gap - box.minX
  | _ => 0

/-- The longest of the ways past the obstacles that a box overlaps. -/
def clearingStep (gap : α) (box : Rect α) (obstacles : List (Rect α)) (direction : Direction) : α :=
  Scalar.maxFrom 0 ((obstacles.filter (·.overlaps box)).map (clearance gap box direction))

/-- The offset after at most so many steps in a direction, each of which passes all obstacles that
are overlapped before it. -/
def shiftFrom (gap : α) (box : Rect α) (obstacles : List (Rect α)) (direction : Direction) :
    Nat → Point α → Point α
  | 0, offset => offset
  | rounds + 1, offset =>
    let step := clearingStep gap (box.translate offset) obstacles direction
    if step ≤ 0 then offset
    else shiftFrom gap box obstacles direction rounds (offset + direction.step.scale step)

/-- The shift in a direction that clears every obstacle the box runs into. As many steps as there
are obstacles are enough, and one more finds that nothing is left to clear. -/
def shiftClear (gap : α) (box : Rect α) (obstacles : List (Rect α)) (direction : Direction) :
    Point α :=
  shiftFrom gap box obstacles direction (obstacles.length + 1) .origin

/-- The directions in which classifiers are shifted. -/
def shiftDirections : List Direction := [.up, .down, .left, .right]

/-- True if a box of a size has room in a rectangle. -/
def fits (size : Size α) (free : Rect α) : Bool :=
  size.width ≤ free.width && size.height ≤ free.height

/-- The way from a center to the nearest one that keeps a box of a size within `free`. -/
def wayInto (size : Size α) (center : Point α) (free : Rect α) : Guarded (Point α) := do
  let nearest ← (centerRegion free size).nearestPoint center
  return nearest - center

/-- The strip with the shortest way into it, the first one on a tie. The ways are measured only if
there is a choice. -/
def nearestStrip (size : Size α) (center : Point α) : List (Rect α) → Guarded (Option (Rect α))
  | [] => return none
  | [only] => return some only
  | strips => do
    let measured ← strips.mapM fun strip => do
      let way ← wayInto size center strip
      return (strip, way.manhattanLength)
    return (Scalar.leastBy Prod.snd measured).map Prod.fst

/-- A free rectangle narrowed by an obstacle to the nearest strip beside it that still has room. -/
def narrow (size : Size α) (center : Point α) (free : Option (Rect α)) (obstacle : Rect α) :
    Guarded (Option (Rect α)) :=
  match free with
  | none => return none
  | some free =>
    if obstacle.overlaps free then
      nearestStrip size center ((free.stripsOutside obstacle).filter (fits size))
    else return some free

/-- The offset to the nearest free slot in the neighbourhood. The search starts in the box grown by
half its size and the gap on each side, as far as that lies in the draw area. -/
def slotOffset (gap : α) (box : Rect α) (obstacles : List (Rect α)) (drawArea : Rect α) :
    Guarded (Option (Point α)) := do
  let size := box.size
  let grown := box.expand (size.width + Scalar.num 2 * gap) (size.height + Scalar.num 2 * gap)
  let neighbourhood := grown.overlap drawArea
  if !fits size neighbourhood then return none
  match ← obstacles.foldlM (narrow size box.center) (some neighbourhood) with
  | none => return none
  | some free => some <$> wayInto size box.center free

/-- The situation in which a classifier chooses its offset. -/
structure Turn (α : Type) where
  gap : α
  kind : GridKind
  drawArea : Rect α
  nesting : Nesting
  envelopes : List (Rect α)
  /-- The classifiers that have had their turn. -/
  placed : List Nat
  /-- The classifier whose turn it is. -/
  index : Nat

namespace Turn

/-- The envelope of the classifier whose turn it is. -/
def current (t : Turn α) : Rect α := t.envelopes.getD t.index .empty

/-- The envelopes of all its strangers. -/
def strangers (t : Turn α) : List (Rect α) := DiagramLayout.strangers t.nesting t.index t.envelopes

/-- The envelopes of its strangers that have had their turn. -/
def obstacles (t : Turn α) : List (Rect α) :=
  (t.envelopes.zipIdx.filter fun (_, other) =>
    t.placed.contains other && !t.nesting.related t.index other).map Prod.fst

/-- The overlap with strangers after an offset. -/
def overlapAfter (t : Turn α) (offset : Point α) : α :=
  strangerOverlap t.nesting t.index t.envelopes (t.current.translate offset)

/-- An offset is eligible if it does not add overlap with strangers. -/
def isEligible (t : Turn α) (offset : Point α) : Bool :=
  !decide (strangerOverlap t.nesting t.index t.envelopes t.current < t.overlapAfter offset)

/-- What an offset costs: its length, the area outside the draw area and the overlap after it. -/
def cost (t : Turn α) (offset : Point α) : α :=
  let moved := t.current.translate offset
  let overlap := Scalar.sum <|
    (t.envelopes.zipIdx.filter fun (_, other) => other != t.index).map fun (envelope, other) =>
      Debt.ofClassifiersWhile t.nesting t.placed t.index moved other envelope
  offset.manhattanLength + Debt.outsideWeight * moved.areaOutside t.drawArea + overlap

/-- The offsets back into the draw area and then clear of every stranger. -/
def returnOffsets (t : Turn α) : List (Point α) :=
  let inside := t.current.offsetInto t.drawArea
  if inside.isOrigin then []
  else shiftDirections.map fun direction =>
    inside + shiftClear t.gap (t.current.translate inside) t.strangers direction

/-- The offset to a free slot, which only a free grid admits. -/
def slotOffset? (t : Turn α) : Guarded (Option (Point α)) :=
  match t.kind with
  | .xy => slotOffset t.gap t.current t.obstacles t.drawArea
  | _ => return none

/-- All offsets to choose from, in the order in which they are tried, without their part along a
time axis. -/
def candidates (t : Turn α) : Guarded (List (Point α)) := do
  let slot ← t.slotOffset?
  let shifts := shiftDirections.map fun direction =>
    shiftClear t.gap t.current t.obstacles direction
  let stays := [.origin, t.current.offsetInto t.drawArea]
  let offsets := stays ++ shifts ++ slot.toList ++ t.returnOffsets
  return offsets.map t.kind.project

/-- The offset that is chosen. -/
def choice (t : Turn α) : Guarded (Point α) := do
  let candidates ← t.candidates
  return (Scalar.cheapestBy t.cost (candidates.filter t.isEligible)).getD .origin

end Turn

/-- The drawing while classifiers are moved apart. -/
structure Spreading (α : Type) where
  drawing : Drawing α
  /-- The classifiers that have had their turn. -/
  placed : List Nat
  /-- How far each classifier has been moved. -/
  offsets : List (Point α)

namespace Spreading

/-- The situation of the classifier at a position. -/
def turn (config : Config α) (s : Spreading α) (index : Nat) : Turn α where
  gap := config.distance
  kind := s.drawing.sheet.grid.kind
  drawArea := s.drawing.sheet.drawArea
  nesting := s.drawing.nesting
  envelopes := s.drawing.envelopes
  placed := s.placed
  index := index

/-- One classifier takes its turn. -/
def step (config : Config α) (s : Spreading α) (index : Nat) : Guarded (Spreading α) := do
  let offset ← (s.turn config index).choice
  return {
    drawing := if offset.isOrigin then s.drawing else s.drawing.translateClassifier index offset
    placed := Debt.markPlaced s.drawing.nesting s.placed index
    offsets := s.offsets.set index offset }

end Spreading

namespace Drawing

/-- The weight of a classifier in the order of turns. Simpler classifiers weigh less. -/
def simpleness (d : Drawing α) (index : Nat) : α :=
  let boxes := d.boxes index
  let area := boxes.envelope.area
  let weight := Scalar.num 16 * boxes.envelope.areaOutside d.sheet.drawArea - Scalar.num 16 * area
    - strangerOverlap d.nesting index d.envelopes boxes.envelope - boxes.space.area
  if 0 < d.nesting.descendantCount index then weight + Scalar.num 32 * area else weight

/-- The ranking of the classifiers by simpleness. -/
def turnRanking (config : Config α) (d : Drawing α) : Ranking α :=
  Ranking.ofWeights config.limits.classifiers <|
    (List.range d.classifiers.length).map fun i => (i, d.simpleness i)

/-- Moves the classifiers apart and tells how far each one has been moved. -/
def moveApart (config : Config α) (d : Drawing α) : Guarded (Drawing α × List (Point α)) := do
  let start : Spreading α := ⟨d, [], d.classifiers.map fun _ => .origin⟩
  let finish ← (d.turnRanking config).order.foldlM (Spreading.step config) start
  return (finish.drawing, finish.offsets)

end Drawing

end DiagramLayout
