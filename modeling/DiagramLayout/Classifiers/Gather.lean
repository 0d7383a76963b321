import DiagramLayout.Classifiers.Stranger
import DiagramLayout.Composer
import DiagramLayout.Ranking

/-!
# Gathering groups

The fifth step fits every container around all that it encloses and moves the group, inner
containers first. Strangers cut the draw area down to a free rectangle, each leaving the strip that
the container covers most. If the container fits in there with room to spare, the group goes a third
of the way towards the middle of that rectangle, as far as it can without leaving it; otherwise it
stays as it is.
-/

namespace DiagramLayout

variable {α : Type} [Scalar α]

/-- The strip beside an obstacle that a box covers most. The first one wins a tie, unless it is
empty. -/
def mostCoveredStrip (box : Rect α) (free obstacle : Rect α) : Rect α :=
  (free.stripsOutside obstacle).foldl (fun best strip =>
    if best.overlapArea box < strip.overlapArea box || best.isEmpty then strip else best) .empty

/-- What is left of a free rectangle beside an obstacle. -/
def cutFree (box : Rect α) (free obstacle : Rect α) : Rect α :=
  if obstacle.overlaps free then mostCoveredStrip box free obstacle else free

/-- True if a box fits in a rectangle with room to spare along both axes. -/
def fitsLoosely (free box : Rect α) : Bool :=
  !(free.width - box.width ≤ 0 || free.height - box.height ≤ 0)

/-- The offset of a box towards the middle of a free rectangle. -/
def offsetTowards (free box : Rect α) : Guarded (Point α) := do
  let current := box.center
  let third : α := Scalar.num 1 / Scalar.num 3
  let twoThirds : α := Scalar.num 2 / Scalar.num 3
  let goal := free.center.scale third + current.scale twoThirds
  let reached ← (centerRegion free box.size).nearestPoint goal
  return reached - current

/-- The least rectangle that contains all rectangles of a list, if there is one. -/
def joinAll : List (Rect α) → Option (Rect α)
  | [] => none
  | r :: rs => some (rs.foldl Rect.join r)

namespace Drawing

/-- The boxes of a container fitted around a region. -/
def fittedBoxes (m : Composer α) (config : Config α) (c : Classifier) (union : Rect α) :
    ClassifierBoxes α :=
  m.aroundSpace c (union.pad (.uniform config.distance)) true

/-- The rectangle that the strangers of a container leave free for it. -/
def freeFor (d : Drawing α) (index : Nat) (box : Rect α) : Rect α :=
  (strangers d.nesting index d.envelopes).foldl (cutFree box) d.sheet.drawArea

/-- One container is fitted around what it encloses and moved with it, if there is room. -/
def gatherStep (m : Composer α) (config : Config α) (d : Drawing α) (index : Nat) :
    Guarded (Drawing α) := do
  let descendants := d.nesting.descendants index
  if descendants.any fun other => d.nesting.encloses other index then return d
  match d.classifiers[index]?, joinAll (descendants.map fun other => (d.boxes other).envelope) with
  | some container, some union =>
    let fitted := fittedBoxes m config container.element union
    let free := d.freeFor index fitted.envelope
    if !fitsLoosely free fitted.envelope then return d
    let offset ← offsetTowards free fitted.envelope
    let moved := d.setBoxes index (fitted.translate offset)
    return descendants.foldl (fun d other => d.translateClassifier other offset) moved
  | _, _ => return d

/-- The ranking of the containers, by how many classifiers they enclose. -/
def containerRanking (config : Config α) (d : Drawing α) : Ranking α :=
  let containers := (List.range d.classifiers.length).filter fun i =>
    decide (0 < d.nesting.descendantCount i)
  Ranking.ofWeights config.limits.classifiers <|
    containers.map fun i => (i, Scalar.num (d.nesting.descendantCount i))

/-- Fits the containers around what they enclose and moves the groups. -/
def gatherGroups (m : Composer α) (config : Config α) (d : Drawing α) : Guarded (Drawing α) :=
  (d.containerRanking config).order.foldlM (gatherStep m config) d

end Drawing

end DiagramLayout
