import DiagramLayout.Classifiers.Stranger
import DiagramLayout.Composer
import DiagramLayout.Ranking

/-!
# Embracing children

The third step grows containers around their children, one containment relationship after the other,
those of inner containers first. The first child extends the envelope of its parent, a further one
only the space. A growth that would leave the draw area or add overlap with a stranger is not made.

Where the space of a parent then holds the symbol of a child, the nesting says what the line would,
and the relationship is not drawn: that is the fourth step.

A containment of a classifier in itself, or one on a cycle, takes no part in either step.
-/

namespace DiagramLayout

variable {α : Type} [Scalar α]

/-- A containment relationship with its ends, all by position. -/
structure Containment where
  relationship : Nat
  parent : Nat
  child : Nat
deriving DecidableEq, Repr

/-- A containment is usable if its ends differ and its child does not enclose its parent. -/
def Containment.isUsable (nesting : Nesting) (c : Containment) : Bool :=
  c.parent != c.child && !nesting.encloses c.child c.parent

/-- A drawing whose containers are being grown. -/
structure Embracing (α : Type) where
  drawing : Drawing α
  /-- The parents that have embraced a child already. -/
  parents : List Nat

namespace Drawing

/-- All containment relationships. -/
def containments (d : Drawing α) : List Containment :=
  d.relationships.zipIdx.filterMap fun (r, i) =>
    if r.element.kind.isContainment then some ⟨i, r.source, r.target⟩ else none

/-- The containment relationships that take part. -/
def usableContainments (d : Drawing α) : List Containment :=
  d.containments.filter (Containment.isUsable d.nesting)

/-- The containment relationships that are passed over. -/
def skippedContainments (d : Drawing α) : List Containment :=
  d.containments.filter fun c => !Containment.isUsable d.nesting c

/-- The boxes of a parent grown around a child. -/
def grownBoxes (m : Composer α) (config : Config α) (d : Drawing α) (parent : PlacedClassifier α)
    (isFurther : Bool) (child : Nat) : ClassifierBoxes α :=
  let padded := (d.boxes child).envelope.pad (.uniform config.distance)
  let base := if isFurther then parent.boxes.space else parent.boxes.envelope
  m.aroundSpace parent.element (base.join padded) true

/-- True if an envelope overlaps a stranger of a classifier more than another envelope does. -/
def addsOverlap (d : Drawing α) (index : Nat) (before after : Rect α) : Bool :=
  (strangers d.nesting index d.envelopes).any fun obstacle =>
    before.overlapArea obstacle < after.overlapArea obstacle

/-- True if a parent may have grown boxes. -/
def admitsGrowth (d : Drawing α) (index : Nat) (before after : ClassifierBoxes α) : Bool :=
  d.sheet.drawArea.contains after.envelope && !d.addsOverlap index before.envelope after.envelope

end Drawing

namespace Embracing

/-- One containment relationship is handled. -/
def step (m : Composer α) (config : Config α) (s : Embracing α) (c : Containment) : Embracing α :=
  match s.drawing.classifiers[c.parent]? with
  | none => s
  | some parent =>
    let grown := s.drawing.grownBoxes m config parent (s.parents.contains c.parent) c.child
    if s.drawing.admitsGrowth c.parent parent.boxes grown then
      ⟨s.drawing.setBoxes c.parent grown, c.parent :: s.parents⟩
    else s

end Embracing

namespace Drawing

/-- The ranking of the usable containments, by how many classifiers the parent encloses. -/
def containmentRanking (config : Config α) (d : Drawing α) : Ranking α :=
  Ranking.ofWeights config.limits.relationships <|
    d.usableContainments.zipIdx.map fun (c, i) =>
      (i, Scalar.num (d.nesting.descendantCount c.parent))

/-- Grows containers around their children. -/
def embraceChildren (m : Composer α) (config : Config α) (d : Drawing α) : Drawing α :=
  let usable := d.usableContainments
  let ordered := (d.containmentRanking config).order.filterMap (usable[·]?)
  (ordered.foldl (Embracing.step m config) ⟨d, []⟩).drawing

/-- True if the nesting of a child in the space of its parent can be seen. -/
def showsNesting (d : Drawing α) (c : Containment) : Bool :=
  (d.boxes c.parent).space.contains (d.boxes c.child).symbol

/-- Leaves out the lines of containments that can be seen. The others stay as they are. -/
def hideNested (d : Drawing α) : Drawing α :=
  (d.usableContainments.filter d.showsNesting).foldl
    (fun d c => d.modifyRelationship c.relationship fun r => { r with visibility := .implied }) d

end Drawing

end DiagramLayout
