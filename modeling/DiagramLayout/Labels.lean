import DiagramLayout.Composer
import DiagramLayout.Debt

/-!
# Floating labels

The names of relationships, and those of ports, pins, interfaces and lifelines, float beside what
they name. Eight places around the anchor are tried and the one with the least debt is taken; a
small penalty that grows along the list prefers earlier places.
-/

namespace DiagramLayout

variable {α : Type} [Scalar α]

/-- The places for a label around an anchor: above, below, right, left, and at the four corners
clockwise from the upper right. -/
def placesAround (anchor : Rect α) (size : Size α) (gap : α) : List (Rect α) :=
  let center := anchor.center
  let above := anchor.minY - gap - size.height / Scalar.num 2
  let below := anchor.maxY + gap + size.height / Scalar.num 2
  let right := anchor.maxX + gap + size.width / Scalar.num 2
  let left := anchor.minX - gap - size.width / Scalar.num 2
  let centers : List (Point α) :=
    [⟨center.x, above⟩, ⟨center.x, below⟩, ⟨right, center.y⟩, ⟨left, center.y⟩,
      ⟨right, above⟩, ⟨right, below⟩, ⟨left, below⟩, ⟨left, above⟩]
  centers.map (Rect.centered · size)

namespace Drawing

/-- What a label owes to the sheet, the classifiers, the features and the relationships. -/
def labelDebt (d : Drawing α) (lineWidth : α) (place : Rect α) : α :=
  let classifiers := Scalar.sum <| d.classifiers.map fun c => Debt.ofLabelOnClassifier place c.boxes
  let features := Scalar.sum <| d.features.map fun f => Debt.ofLabelOnFeature place f
  let relationships := Scalar.sum <|
    d.relationships.map fun r => Debt.ofLabelOnConnector place r lineWidth
  Debt.ofBox d.sheet place + classifiers + features + relationships

/-- The debt of the place with a number, with the penalty for its number. -/
def placeCost (d : Drawing α) (lineWidth : α) (place : Rect α × Nat) : α :=
  d.labelDebt lineWidth place.1 + Scalar.num 1 / Scalar.num 10 * Scalar.num place.2

/-- The number of the place with the least cost, or zero if there is none. -/
def selectPlace (d : Drawing α) (lineWidth : α) (places : List (Rect α)) : Nat :=
  match Scalar.cheapestBy (d.placeCost lineWidth) places.zipIdx with
  | some (_, index) => index
  | none => 0

/-- The box of a label of a given size beside an anchor. -/
def labelBeside (config : Config α) (d : Drawing α) (anchor : Rect α) (size : Size α) : Rect α :=
  let places := placesAround anchor size config.border
  places.getD (d.selectPlace config.lineWidth places) .empty

/-- The square on the middle of a route at which the name of a relationship is anchored. -/
def relationshipAnchor (config : Config α) (r : RoutedRelationship α) : Rect α :=
  .centered r.route.middle ⟨config.lineWidth, config.lineWidth⟩

/-- Places the name of one relationship. What is not drawn or has no name has no label. -/
def placeRelationshipLabel (m : Composer α) (config : Config α) (d : Drawing α) (index : Nat) :
    Drawing α :=
  match d.relationships[index]? with
  | none => d
  | some r =>
    let d := d.modifyRelationship index fun r => { r with label := .empty }
    let size := m.relationshipLabelSize r.element
    if !r.isDrawn || size.isZero then d
    else
      let label := d.labelBeside config (relationshipAnchor config r) size
      d.modifyRelationship index fun r => { r with label }

/-- Places the name of one feature, unless it is listed in a compartment. -/
def placeFeatureLabel (m : Composer α) (config : Config α) (d : Drawing α) (index : Nat) :
    Drawing α :=
  match d.features[index]? with
  | none => d
  | some f =>
    if f.element.kind.isCompartmentEntry then d
    else
      let d := d.modifyFeature index fun f => { f with label := .empty }
      let size := m.featureLabelSize f.element
      if size.isZero then d
      else
        let label := d.labelBeside config f.symbol size
        d.modifyFeature index fun f => { f with label }

/-- Places the names of all relationships. -/
def layoutRelationshipLabels (m : Composer α) (config : Config α) (d : Drawing α) : Drawing α :=
  (List.range d.relationships.length).foldl (placeRelationshipLabel m config) d

/-- Places the names of all features. -/
def layoutFeatureLabels (m : Composer α) (config : Config α) (d : Drawing α) : Drawing α :=
  (List.range d.features.length).foldl (placeFeatureLabel m config) d

end Drawing

end DiagramLayout
