import DiagramLayout.Drawing

/-!
# Debts

How much a candidate conflicts with its environment. Every debt grows with the area of the conflict
and is zero where there is none; debts are only ever compared with each other. Area outside the draw
area weighs most, overlap with a classifier that has its final place more than overlap with one that
may still move. Connectors count as their segments drawn with the width of a line.
-/

namespace DiagramLayout

namespace Debt

variable {α : Type} [Scalar α]

/-- The weight of area outside the draw area. -/
abbrev outsideWeight : α := Scalar.num 32

/-- The weight of overlap with a classifier that has its place. -/
abbrev placedWeight : α := Scalar.num 4

/-- The weight of overlap with a classifier that may still move. -/
abbrev unplacedWeight : α := Scalar.num 1

/-- The debt of a box outside the draw area. -/
def ofBox (sheet : Sheet α) (probe : Rect α) : α := outsideWeight * probe.areaOutside sheet.drawArea

/-- The debt of two envelopes of classifiers. -/
def ofClassifiers (probe other : Rect α) : α := probe.overlapArea other

/-- The classifiers that have their place, with a further one if it exists. -/
def markPlaced (nesting : Nesting) (placed : List Nat) (index : Nat) : List Nat :=
  if index < nesting.size then index :: placed else placed

/-- The debt of the envelopes of two classifiers while classifiers are being placed. Those of which
one encloses the other are free to overlap. -/
def ofClassifiersWhile (nesting : Nesting) (placed : List Nat) (index : Nat) (probe : Rect α)
    (otherIndex : Nat) (other : Rect α) : α :=
  if nesting.related index otherIndex then 0
  else
    let weight : α := if placed.contains otherIndex then placedWeight else unplacedWeight
    weight * ofClassifiers probe other

/-- The debt of a feature that covers a classifier. -/
def ofFeatureOnClassifier (probe : Rect α) (c : ClassifierBoxes α) : α :=
  probe.overlapArea c.envelope

/-- The debt of a feature that covers another. -/
def ofFeatures (probe : Rect α) (f : PlacedFeature α) : α := probe.overlapArea f.symbol

/-- The debt of a feature that covers a drawn connector. -/
def ofFeatureOnConnector (probe : Rect α) (r : RoutedRelationship α) (lineWidth : α) : α :=
  if r.isDrawn then r.route.coverage probe lineWidth else 0

/-- The debt of a connector outside the draw area. -/
def ofConnector (sheet : Sheet α) (probe : Connector α) (lineWidth : α) : α :=
  outsideWeight * probe.areaOutside sheet.drawArea lineWidth

/-- The debt of a connector that runs through the symbol of a classifier. -/
def ofConnectorOnClassifier (probe : Connector α) (c : ClassifierBoxes α) (lineWidth : α) : α :=
  probe.coverage c.symbol lineWidth

/-- The debt of a connector that runs through a feature. -/
def ofConnectorOnFeature (probe : Connector α) (f : PlacedFeature α) (lineWidth : α) : α :=
  probe.coverage f.symbol lineWidth

/-- The debt of a connector that covers another, drawn one. -/
def ofConnectors (probe : Connector α) (other : RoutedRelationship α) (lineWidth : α) : α :=
  if other.isDrawn then probe.crossing other.route lineWidth else 0

/-- The debt of a label that covers a classifier. Within the space of the classifier it is not in
the way. -/
def ofLabelOnClassifier (probe : Rect α) (c : ClassifierBoxes α) : α :=
  let covered := probe.overlapArea c.envelope
  let inside := probe.overlapArea (c.envelope.overlap c.space)
  Scalar.max (covered - inside) 0

/-- The debt of a label that covers a feature or its label. -/
def ofLabelOnFeature (probe : Rect α) (f : PlacedFeature α) : α :=
  probe.overlapArea f.symbol + probe.overlapArea f.label

/-- The debt of a label that covers a drawn connector or its label. -/
def ofLabelOnConnector (probe : Rect α) (r : RoutedRelationship α) (lineWidth : α) : α :=
  if r.isDrawn then r.route.coverage probe lineWidth + probe.overlapArea r.label else 0

end Debt

end DiagramLayout
