import DiagramLayout.Features.Compartment

/-!
# Estimating classifiers

The first step of the layout gives every classifier a size and a place. It starts with the standard
size, grows until its space holds its compartment entries, and is centered where its keys lie on the
grid. In a scenario the classifiers form a row at the top of the draw area or a column at its left,
and only the other coordinate comes from a key.
-/

namespace DiagramLayout

variable {α : Type} [Scalar α]

/-- The boxes of a classifier around the origin, large enough for `needed` in their space. -/
def composeFor (m : Composer α) (config : Config α) (c : Classifier) (needed : Size α)
    (nests : Bool) : ClassifierBoxes α :=
  let composed := m.aroundEnvelope c (.centered .origin config.classifierSize) nests
  let space := composed.space
  if space.width < needed.width || space.height < needed.height then
    m.aroundSpace c (.centered space.center (space.size.max needed)) nests
  else composed

/-- Where the center of a symbol belongs. -/
def gridTarget (config : Config α) (sheet : Sheet α) (c : Classifier) (symbol : Rect α) : Point α :=
  match sheet.grid.kind with
  | .xy => sheet.grid.location c.xKey c.yKey
  | .timeY =>
    ⟨sheet.grid.x.location c.xKey,
      sheet.drawArea.minY + config.distance + symbol.height / Scalar.num 2⟩
  | .timeX =>
    ⟨sheet.drawArea.minX + config.distance + symbol.width / Scalar.num 2,
      sheet.grid.y.location c.yKey⟩

/-- Boxes moved so that their symbol is centered where it belongs. -/
def placeOnGrid (config : Config α) (sheet : Sheet α) (c : Classifier) (boxes : ClassifierBoxes α) :
    ClassifierBoxes α :=
  boxes.translate (gridTarget config sheet c boxes.symbol - boxes.symbol.center)

namespace Drawing

/-- Registers the keys of all classifiers on the grid. -/
def registerKeys (d : Drawing α) : Drawing α :=
  d.modifyGrid fun grid =>
    d.classifiers.foldl (fun grid c => grid.addKeys c.element.xKey c.element.yKey) grid

/-- The estimated boxes of the classifier at a position, on a grid that has its keys. -/
def estimatedBoxes (m : Composer α) (config : Config α) (d : Drawing α) (index : Nat)
    (c : Classifier) : ClassifierBoxes α :=
  placeOnGrid config d.sheet c <|
    composeFor m config c (d.entriesSize m config index)
      (decide (0 < d.nesting.descendantCount index))

/-- Gives every classifier its first boxes. -/
def estimateBounds (m : Composer α) (config : Config α) (d : Drawing α) : Drawing α :=
  let d := d.registerKeys
  { d with
    classifiers := d.classifiers.mapIdx fun i c =>
      { c with boxes := d.estimatedBoxes m config i c.element } }

end Drawing

end DiagramLayout
