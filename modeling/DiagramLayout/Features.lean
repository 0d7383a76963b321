import DiagramLayout.Features.Compartment
import DiagramLayout.Features.Side

/-!
# Placing features

Features follow their classifier, whose boxes are final by then.

* A *lifeline* runs from the classifier to the far edge of the draw area in a scenario. Elsewhere it
  is the symbol of the classifier itself.
* Ports, pins, entry and exit points sit on a side of the symbol.
* Interfaces float off a side of the symbol.
* Compartment entries are stacked in the space.
-/

namespace DiagramLayout

variable {α : Type} [Scalar α]

/-- The bar of a lifeline. -/
def lifelineBar (config : Config α) (diagram : DiagramKind) (drawArea : Rect α)
    (kind : ClassifierKind) (symbol : Rect α) : Rect α :=
  if !kind.canHaveLifeline then symbol
  else
    match diagram with
    | .sequence =>
      let center := symbol.center.x
      let bottom := Scalar.max (drawArea.maxY - config.border) symbol.maxY
      .spanning ⟨center - config.border, symbol.maxY⟩ ⟨center + config.border, bottom⟩
    | .timing =>
      let right := Scalar.max (drawArea.maxX - config.border) symbol.maxX
      .spanning ⟨symbol.maxX, symbol.minY⟩ ⟨right, symbol.maxY⟩
    | _ => symbol

/-- How far outside the border the middle of an icon would be if its inner edge were half an icon
inside. -/
def outwardOffset (config : Config α) (owner : ClassifierKind) (kind : FeatureKind) : α :=
  if owner.isConstraintBlock then 0
  else
    match kind with
    | .entryPoint | .exitPoint => config.iconSize / Scalar.num 2
    | _ => if owner.isBehavioral then config.iconSize else config.iconSize / Scalar.num 2

/-- The distance of the middle of an icon from the side that it belongs to. -/
def iconDistance (config : Config α) (owner : ClassifierKind) (kind : FeatureKind) : α :=
  if kind.isInterface then Scalar.num 2 * config.distance + config.border
  else outwardOffset config owner kind - config.iconSize / Scalar.num 2

/-- Where the icon of a feature points. -/
def iconDirection (side : Side) : FeatureKind → Direction
  | .inPin | .requiredInterface => side.outward.opposite
  | .outPin => side.outward
  | _ => .center

/-- The square icon of a feature on a side of its symbol. -/
def iconBox (config : Config α) (owner : ClassifierKind) (f : Feature) (symbol : Rect α) :
    Guarded (Rect α) := do
  let side := Side.ofKey f.listKey
  let onSide ← side.point symbol (Side.fractionOfKey f.listKey) (config.iconSize / Scalar.num 2)
  let center := onSide + side.outward.step.scale (iconDistance config owner f.kind)
  return .centered center ⟨config.iconSize, config.iconSize⟩

/-- A feature beside its classifier. Compartment entries are left as they are. -/
def placeBeside (config : Config α) (diagram : DiagramKind) (drawArea : Rect α)
    (owner : PlacedClassifier α) (f : PlacedFeature α) : Guarded (PlacedFeature α) := do
  let kind := f.element.kind
  let symbol := owner.boxes.symbol
  if kind.isCompartmentEntry then return f
  else if kind == .lifeline then
    return { f with
      symbol := lifelineBar config diagram drawArea owner.element.kind symbol
      direction := .center }
  else
    let box ← iconBox config owner.element.kind f.element symbol
    return { f with symbol := box, direction := iconDirection (Side.ofKey f.element.listKey) kind }

namespace Drawing

/-- Places the features of a classifier that are beside it and not in its compartments. -/
def layoutBeside (config : Config α) (d : Drawing α) (classifier : Nat) : Guarded (Drawing α) := do
  match d.classifiers[classifier]? with
  | none => return d
  | some owner =>
    let features ← d.features.mapM fun f =>
      if f.owner == classifier then
        placeBeside config d.diagram.kind d.sheet.drawArea owner f
      else return f
    return { d with features }

/-- Places all features of one classifier. -/
def layoutFeaturesOf (m : Composer α) (config : Config α) (d : Drawing α) (classifier : Nat) :
    Guarded (Drawing α) := do
  let d ← d.layoutBeside config classifier
  return d.layoutCompartments m config classifier

/-- Places the features of all classifiers. -/
def layoutFeatures (m : Composer α) (config : Config α) (d : Drawing α) : Guarded (Drawing α) :=
  (List.range d.classifiers.length).foldlM (fun d i => d.layoutFeaturesOf m config i) d

end Drawing

end DiagramLayout
