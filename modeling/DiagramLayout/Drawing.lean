import DiagramLayout.Config
import DiagramLayout.Drawing.Record
import DiagramLayout.Nesting

/-!
# Drawings

A drawing is what the steps of the layout work on: the sheet with its grid, how the classifiers
nest, and a record for every element in the order of the element set. `Drawing.ofElements` resolves
all references, so the positions in the records are those of existing records; the steps change
boxes, routes and visibilities and never the ends of a relationship or the owner of a feature.
-/

namespace DiagramLayout

variable {α : Type} [Scalar α]

/-- The rectangle that a diagram occupies, the part of it for classifiers, and the grid there. -/
structure Sheet (α : Type) where
  bounds : Rect α
  drawArea : Rect α
  grid : Grid α
deriving DecidableEq, Repr

/-- The sheet of a diagram. Its grid covers the bounds without the border. -/
def Sheet.ofBounds (bounds : Rect α) (config : Config α) (kind : GridKind) : Sheet α :=
  let drawArea := bounds.shrink config.borderInsets
  ⟨bounds, drawArea, .spanning drawArea kind⟩

/-- A layout in the making. -/
structure Drawing (α : Type) where
  diagram : Diagram
  sheet : Sheet α
  nesting : Nesting
  classifiers : List (PlacedClassifier α)
  features : List (PlacedFeature α)
  relationships : List (RoutedRelationship α)
deriving DecidableEq, Repr

/-- The position of the classifier that an identifier refers to. -/
def resolveClassifier (s : ElementSet) (id : RowId) : Except (LayoutError α) Nat :=
  match s.classifierPosition id with
  | some position => .ok position
  | none => .error (.unknownClassifier id)

/-- The position of the feature that an identifier refers to. -/
def resolveFeature (s : ElementSet) (id : RowId) : Except (LayoutError α) Nat :=
  match s.featurePosition id with
  | some position => .ok position
  | none => .error (.unknownFeature id)

/-- The position of the feature that an end is attached to, if it is attached to one. -/
def resolveFeature? (s : ElementSet) : Option RowId → Except (LayoutError α) (Option Nat)
  | some id => some <$> resolveFeature s id
  | none => .ok none

/-- The record of a feature before anything is computed. -/
def PlacedFeature.ofElement (s : ElementSet) (f : Feature) :
    Except (LayoutError α) (PlacedFeature α) := do
  let owner ← resolveClassifier s f.classifierId
  return ⟨f, owner, .empty, .empty, .center⟩

/-- The record of a relationship before anything is computed. -/
def RoutedRelationship.ofElement (s : ElementSet) (r : Relationship) :
    Except (LayoutError α) (RoutedRelationship α) := do
  let source ← resolveClassifier s r.fromClassifier
  let target ← resolveClassifier s r.toClassifier
  let sourceFeature ← resolveFeature? s r.fromFeature
  let targetFeature ← resolveFeature? s r.toFeature
  return ⟨r, source, target, sourceFeature, targetFeature, .collapsed, .shown, .empty⟩

namespace Drawing

/-- The drawing of an element set before anything is computed. -/
def ofElements (s : ElementSet) (bounds : Rect α) (config : Config α) :
    Except (LayoutError α) (Drawing α) := do
  let features ← s.features.mapM (PlacedFeature.ofElement s)
  let relationships ← s.relationships.mapM (RoutedRelationship.ofElement s)
  return {
    diagram := s.diagram
    sheet := .ofBounds bounds config s.diagram.kind.gridKind
    nesting := .ofElements s config.containmentPasses
    classifiers := s.classifiers.map (⟨·, .unplaced⟩)
    features, relationships }

/-- The boxes of the classifier at a position. -/
def boxes (d : Drawing α) (index : Nat) : ClassifierBoxes α :=
  match d.classifiers[index]? with
  | some c => c.boxes
  | none => .unplaced

/-- True if the classifier at a position is grayed out. -/
def isGrayedOut (d : Drawing α) (index : Nat) : Bool :=
  d.classifiers[index]?.any (·.element.grayOut)

/-- The symbol of the feature at a position. -/
def featureSymbol (d : Drawing α) (index : Nat) : Rect α :=
  match d.features[index]? with
  | some f => f.symbol
  | none => .empty

/-- The envelopes of all classifiers. -/
def envelopes (d : Drawing α) : List (Rect α) := d.classifiers.map (·.boxes.envelope)

/-- The drawing with other boxes for one classifier. -/
def setBoxes (d : Drawing α) (index : Nat) (boxes : ClassifierBoxes α) : Drawing α :=
  { d with classifiers := d.classifiers.modify index fun c => { c with boxes } }

/-- The drawing with one classifier moved. -/
def translateClassifier (d : Drawing α) (index : Nat) (offset : Point α) : Drawing α :=
  d.setBoxes index ((d.boxes index).translate offset)

/-- The drawing with one feature changed. -/
def modifyFeature (d : Drawing α) (index : Nat) (change : PlacedFeature α → PlacedFeature α) :
    Drawing α :=
  { d with features := d.features.modify index change }

/-- The drawing with one relationship changed. -/
def modifyRelationship (d : Drawing α) (index : Nat)
    (change : RoutedRelationship α → RoutedRelationship α) : Drawing α :=
  { d with relationships := d.relationships.modify index change }

/-- The drawing with its grid changed. -/
def modifyGrid (d : Drawing α) (change : Grid α → Grid α) : Drawing α :=
  { d with sheet := { d.sheet with grid := change d.sheet.grid } }

/-- The positions of the features of a classifier. -/
def featuresOf (d : Drawing α) (classifier : Nat) : List Nat :=
  (List.range d.features.length).filter fun i =>
    d.features[i]?.any (·.owner == classifier)

end Drawing

end DiagramLayout
