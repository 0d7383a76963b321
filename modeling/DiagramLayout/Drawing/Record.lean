import DiagramLayout.Geometry.Connector
import DiagramLayout.Geometry.Direction
import DiagramLayout.Model.Element

/-!
# Records of a drawing

What the layout computes for an element stands beside the element itself: the boxes of a classifier,
the boxes of a feature with the position of its owner, the route of a relationship with the
positions of its ends. Before anything is computed all boxes are empty.
-/

namespace DiagramLayout

variable {α : Type} [Scalar α]

/-- The box of a shape together with its label. A label without extent takes no part. -/
def envelopeOf (symbol label : Rect α) : Rect α :=
  if label.isEmpty then symbol else symbol.join label

/-- The boxes of a classifier. -/
structure ClassifierBoxes (α : Type) where
  /-- What is drawn. -/
  symbol : Rect α
  /-- The interior, which holds compartments and other classifiers. -/
  space : Rect α
  /-- The name. -/
  label : Rect α
  /-- The sign of the kind. -/
  icon : Rect α
deriving DecidableEq, Repr

namespace ClassifierBoxes

/-- The boxes before anything is computed. -/
def unplaced : ClassifierBoxes α := ⟨.empty, .empty, .empty, .empty⟩

/-- The symbol together with the label. -/
def envelope (b : ClassifierBoxes α) : Rect α := envelopeOf b.symbol b.label

/-- All boxes moved by an offset. -/
def translate (b : ClassifierBoxes α) (offset : Point α) : ClassifierBoxes α :=
  ⟨b.symbol.translate offset, b.space.translate offset, b.label.translate offset,
    b.icon.translate offset⟩

end ClassifierBoxes

/-- A classifier with its boxes. -/
structure PlacedClassifier (α : Type) where
  element : Classifier
  boxes : ClassifierBoxes α
deriving DecidableEq, Repr

/-- A feature with its boxes and the position of the classifier it belongs to. -/
structure PlacedFeature (α : Type) where
  element : Feature
  owner : Nat
  symbol : Rect α
  label : Rect α
  /-- Where its icon points. -/
  direction : Direction
deriving DecidableEq, Repr

/-- The symbol of a feature together with its label. -/
def PlacedFeature.envelope (f : PlacedFeature α) : Rect α := envelopeOf f.symbol f.label

/-- How a relationship is drawn. -/
inductive Visibility where
  | shown
  | grayedOut
  /-- Said by other means than a line, such as nesting. -/
  | implied
deriving DecidableEq, Repr

namespace Visibility

/-- The name of a visibility. -/
def name : Visibility → String
  | shown => "Show"
  | grayedOut => "GrayOut"
  | implied => "Implicit"

/-- Every visibility. -/
def all : List Visibility := [shown, grayedOut, implied]

/-- The visibility of a line that is drawn, grayed out if one of its ends is. -/
def ofDrawn (grayOut : Bool) : Visibility := if grayOut then grayedOut else shown

end Visibility

/-- A relationship with its route and the positions of its ends. -/
structure RoutedRelationship (α : Type) where
  element : Relationship
  /-- The classifier where it starts. -/
  source : Nat
  /-- The classifier where it ends. -/
  target : Nat
  /-- The feature where it starts. -/
  sourceFeature : Option Nat
  /-- The feature where it ends. -/
  targetFeature : Option Nat
  route : Connector α
  visibility : Visibility
  label : Rect α
deriving DecidableEq, Repr

/-- True unless the relationship is said by other means. -/
def RoutedRelationship.isDrawn (r : RoutedRelationship α) : Bool := r.visibility != .implied

end DiagramLayout
