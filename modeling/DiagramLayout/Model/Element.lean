import DiagramLayout.Model.Identifier
import DiagramLayout.Model.Kind

/-!
# Elements

The records of a diagram and of what is visible in it, as a model provides them. They carry the
order keys by which the layout arranges them and no geometry.
-/

namespace DiagramLayout

/-- A diagram. -/
structure Diagram where
  id : RowId
  kind : DiagramKind
  name : String
deriving DecidableEq, Repr

/-- A classifier as it appears in a diagram. Its keys place it on the grid. -/
structure Classifier where
  id : RowId
  kind : ClassifierKind
  name : String
  xKey : OrderKey
  yKey : OrderKey
  grayOut : Bool
deriving DecidableEq, Repr

/-- The written form of a classifier. -/
def Classifier.text (c : Classifier) : String :=
  c.id.text ++ " " ++ c.kind.name ++ " '" ++ c.name ++ "'"

/-- A feature of a classifier. -/
structure Feature where
  id : RowId
  classifierId : RowId
  kind : FeatureKind
  key : String
  value : String
  listKey : OrderKey
deriving DecidableEq, Repr

/-- The text that a compartment shows for a feature. -/
def Feature.displayText (f : Feature) : String :=
  if f.value.isEmpty then f.key else f.key ++ ": " ++ f.value

/-- A relationship between two classifiers, possibly attached to features of theirs. -/
structure Relationship where
  id : RowId
  kind : RelationshipKind
  name : String
  fromClassifier : RowId
  toClassifier : RowId
  fromFeature : Option RowId
  toFeature : Option RowId
  listKey : OrderKey
deriving DecidableEq, Repr

end DiagramLayout
