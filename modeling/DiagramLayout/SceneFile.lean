import DiagramLayout.Document.Element
import DiagramLayout.Geometry.Rect
import DiagramLayout.Toml

/-!
# Scene files

A scene file is a TOML document with a diagram, the elements that are visible in it and the size of
the sheet. Limits are applied while the elements are collected.
-/

namespace DiagramLayout

/-- A diagram with its elements and the size of its sheet. -/
structure SceneFile where
  width : Float
  height : Float
  diagram : Diagram
  classifiers : List Classifier
  features : List Feature
  relationships : List Relationship

namespace SceneFile

open Fields in
/-- A scene, from the table that a document describes. -/
def decode : Decoder SceneFile :=
  decoder "struct Scene" <|
    SceneFile.mk <$> withDefault "width" .number 800 <*> withDefault "height" .number 600
      <*> required "diagram" Diagram.decode
      <*> withDefault "classifiers" (.listOf Classifier.decode) []
      <*> withDefault "features" (.listOf Feature.decode) []
      <*> withDefault "relationships" (.listOf Relationship.decode) []

/-- The rectangle that the diagram occupies. -/
def bounds (s : SceneFile) : Rect Float := .ofCorner 0 0 s.width s.height

/-- The elements of the scene, if they keep to the limits. -/
def elements (s : SceneFile) (limits : Limits) : Except CapacityError ElementSet := do
  let set := ElementSet.empty s.diagram limits
  let set ← s.classifiers.foldlM ElementSet.addClassifier set
  let set ← s.features.foldlM ElementSet.addFeature set
  s.relationships.foldlM ElementSet.addRelationship set

end SceneFile

end DiagramLayout
