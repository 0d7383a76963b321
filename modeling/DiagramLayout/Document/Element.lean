import DiagramLayout.Config
import DiagramLayout.Document.Decode

/-!
# Elements in documents

The names under which documents give the fields of elements, limits and configurations, and what
stands for a field that is left out.
-/

namespace DiagramLayout

/-- An identifier. -/
def RowId.decode : Decoder RowId := fun format v =>
  RowId.mk <$> Decoder.integerIn Int64.minValue.toInt Int64.maxValue.toInt "i64" format v

/-- An order key. -/
def OrderKey.decode : Decoder OrderKey := fun format v =>
  Int32.ofInt <$> Decoder.integerIn OrderKey.least.toInt OrderKey.greatest.toInt "i32" format v

/-- A kind of diagram. -/
def DiagramKind.decode : Decoder DiagramKind := .keyword all keyword none

/-- A kind of classifier. -/
def ClassifierKind.decode : Decoder ClassifierKind := .keyword all keyword none

/-- A kind of feature; one that is not known is kept as such. -/
def FeatureKind.decode : Decoder FeatureKind := .keyword all keyword (some unknown)

/-- A kind of relationship. -/
def RelationshipKind.decode : Decoder RelationshipKind := .keyword all keyword none

open Fields

/-- A diagram. -/
def Diagram.decode : Decoder Diagram :=
  decoder "struct Diagram" <|
    Diagram.mk <$> required "id" RowId.decode <*> required "kind" DiagramKind.decode
      <*> withDefault "name" .text ""

/-- A classifier. -/
def Classifier.decode : Decoder Classifier :=
  decoder "struct VisibleClassifier" <|
    Classifier.mk <$> required "id" RowId.decode <*> required "kind" ClassifierKind.decode
      <*> withDefault "name" .text "" <*> withDefault "x_order" OrderKey.decode 0
      <*> withDefault "y_order" OrderKey.decode 0 <*> withDefault "gray_out" .flag false

/-- A feature. -/
def Feature.decode : Decoder Feature :=
  decoder "struct Feature" <|
    Feature.mk <$> required "id" RowId.decode <*> required "classifier_id" RowId.decode
      <*> required "kind" FeatureKind.decode <*> withDefault "key" .text ""
      <*> withDefault "value" .text "" <*> withDefault "list_order" OrderKey.decode 0

/-- A relationship. -/
def Relationship.decode : Decoder Relationship :=
  decoder "struct Relationship" <|
    Relationship.mk <$> required "id" RowId.decode <*> required "kind" RelationshipKind.decode
      <*> withDefault "name" .text "" <*> required "from_classifier" RowId.decode
      <*> required "to_classifier" RowId.decode
      <*> withDefault "from_feature" (.optional RowId.decode) none
      <*> withDefault "to_feature" (.optional RowId.decode) none
      <*> withDefault "list_order" OrderKey.decode 0

/-- Limits. -/
def Limits.decode : Decoder Limits :=
  decoder "struct SetLimits" <|
    Limits.mk <$> withDefault "classifiers" .count standard.classifiers
      <*> withDefault "features" .count standard.features
      <*> withDefault "relationships" .count standard.relationships

/-- A metric of a configuration, with its standard value to fall back to. -/
def Metric.field (metric : Metric) : Fields Float :=
  withDefault metric.name .number (Config.standard.metric metric)

/-- A configuration. It is not validated. -/
def Config.decode : Decoder (Config Float) :=
  decoder "struct LayoutConfig" <|
    Config.mk <$> Metric.border.field <*> Metric.distance.field <*> Metric.classifierWidth.field
      <*> Metric.classifierHeight.field <*> Metric.lineHeight.field <*> Metric.charWidth.field
      <*> Metric.iconSize.field <*> Metric.lineWidth.field
      <*> withDefault "containment_passes" .count 4 <*> withDefault "limits" Limits.decode .standard

end DiagramLayout
