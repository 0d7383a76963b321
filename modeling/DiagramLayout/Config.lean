import DiagramLayout.Geometry.Point
import DiagramLayout.Model.ElementSet

/-!
# Configuration

The distances, default sizes and text metrics that a layout keeps to, and the limits on what it
accepts. `Config.validate` admits a configuration whose metrics are finite, with a border that is
not negative and everything else positive, and otherwise names the first metric that is not usable.
-/

namespace DiagramLayout

/-- The policy of a layout. -/
structure Config (α : Type) where
  /-- The gap between the outline of a classifier and its interior. -/
  border : α
  /-- The gap to prefer between neighbours. -/
  distance : α
  /-- The width of a classifier before its contents are considered. -/
  classifierWidth : α
  /-- The height of a classifier before its contents are considered. -/
  classifierHeight : α
  /-- The height of a line of text. -/
  lineHeight : α
  /-- The width of a character. -/
  charWidth : α
  /-- The edge of the square icons of ports, pins and interfaces. -/
  iconSize : α
  /-- The width of a drawn line. -/
  lineWidth : α
  /-- How often nesting is propagated to deeper levels. -/
  containmentPasses : Nat
  /-- How many elements are accepted. -/
  limits : Limits
deriving DecidableEq, Repr

/-- The numbers of a configuration. -/
inductive Metric where
  | distance
  | classifierWidth
  | classifierHeight
  | lineHeight
  | charWidth
  | iconSize
  | lineWidth
  | border
deriving DecidableEq, Repr

namespace Metric

/-- The metrics in the order in which they are checked. -/
def all : List Metric :=
  [distance, classifierWidth, classifierHeight, lineHeight, charWidth, iconSize, lineWidth, border]

/-- The name of a metric in a document. -/
def name : Metric → String
  | distance => "preferred_object_distance"
  | classifierWidth => "default_classifier_width"
  | classifierHeight => "default_classifier_height"
  | lineHeight => "line_height"
  | charWidth => "char_width"
  | iconSize => "icon_size"
  | lineWidth => "line_width"
  | border => "standard_object_border"

/-- What is asked of a metric. -/
def demand : Metric → String
  | border => "must not be negative"
  | _ => "must be positive"

/-- True if a number meets what is asked of the metric. -/
def accepts {α : Type} [Scalar α] (metric : Metric) (value : α) : Bool :=
  Scalar.isFinite value &&
    match metric with
    | border => !decide (value < 0)
    | _ => !decide (value ≤ 0)

end Metric

/-- Why there is no layout. -/
inductive LayoutError (α : Type) where
  /-- There are more elements than the limits allow. -/
  | capacityExceeded (error : CapacityError)
  /-- A reference to a classifier that is not in the set. -/
  | unknownClassifier (id : RowId)
  /-- A reference to a feature that is not in the set. -/
  | unknownFeature (id : RowId)
  /-- A metric of the configuration with a value that is not usable. -/
  | invalidMetric (metric : Metric) (value : α)
deriving DecidableEq, Repr

/-- The text of a layout error, given how numbers are written. -/
def LayoutError.message {α : Type} (write : α → String) : LayoutError α → String
  | capacityExceeded error => error.message
  | unknownClassifier id => "unknown classifier " ++ id.text
  | unknownFeature id => "unknown feature " ++ id.text
  | invalidMetric metric value =>
    "invalid configuration: " ++ metric.name ++ " " ++ metric.demand ++ ", got " ++ write value

namespace Config

variable {α : Type} [Scalar α]

/-- The configuration where nothing is set. -/
def standard : Config α where
  border := Scalar.num 4
  distance := Scalar.num 16
  classifierWidth := Scalar.num 120
  classifierHeight := Scalar.num 60
  lineHeight := Scalar.num 14
  charWidth := Scalar.num 7
  iconSize := Scalar.num 12
  lineWidth := Scalar.num 2
  containmentPasses := 4
  limits := .standard

/-- The value of a metric. -/
def metric (c : Config α) : Metric → α
  | .distance => c.distance
  | .classifierWidth => c.classifierWidth
  | .classifierHeight => c.classifierHeight
  | .lineHeight => c.lineHeight
  | .charWidth => c.charWidth
  | .iconSize => c.iconSize
  | .lineWidth => c.lineWidth
  | .border => c.border

/-- The size that a classifier starts with. -/
def classifierSize (c : Config α) : Size α := ⟨c.classifierWidth, c.classifierHeight⟩

/-- The border on all four sides. -/
def borderInsets (c : Config α) : Insets α := .uniform c.border

/-- The first metric that is not usable. -/
def invalidMetric? (c : Config α) : Option Metric :=
  Metric.all.find? fun m => !m.accepts (c.metric m)

/-- Checks that all metrics are usable. -/
def validate (c : Config α) : Except (LayoutError α) Unit :=
  match c.invalidMetric? with
  | some m => .error (.invalidMetric m (c.metric m))
  | none => .ok ()

/-- Equality as the order of numbers sees it. -/
def equals (a b : Config α) : Bool :=
  Metric.all.all (fun m => a.metric m ≤ b.metric m && b.metric m ≤ a.metric m) &&
    a.containmentPasses == b.containmentPasses && a.limits == b.limits

end Config

end DiagramLayout
