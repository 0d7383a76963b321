import DiagramLayout.Decimal.Text
import DiagramLayout.Drawing

/-!
# Reports

A report says in plain text where everything is, one line per element: the diagram, then
classifiers, features and relationships in their order. Boxes stand in brackets with their least and
greatest coordinates, points in parentheses. Parts that are not there are left out: an empty label,
the route of a relationship that is not drawn.
-/

namespace DiagramLayout

namespace Report

/-- A number. -/
def number (x : Float) : String := DecimalStyle.report.write x

/-- Numbers with commas between them. -/
def numbers (xs : List Float) : String := ", ".intercalate (xs.map number)

/-- A box. -/
def box (r : Rect Float) : String := "[" ++ numbers [r.minX, r.minY, r.maxX, r.maxY] ++ "]"

/-- A point. -/
def point (p : Point Float) : String := "(" ++ numbers [p.x, p.y] ++ ")"

/-- A label, unless it is empty. -/
def label (r : Rect Float) : String := if r.isEmpty then "" else " label=" ++ box r

/-- The word for a visibility. -/
def visibilityWord : Visibility → String
  | .shown => "show"
  | .grayedOut => "gray_out"
  | .implied => "implicit"

/-- The line for the diagram. -/
def diagramLine (diagram : Diagram) (bounds : Rect Float) : String :=
  "diagram " ++ diagram.id.text ++ " " ++ diagram.kind.name ++ " bounds=" ++ box bounds

/-- The line for a classifier. -/
def classifierLine (c : PlacedClassifier Float) : String :=
  "classifier " ++ c.element.id.text ++ " " ++ c.element.name ++ " symbol=" ++ box c.boxes.symbol ++
    " space=" ++ box c.boxes.space

/-- The line for a feature. -/
def featureLine (f : PlacedFeature Float) : String :=
  "feature " ++ f.element.id.text ++ " " ++ f.element.kind.name ++ " " ++ f.element.key ++
    " symbol=" ++ box f.symbol ++ label f.label

/-- The line for a relationship. -/
def relationshipLine (r : RoutedRelationship Float) : String :=
  "relationship " ++ r.element.id.text ++ " " ++ r.element.kind.name ++ " " ++
    visibilityWord r.visibility ++
    if r.isDrawn then
      " route=" ++ " ".intercalate (r.route.corners.map point) ++ label r.label
    else ""

/-- All lines of the report on a drawing. -/
def lines (d : Drawing Float) : List String :=
  diagramLine d.diagram d.sheet.bounds :: d.classifiers.map classifierLine ++
    d.features.map featureLine ++ d.relationships.map relationshipLine

/-- The report on a drawing. Every line ends in a line break. -/
def render (d : Drawing Float) : String := String.join ((lines d).map (· ++ "\n"))

end Report

end DiagramLayout
