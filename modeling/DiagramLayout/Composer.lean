import DiagramLayout.Config
import DiagramLayout.Drawing.Record

/-!
# Composing classifiers

A composer splits the rectangle of a classifier into its boxes and measures text. All shapes are
rectangles and all characters equally wide. There are three shapes: a *plain* classifier has its
name and icon above its space, within the symbol; a classifier that *nests* others has its name in a
tab on top of the symbol; a *figure* has its name below.

`Composer.aroundEnvelope` starts from the rectangle outside and `Composer.aroundSpace` from the one
inside.
-/

namespace DiagramLayout

/-- The metrics by which classifiers are composed and text is measured. This is the bundled composer of
boxes, which a layout uses unless another one is handed in; composers of other kinds are left out. -/
structure Composer (α : Type) where
  border : α
  lineHeight : α
  charWidth : α
  iconSize : α
deriving DecidableEq, Repr

/-- How the boxes of a classifier are arranged. -/
inductive Shape where
  | plain
  | nesting
  | figure
deriving DecidableEq, Repr

/-- The shape of a classifier, given whether others are nested in it. -/
def Shape.of (kind : ClassifierKind) (nests : Bool) : Shape :=
  if nests then nesting else if kind = .actor then figure else plain

namespace Composer

variable {α : Type} [Scalar α]

/-- The composer with the metrics of a configuration. -/
def ofConfig (c : Config α) : Composer α := ⟨c.border, c.lineHeight, c.charWidth, c.iconSize⟩

/-- The extent of a line of text. No text has no extent. -/
def textSize (m : Composer α) (text : String) : Size α :=
  if text.isEmpty then .zero else ⟨Scalar.num text.length * m.charWidth, m.lineHeight⟩

/-- The height of the strip for the name with the borders above and below. -/
def headerHeight (m : Composer α) : α := m.lineHeight + Scalar.num 2 * m.border

/-- The width of the tab for a name. -/
def tabWidth (m : Composer α) (name : String) : α :=
  (m.textSize name).width + Scalar.num 2 * m.border

/-- The boxes of a classifier whose envelope is to fill a rectangle. -/
def aroundEnvelope (m : Composer α) (c : Classifier) (envelope : Rect α) (nests : Bool) :
    ClassifierBoxes α :=
  let header := Scalar.min m.headerHeight (Scalar.max envelope.height 0)
  let width := Scalar.max envelope.width 0
  let border := Insets.uniform m.border
  match Shape.of c.kind nests with
  | .nesting =>
    let tab := Scalar.min (m.tabWidth c.name) width
    let symbol :=
      Rect.ofCorner envelope.minX (envelope.minY + header) width (envelope.height - header)
    { symbol
      space := symbol.shrink border
      label := .ofCorner envelope.minX envelope.minY tab header
      icon := .empty }
  | .figure =>
    let symbol := Rect.ofCorner envelope.minX envelope.minY width (envelope.height - header)
    { symbol
      space := symbol.shrink border
      label := .ofCorner envelope.minX symbol.maxY width header
      icon := .empty }
  | .plain =>
    { symbol := envelope
      space := envelope.shrink (border.withTop header)
      label := .ofCorner (envelope.minX + m.border) (envelope.minY + m.border)
        (Scalar.max (width - Scalar.num 2 * m.border) 0) (Scalar.min m.lineHeight header)
      icon :=
        if m.iconSize + Scalar.num 2 * m.border ≤ width then
          .ofCorner (envelope.maxX - m.border - m.iconSize) (envelope.minY + m.border)
            m.iconSize m.iconSize
        else .empty }

/-- The envelope around a given space. -/
def envelopeAround (m : Composer α) (shape : Shape) (space : Rect α) : Rect α :=
  let border := Insets.uniform m.border
  match shape with
  | .nesting =>
    let symbol := space.pad border
    .ofCorner symbol.minX (symbol.minY - m.headerHeight)
      symbol.width (symbol.height + m.headerHeight)
  | .figure => (space.pad border).enlarge 0 m.headerHeight
  | .plain => space.pad (border.withTop m.headerHeight)

/-- The boxes of a classifier whose interior is to be a given rectangle. -/
def aroundSpace (m : Composer α) (c : Classifier) (space : Rect α) (nests : Bool) :
    ClassifierBoxes α :=
  m.aroundEnvelope c (m.envelopeAround (Shape.of c.kind nests) space) nests

/-- The extent of the floating label of a feature. -/
def featureLabelSize (m : Composer α) (f : Feature) : Size α := m.textSize f.key

/-- The extent of the floating label of a relationship. -/
def relationshipLabelSize (m : Composer α) (r : Relationship) : Size α := m.textSize r.name

/-- The extent of the line for a feature in a compartment. It has the height of a line even if there
is no text. -/
def entrySize (m : Composer α) (f : Feature) : Size α :=
  ⟨(m.textSize f.displayText).width, m.lineHeight⟩

end Composer

end DiagramLayout
