import DiagramLayout.Debt
import DiagramLayout.Ranking

/-!
# Routing on a free grid

Where no axis measures time every drawn relationship becomes a connector between its two ends. Six
connectors are tried: a vertical main line at the `x` of either center and halfway between them, and
a horizontal one at the `y` of either center and halfway. The cheapest by length and debt is taken.
Short relationships are routed before long ones, which then go around them.

The classifiers at the ends, those that enclose them and the features of the ends are not in the
way.
-/

namespace DiagramLayout

variable {α : Type} [Scalar α]

/-- Where a connector ends: at a symbol, or at the middle of a feature. -/
structure RouteEnd (α : Type) where
  symbol : Rect α
  feature : Option (Point α)
deriving DecidableEq, Repr

namespace RouteEnd

/-- The point from which distances are measured. -/
def center (e : RouteEnd α) : Point α := e.feature.getD e.symbol.center

/-- Where a vertical main line at `x` begins, seen from a point on the other side. A line that
passes the symbol starts at its lower or upper side, another at the middle of the side that it
faces. -/
def attachVertical (e : RouteEnd α) (x : α) (toward : Point α) : Point α :=
  let symbol := e.symbol
  let center := symbol.center
  e.feature.getD <|
    if symbol.minX ≤ x && x ≤ symbol.maxX then
      ⟨x, if center.y ≤ toward.y then symbol.maxY else symbol.minY⟩
    else ⟨if center.x ≤ x then symbol.maxX else symbol.minX, center.y⟩

/-- Where a horizontal main line at `y` begins, seen from a point on the other side. -/
def attachHorizontal (e : RouteEnd α) (y : α) (toward : Point α) : Point α :=
  let symbol := e.symbol
  let center := symbol.center
  e.feature.getD <|
    if symbol.minY ≤ y && y ≤ symbol.maxY then
      ⟨if center.x ≤ toward.x then symbol.maxX else symbol.minX, y⟩
    else ⟨center.x, if center.y ≤ y then symbol.maxY else symbol.minY⟩

end RouteEnd

/-- The loop of a relationship that returns to where it starts, on the right side. -/
def loopAt (distance : α) (e : RouteEnd α) : Connector α :=
  let anchor := e.feature.getD ⟨e.symbol.maxX, e.symbol.center.y⟩
  .vertical (anchor + ⟨0, -distance / Scalar.num 2⟩) (anchor + ⟨0, distance / Scalar.num 2⟩)
    (anchor.x + distance)

/-- The connectors between two ends, in the order in which they are tried. -/
def connectorsBetween (a b : RouteEnd α) : List (Connector α) :=
  let source := a.center
  let target := b.center
  let middle := source.midpoint target
  ([source.x, target.x, middle.x].map fun x =>
    .vertical (a.attachVertical x target) (b.attachVertical x source) x) ++
  ([source.y, target.y, middle.y].map fun y =>
    .horizontal (a.attachHorizontal y target) (b.attachHorizontal y source) y)

/-- A relationship returns to where it starts if both ends are the same classifier and feature. -/
def RoutedRelationship.isLoop (r : RoutedRelationship α) : Bool :=
  r.source == r.target && r.sourceFeature == r.targetFeature

/-- A drawing whose relationships are being routed. -/
structure FreeRouting (α : Type) where
  drawing : Drawing α
  /-- The relationships that have their route, in the order in which they got it. -/
  routed : List Nat

namespace Drawing

/-- Where a relationship ends at a classifier or at a feature of it. -/
def routeEnd (d : Drawing α) (classifier : Nat) (feature : Option Nat) : RouteEnd α :=
  ⟨(d.boxes classifier).symbol, feature.map fun f => (d.featureSymbol f).center⟩

/-- Both ends of a relationship. -/
def routeEnds (d : Drawing α) (r : RoutedRelationship α) : RouteEnd α × RouteEnd α :=
  (d.routeEnd r.source r.sourceFeature, d.routeEnd r.target r.targetFeature)

/-- The connectors that a relationship can have. -/
def routeCandidates (config : Config α) (d : Drawing α) (r : RoutedRelationship α) :
    List (Connector α) :=
  let (a, b) := d.routeEnds r
  if r.isLoop then [loopAt config.distance a] else connectorsBetween a b

/-- True if a classifier is not in the way of a relationship: it is an end of it or encloses one. -/
def isExempt (d : Drawing α) (r : RoutedRelationship α) (classifier : Nat) : Bool :=
  [r.source, r.target].any fun e => e == classifier || d.nesting.encloses classifier e

/-- What a connector of a relationship owes to the sheet, the classifiers, the features and the
connectors that are there already. -/
def routeDebt (config : Config α) (d : Drawing α) (r : RoutedRelationship α) (routed : List Nat)
    (candidate : Connector α) : α :=
  let lineWidth := config.lineWidth
  let classifiers := Scalar.sum <|
    (d.classifiers.zipIdx.filter fun (_, i) => !d.isExempt r i).map fun (c, _) =>
      Debt.ofConnectorOnClassifier candidate c.boxes lineWidth
  let features := Scalar.sum <|
    (d.features.filter fun f => f.owner != r.source && f.owner != r.target).map fun f =>
      Debt.ofConnectorOnFeature candidate f lineWidth
  let connectors := Scalar.sum <|
    (routed.filterMap (d.relationships[·]?)).map fun other =>
      Debt.ofConnectors candidate other lineWidth
  Debt.ofConnector d.sheet candidate lineWidth + classifiers + features + connectors

/-- What a connector costs. -/
def routeCost (config : Config α) (d : Drawing α) (r : RoutedRelationship α) (routed : List Nat)
    (candidate : Connector α) : α :=
  candidate.length + d.routeDebt config r routed candidate

/-- The cheapest connector of a relationship. -/
def chosenRoute (config : Config α) (d : Drawing α) (r : RoutedRelationship α) (routed : List Nat) :
    Connector α :=
  (Scalar.cheapestBy (d.routeCost config r routed) (d.routeCandidates config r)).getD .collapsed

/-- The distance between the ends of a relationship. -/
def endDistance (d : Drawing α) (r : RoutedRelationship α) : α :=
  let (a, b) := d.routeEnds r
  (b.center - a.center).manhattanLength

/-- Every relationship is drawn, grayed out if one of its ends is. -/
def showAll (d : Drawing α) : Drawing α :=
  { d with
    relationships := d.relationships.map fun r =>
      { r with visibility := .ofDrawn (d.isGrayedOut r.source || d.isGrayedOut r.target) } }

/-- The ranking of the drawn relationships, the shortest first. -/
def routeRanking (config : Config α) (d : Drawing α) : Ranking α :=
  Ranking.ofWeights config.limits.relationships <|
    d.relationships.zipIdx.filterMap fun (r, i) =>
      if r.isDrawn then some (i, d.endDistance r) else none

end Drawing

namespace FreeRouting

/-- One relationship gets its route. -/
def step (config : Config α) (s : FreeRouting α) (index : Nat) : FreeRouting α :=
  match s.drawing.relationships[index]? with
  | none => s
  | some r =>
    let route := s.drawing.chosenRoute config r s.routed
    ⟨s.drawing.modifyRelationship index fun r => { r with route }, s.routed ++ [index]⟩

end FreeRouting

namespace Drawing

/-- Routes all drawn relationships. A drawing with a time axis is left as it is. -/
def routeFreely (config : Config α) (d : Drawing α) : Drawing α :=
  if d.sheet.grid.kind = .xy then
    ((d.routeRanking config).order.foldl (FreeRouting.step config) ⟨d, []⟩).drawing
  else d

end Drawing

end DiagramLayout
