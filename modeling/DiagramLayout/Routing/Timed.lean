import DiagramLayout.Drawing

/-!
# Routing along a time axis

In a scenario a relationship between two lifelines is a message, and all others are left out. The
time of a message comes from its list key through the time scale, which runs from behind the heads
of the classifiers to the far edge of the draw area. The message is a straight line across the time
axis from one lifeline to the other; a message from a lifeline to itself is a rectangular detour.
-/

namespace DiagramLayout

variable {α : Type} [Scalar α]

/-- Where a message attaches to the extent of a bar across the time axis: in the middle, or on the
side that faces the other bar. -/
def attachAcross (low high center toward : α) (centered : Bool) : α :=
  if centered then center else if center ≤ toward then high else low

/-- The time at which a message attaches to the extent of a bar along the time axis. -/
def attachAlong (low high time : α) : Guarded α := clamp low (Scalar.max high low) time

/-- The point of a bar where a message attaches. The time runs along the given axis. -/
def attachTo (axis : Axis) (bar : Rect α) (time : α) (toward : Point α) (centered : Bool) :
    Guarded (Point α) :=
  match axis with
  | .x => (⟨·, attachAcross bar.minY bar.maxY bar.center.y toward.y centered⟩) <$>
      attachAlong bar.minX bar.maxX time
  | .y => (⟨attachAcross bar.minX bar.maxX bar.center.x toward.x centered, ·⟩) <$>
      attachAlong bar.minY bar.maxY time

/-- The message from one bar to another. -/
def message (axis : Axis) (source target : Rect α) (time : α) (centered : Bool) :
    Guarded (Connector α) := do
  let start ← attachTo axis source time target.center centered
  let stop ← attachTo axis target time source.center centered
  return match axis with
    | .x => .vertical start stop time
    | .y => .horizontal start stop time

/-- The message from a bar to itself. -/
def selfMessage (axis : Axis) (bar : Rect α) (time distance : α) (centered : Bool) :
    Guarded (Connector α) := do
  let half := distance / Scalar.num 2
  match axis with
  | .x =>
    let y := if centered then bar.center.y else bar.maxY
    let start ← attachAlong bar.minX bar.maxX time
    return .horizontal ⟨start, y⟩ ⟨start + half, y⟩ (y + distance)
  | .y =>
    let x := if centered then bar.center.x else bar.maxX
    let start ← attachAlong bar.minY bar.maxY time
    return .vertical ⟨x, start⟩ ⟨x, start + half⟩ (x + distance)

/-- The edge of a rectangle that comes first in time. -/
def Rect.startAlong (r : Rect α) : Axis → α
  | .x => r.minX
  | .y => r.minY

/-- The edge of a rectangle that comes last in time. -/
def Rect.endAlong (r : Rect α) : Axis → α
  | .x => r.maxX
  | .y => r.maxY

namespace Drawing

/-- True if an end is attached to a lifeline. -/
def isLifeline (d : Drawing α) (feature : Option Nat) : Bool :=
  feature.any fun f => d.features[f]?.any (·.element.kind == .lifeline)

/-- Messages are drawn, grayed out if one of their ends is, and all else is left out. -/
def showMessages (d : Drawing α) : Drawing α :=
  { d with
    relationships := d.relationships.map fun r =>
      { r with
        visibility :=
          if d.isLifeline r.sourceFeature && d.isLifeline r.targetFeature then
            .ofDrawn (d.isGrayedOut r.source || d.isGrayedOut r.target)
          else .implied } }

/-- The time behind the heads of all classifiers. -/
def timeStart (config : Config α) (d : Drawing α) (axis : Axis) : α :=
  let heads := (d.classifiers.map (·.boxes.symbol)).filter (!·.isEmpty)
  Scalar.maxFrom (d.sheet.drawArea.startAlong axis) (heads.map (·.endAlong axis)) + config.distance

/-- The time before the far edge of the draw area. -/
def timeEnd (config : Config α) (d : Drawing α) (axis : Axis) : α :=
  d.sheet.drawArea.endAlong axis - config.border - config.distance

/-- The list keys of the drawn relationships. -/
def messageKeys (d : Drawing α) : List OrderKey :=
  (d.relationships.filter (·.isDrawn)).map (·.element.listKey)

/-- Registers the messages on the time scale and spans it over the time there is. -/
def prepareTime (config : Config α) (d : Drawing α) (axis : Axis) : Drawing α :=
  let start := d.timeStart config axis
  let stop := d.timeEnd config axis
  d.modifyGrid fun grid => grid.modifyScale axis fun scale =>
    (d.messageKeys.foldl Scale.addKey scale).setRange start (Scalar.max stop start)

/-- The route of a relationship between two lifelines. -/
def messageRoute (config : Config α) (d : Drawing α) (axis : Axis) (r : RoutedRelationship α)
    (source target : Nat) : Guarded (Connector α) :=
  let time := (d.sheet.grid.scale axis).location r.element.listKey
  let centered := r.element.kind.isCallOrFlow
  if source = target then
    selfMessage axis (d.featureSymbol source) time config.distance centered
  else message axis (d.featureSymbol source) (d.featureSymbol target) time centered

/-- A relationship with its route, if it is drawn between two lifelines. -/
def routeMessage (config : Config α) (d : Drawing α) (axis : Axis) (r : RoutedRelationship α) :
    Guarded (RoutedRelationship α) := do
  match r.isDrawn, r.sourceFeature, r.targetFeature with
  | true, some source, some target =>
    let route ← d.messageRoute config axis r source target
    return { r with route }
  | _, _, _ => return r

/-- Shows and routes all messages. A drawing without a time axis is left as it is. -/
def routeInTime (config : Config α) (d : Drawing α) : Guarded (Drawing α) := do
  match d.sheet.grid.kind.timeAxis with
  | none => return d
  | some axis =>
    let d := d.showMessages.prepareTime config axis
    let relationships ← d.relationships.mapM (d.routeMessage config axis)
    return { d with relationships }

end Drawing

end DiagramLayout
