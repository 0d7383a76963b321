import DiagramLayout.Classifiers
import DiagramLayout.Features
import DiagramLayout.Labels
import DiagramLayout.Routing.Free
import DiagramLayout.Routing.Timed

/-!
# Laying out a diagram

The whole layout: the configuration and the limits are checked, references are resolved, then
classifiers, features, routes and labels are placed in this order. After the checks nothing fails.
-/

namespace DiagramLayout

variable {α : Type} [Scalar α]

/-- The counts of the elements that are limited, with the limits. -/
def ElementSet.loads (s : ElementSet) (limits : Limits) : List (Resource × Nat × Nat) :=
  [(.classifiers, s.classifiers.length, limits.classifiers),
    (.features, s.features.length, limits.features),
    (.relationships, s.relationships.length, limits.relationships)]

/-- Checks that a set keeps to the limits. -/
def ElementSet.checkLimits (s : ElementSet) (limits : Limits) : Except CapacityError Unit :=
  match (s.loads limits).find? fun (_, count, limit) => decide (limit < count) with
  | some (resource, _, limit) => .error ⟨resource, limit⟩
  | none => .ok ()

namespace Drawing

/-- Sets the first visibilities on a free grid. In a scenario routing sets them later. -/
def initVisibility (d : Drawing α) : Drawing α :=
  if d.diagram.kind.hasTimeAxis then d else d.showAll

/-- Routes all relationships. -/
def routeAll (config : Config α) (d : Drawing α) : Guarded (Drawing α) :=
  if d.diagram.kind.hasTimeAxis then d.routeInTime config else return d.routeFreely config

/-- Computes everything in a drawing. -/
def complete (m : Composer α) (config : Config α) (d : Drawing α) : Guarded (Drawing α) := do
  let d ← d.initVisibility.layoutClassifiers m config
  let d ← d.layoutFeatures m config
  let d ← d.routeAll config
  return (d.layoutFeatureLabels m config).layoutRelationshipLabels m config

end Drawing

/-- Checks the configuration and the set and resolves all references. -/
def ElementSet.prepare (config : Config α) (bounds : Rect α) (s : ElementSet) :
    Except (LayoutError α) (Drawing α) := do
  config.validate
  (s.checkLimits config.limits).mapError .capacityExceeded
  Drawing.ofElements s bounds config

/-- Lays out a set of elements in a diagram that occupies the given bounds. -/
def ElementSet.layout (m : Composer α) (config : Config α) (bounds : Rect α) (s : ElementSet) :
    Except (LayoutError α) (Guarded (Drawing α)) :=
  (Drawing.complete m config) <$> s.prepare config bounds

end DiagramLayout
