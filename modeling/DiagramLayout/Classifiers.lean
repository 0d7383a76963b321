import DiagramLayout.Classifiers.Embrace
import DiagramLayout.Classifiers.Estimate
import DiagramLayout.Classifiers.Gather
import DiagramLayout.Classifiers.Spread

/-!
# Placing classifiers

The five steps that size and place classifiers, each over the whole drawing before the next begins.
The lines of nested containments are left out twice: gathering may complete a nesting that embracing
had to leave.
-/

namespace DiagramLayout

namespace Drawing

variable {α : Type} [Scalar α]

/-- Sizes and places all classifiers. -/
def layoutClassifiers (m : Composer α) (config : Config α) (d : Drawing α) :
    Guarded (Drawing α) := do
  let (d, _) ← (d.estimateBounds m config).moveApart config
  let d ← (d.embraceChildren m config).hideNested.gatherGroups m config
  return d.hideNested

end Drawing

end DiagramLayout
