import DiagramLayout.Composer
import DiagramLayout.Drawing

/-!
# Compartments

Properties, operations and tagged values are listed inside their classifier, one line each. The
lines are stacked from the top of the space in the order of compartment, list key and identifier,
with two borders between neighbouring compartments. `Drawing.entriesSize` is the space they need and
`stackEntries` gives each line its box.
-/

namespace DiagramLayout

/-- The order in which compartments list features. -/
def entryAtMost (f g : Feature) : Bool :=
  let a := f.kind.compartment
  let b := g.kind.compartment
  decide (a < b) || a == b &&
    (decide (f.listKey < g.listKey) || f.listKey == g.listKey && decide (f.id.value ≤ g.id.value))

variable {α : Type} [Scalar α]

/-- The boxes of entries below one another in a space, starting `offset` below its top. -/
def stackEntries (m : Composer α) (border : α) (space : Rect α) :
    α → List (Nat × Feature) → List (Nat × Rect α)
  | _, [] => []
  | offset, (index, f) :: rest =>
    let size := m.entrySize f
    let room := Scalar.max (space.width - Scalar.num 2 * border) 0
    let top := space.minY + offset + Scalar.num 2 * border * Scalar.num f.kind.compartment
    let box := Rect.ofCorner (space.minX + border) top (Scalar.min size.width room) size.height
    (index, box) :: stackEntries m border space (offset + size.height) rest

namespace Drawing

/-- The compartment entries of a classifier with their positions, in the order of the list. -/
def entries (d : Drawing α) (classifier : Nat) : List (Nat × Feature) :=
  let all := d.features.zipIdx.filterMap fun (f, i) =>
    if f.owner == classifier && f.element.kind.isCompartmentEntry then some (i, f.element) else none
  all.mergeSort fun a b => entryAtMost a.2 b.2

/-- The space that a classifier must have for its compartment entries: as wide as the widest and as
high as all of them, with the borders of three compartments around. Without entries there is no
need. -/
def entriesSize (m : Composer α) (config : Config α) (d : Drawing α) (classifier : Nat) : Size α :=
  let sizes := (d.entries classifier).map fun (_, f) => m.entrySize f
  if sizes.isEmpty then .zero
  else
    let width := Scalar.maxFrom 0 (sizes.map (·.width))
    let height := Scalar.sum (sizes.map (·.height))
    ⟨width + Scalar.num 2 * config.border,
      height + Scalar.num 2 * config.border * Scalar.num 3⟩

/-- Gives every compartment entry of a classifier its line. -/
def layoutCompartments (m : Composer α) (config : Config α) (d : Drawing α) (classifier : Nat) :
    Drawing α :=
  let lines := stackEntries m config.border (d.boxes classifier).space config.border
    (d.entries classifier)
  lines.foldl (fun d (index, box) => d.modifyFeature index fun f =>
    { f with symbol := box, label := .empty, direction := .center }) d

end Drawing

end DiagramLayout
