import DiagramLayout.Drawing

/-!
# Strangers

Two classifiers are strangers unless they are the same or one encloses the other. Strangers should
not overlap, and no step of the layout that moves or grows a classifier adds overlap with a stranger
of it. What the steps compare is the area that a box shares with all strangers of a classifier, and
`strangerOverlapSum` adds up all of it.
-/

namespace DiagramLayout

variable {α : Type} [Scalar α]

/-- The envelopes of the strangers of a classifier, in the order of their positions. -/
def strangers (nesting : Nesting) (index : Nat) (envelopes : List (Rect α)) : List (Rect α) :=
  (envelopes.zipIdx.filter fun (_, other) => !nesting.related index other).map Prod.fst

/-- The area that a box shares with the strangers of a classifier. -/
def strangerOverlap (nesting : Nesting) (index : Nat) (envelopes : List (Rect α)) (probe : Rect α) :
    α :=
  Scalar.sum ((strangers nesting index envelopes).map probe.overlapArea)

/-- The area that strangers share, each pair counted once. -/
def strangerOverlapSum (nesting : Nesting) (envelopes : List (Rect α)) : α :=
  Scalar.sum (envelopes.zipIdx.map fun (envelope, index) =>
    strangerOverlap nesting index (envelopes.take index) envelope)

/-- The region in which the center of a box of a given size keeps the box within `free`. -/
def centerRegion (free : Rect α) (size : Size α) : Rect α :=
  .spanning
    ⟨free.minX + size.width / Scalar.num 2, free.minY + size.height / Scalar.num 2⟩
    ⟨free.maxX - size.width / Scalar.num 2, free.maxY - size.height / Scalar.num 2⟩

end DiagramLayout
