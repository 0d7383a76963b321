import DiagramLayout.Geometry.Point

/-!
# Directions

The eight directions of the compass, and the absence of one. An icon on the border of a box points
in a direction; an icon that has none points to the center.
-/

namespace DiagramLayout

/-- A compass direction, or none. -/
inductive Direction where
  | center
  | left
  | upLeft
  | up
  | upRight
  | right
  | downRight
  | down
  | downLeft
deriving DecidableEq, Repr

namespace Direction

/-- The direction that points back. -/
def opposite : Direction → Direction
  | center => center
  | left => right
  | upLeft => downRight
  | up => down
  | upRight => downLeft
  | right => left
  | downRight => upLeft
  | down => up
  | downLeft => upRight

@[simp] theorem opposite_opposite (d : Direction) : d.opposite.opposite = d := by
  cases d <;> rfl

/-- One step in the direction; upwards is towards smaller `y`. -/
def step {α : Type} [Scalar α] : Direction → Point α
  | center => ⟨0, 0⟩
  | left => ⟨-Scalar.num 1, 0⟩
  | upLeft => ⟨-Scalar.num 1, -Scalar.num 1⟩
  | up => ⟨0, -Scalar.num 1⟩
  | upRight => ⟨Scalar.num 1, -Scalar.num 1⟩
  | right => ⟨Scalar.num 1, 0⟩
  | downRight => ⟨Scalar.num 1, Scalar.num 1⟩
  | down => ⟨0, Scalar.num 1⟩
  | downLeft => ⟨-Scalar.num 1, Scalar.num 1⟩

/-- The name of a direction. -/
def name : Direction → String
  | center => "Center"
  | left => "Left"
  | upLeft => "UpLeft"
  | up => "Up"
  | upRight => "UpRight"
  | right => "Right"
  | downRight => "DownRight"
  | down => "Down"
  | downLeft => "DownLeft"

/-- Every direction. -/
def all : List Direction :=
  [center, left, upLeft, up, upRight, right, downRight, down, downLeft]

end Direction

end DiagramLayout
