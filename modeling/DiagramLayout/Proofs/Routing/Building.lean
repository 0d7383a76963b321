import DiagramLayout.Proofs.Rect.Algebra
import DiagramLayout.Proofs.Routing.Candidates
import DiagramLayout.Proofs.Routing.Covering
import DiagramLayout.Proofs.Routing.Timed
import DiagramLayout.Proofs.Translation.Geometry

/-!
# Connectors that are built and moved

A connector is built around a vertical or a horizontal main line and may then be moved any number of
times (`Connector.IsBuilt`). Its main line keeps one coordinate along an axis, and the ends of the
main line are across from the ends of the connector (`Connector.Perpendicular`). Building makes this
so and a move keeps it, and with it everything about lengths: a connector is never shorter than its
ends are apart along the axes, and exactly as long if it makes no detour.

Bounds and areas do not depend on how a connector was built. The laws of both are put together with
those of the length in `Connector.IsBuilt.route_laws`.
-/

namespace DiagramLayout

@[simp] lemma Axis.other_other (axis : Axis) : axis.other.other = axis := by
  cases axis <;> rfl

@[simp] lemma Point.along_add (p v : Point ℚ) (axis : Axis) :
    (p + v).along axis = p.along axis + v.along axis := by
  cases axis <;> rfl

/-- The way between two points along the axes, counted from either axis. -/
lemma Point.manhattanLength_sub (p q : Point ℚ) (axis : Axis) :
    (q - p).manhattanLength =
      |q.along axis - p.along axis| + |q.along axis.other - p.along axis.other| := by
  simp only [manhattanLength, Scalar.abs_exact, sub_x, sub_y]
  cases axis with
  | x => rfl
  | y => exact add_comm _ _

/-- The way over a third number is as long as the direct one exactly if that number lies between. -/
lemma between_iff_abs {a b x : ℚ} : |x - a| + |b - x| = |b - a| ↔ Between a b x := by
  have hway : b - a = (x - a) + (b - x) := by ring
  rw [hway, eq_comm, abs_add_eq_add_abs_iff, sub_nonneg, sub_nonneg, sub_nonpos, sub_nonpos,
    and_comm (a := x ≤ a)]
  rfl

namespace Segment

/-- A vertical or horizontal segment is as long as its coordinates differ. -/
lemma IsAxisParallel.length_eq {s : Segment ℚ} (h : s.IsAxisParallel) :
    s.length = (s.stop - s.start).manhattanLength := by
  simp only [Point.manhattanLength, Scalar.abs_exact, Point.sub_x, Point.sub_y]
  rcases h with hx | hy
  · rw [length_of_x_eq hx, hx, sub_self, abs_zero, zero_add]
  · rw [length_of_y_eq hy, hy, sub_self, abs_zero, add_zero]

/-- A segment that keeps a coordinate is as long as the other coordinates differ. -/
lemma length_of_along_eq {s : Segment ℚ} {axis : Axis}
    (h : s.start.along axis = s.stop.along axis) :
    s.length = |s.stop.along axis.other - s.start.along axis.other| := by
  cases axis with
  | x => exact length_of_x_eq h
  | y => exact length_of_y_eq h

/-- A segment that keeps a coordinate is vertical or horizontal. -/
lemma isAxisParallel_of_along_eq {s : Segment ℚ} {axis : Axis}
    (h : s.start.along axis = s.stop.along axis) : s.IsAxisParallel := by
  cases axis with
  | x => exact Or.inl h
  | y => exact Or.inr h

end Segment

namespace Connector

/-- The connector was built around a main line that keeps its coordinate along the axis, and then it
was moved, any number of times. -/
inductive IsBuilt : Connector ℚ → Axis → Prop
  | vertical (source target : Point ℚ) (x : ℚ) : IsBuilt (.vertical source target x) .x
  | horizontal (source target : Point ℚ) (y : ℚ) : IsBuilt (.horizontal source target y) .y
  | translate {c : Connector ℚ} {axis : Axis} (hc : IsBuilt c axis) (offset : Point ℚ) :
      IsBuilt (c.translate offset) axis

/-- The main line keeps its coordinate along the axis, and the segments to its ends keep the other
coordinate. -/
structure Perpendicular (c : Connector ℚ) (axis : Axis) : Prop where
  main : c.mainStart.along axis = c.mainEnd.along axis
  source : c.source.along axis.other = c.mainStart.along axis.other
  target : c.mainEnd.along axis.other = c.target.along axis.other

variable {c : Connector ℚ} {axis : Axis}

/-- A move keeps the coordinates equal that were. -/
lemma Perpendicular.translate (h : c.Perpendicular axis) (offset : Point ℚ) :
    (c.translate offset).Perpendicular axis := by
  constructor <;> simp only [Connector.translate, Point.along_add]
  · rw [h.main]
  · rw [h.source]
  · rw [h.target]

/-- Every connector that is built and moved keeps its coordinates. -/
lemma IsBuilt.perpendicular (h : c.IsBuilt axis) : c.Perpendicular axis := by
  induction h with
  | vertical source target x => exact ⟨rfl, rfl, rfl⟩
  | horizontal source target y => exact ⟨rfl, rfl, rfl⟩
  | translate _ offset ih => exact ih.translate offset

namespace Perpendicular

/-- All segments are vertical or horizontal. -/
lemma isAxisParallel (h : c.Perpendicular axis) : ∀ s ∈ c.segments, s.IsAxisParallel := by
  simp only [segments, List.forall_mem_cons, List.not_mem_nil, false_imp_iff, implies_true,
    and_true]
  exact ⟨Segment.isAxisParallel_of_along_eq h.source, Segment.isAxisParallel_of_along_eq h.main,
    Segment.isAxisParallel_of_along_eq h.target⟩

/-- The length is the way over the main line along one axis and the direct way along the other. -/
lemma length_eq (h : c.Perpendicular axis) :
    c.length = |c.mainStart.along axis - c.source.along axis| +
      |c.target.along axis - c.mainStart.along axis| +
      |c.target.along axis.other - c.source.along axis.other| := by
  rw [Connector.length_eq, Segment.length_of_along_eq h.source, Segment.length_of_along_eq h.main,
    Segment.length_of_along_eq h.target, Axis.other_other, ← h.main, h.source, h.target]
  exact add_right_comm _ _ _

/-- No connector is shorter than its ends are apart along the axes. -/
lemma manhattanLength_le (h : c.Perpendicular axis) :
    (c.target - c.source).manhattanLength ≤ c.length := by
  rw [h.length_eq, Point.manhattanLength_sub _ _ axis, add_comm |c.mainStart.along axis - _|]
  exact add_le_add_left (abs_sub_le _ _ _) _

/-- A connector makes no detour exactly if its main line lies between its ends. -/
lemma length_eq_iff (h : c.Perpendicular axis) :
    c.length = (c.target - c.source).manhattanLength ↔
      Between (c.source.along axis) (c.target.along axis) (c.mainStart.along axis) := by
  rw [h.length_eq, Point.manhattanLength_sub _ _ axis, add_left_inj, between_iff_abs]

end Perpendicular

/-- The bounds of a connector lie in exactly those rectangles that have all its corners. -/
lemma contains_bounds_iff {box : Rect ℚ} :
    box.contains c.bounds = true ↔ ∀ p ∈ c.corners, box.containsPoint p = true := by
  simp only [bounds, corners, Rect.contains_join_iff, Rect.contains_spanning_iff,
    List.forall_mem_cons, List.not_mem_nil, false_imp_iff, implies_true, and_true]
  tauto

/-- A connector that was built and moved consists of vertical and horizontal segments. It is never
shorter than its ends are apart along the axes, and as long exactly if its main line lies between
them. Its bounds are the least rectangle with its corners. What it covers of a rectangle or of
another connector is not negative, is mutual between connectors, does not change when both are
moved, and grows with the width of the line and with the rectangle. -/
theorem IsBuilt.route_laws (hc : c.IsBuilt axis) (other : Connector ℚ) (r : Rect ℚ) {w : ℚ}
    (hw : 0 < w) :
    (∀ s ∈ c.segments, s.IsAxisParallel ∧ s.length = (s.stop - s.start).manhattanLength) ∧
      ((c.target - c.source).manhattanLength ≤ c.length ∧
        c.mainStart.along axis = c.mainEnd.along axis ∧
        (c.length = (c.target - c.source).manhattanLength ↔
          Between (c.source.along axis) (c.target.along axis) (c.mainStart.along axis))) ∧
      ((∀ p ∈ c.corners, c.bounds.containsPoint p = true) ∧
        ∀ box : Rect ℚ, (∀ p ∈ c.corners, box.containsPoint p = true) →
          box.contains c.bounds = true) ∧
      c.crossing other w = other.crossing c w ∧
      (0 ≤ c.coverage r w ∧ 0 ≤ c.crossing other w) ∧
      (∀ v, (c.translate v).coverage (r.translate v) w = c.coverage r w ∧
        (c.translate v).crossing (other.translate v) w = c.crossing other w) ∧
      (∀ w', w ≤ w' →
        c.coverage r w ≤ c.coverage r w' ∧ c.crossing other w ≤ c.crossing other w') ∧
      ∀ r' : Rect ℚ, r'.contains r = true → c.coverage r w ≤ c.coverage r' w := by
  have hperp := hc.perpendicular
  have hcovers := Debt.Measures.coverage c w
  refine ⟨?_, ⟨hperp.manhattanLength_le, hperp.main, hperp.length_eq_iff⟩, ?_,
    c.crossing_comm other w, ⟨hcovers.nonneg r, c.crossing_nonneg other w⟩, ?_, ?_, ?_⟩
  · intro s hs
    have hparallel := hperp.isAxisParallel s hs
    exact ⟨hparallel, hparallel.length_eq⟩
  · exact ⟨contains_bounds_iff.mp (Rect.contains_self _), fun box => contains_bounds_iff.mpr⟩
  · intro v
    exact ⟨c.coverage_translate v hw r, c.crossing_translate v hw other⟩
  · intro w' hle
    exact ⟨c.coverage_le_of_wider hw.le hle r, c.crossing_le_of_wider other hw.le hle⟩
  · intro r' hr'
    exact hcovers.mono hr'

/-- A main line at the `x` of the source leaves the first segment without extent, and the connector
makes no detour. -/
theorem IsBuilt.route_laws_throughSource :
    let c : Connector ℚ :=
      ((Connector.vertical ⟨0, 0⟩ ⟨20, 30⟩ 0).translate ⟨5, 5⟩).translate ⟨-2, 1⟩
    let other : Connector ℚ := .horizontal ⟨-10, 20⟩ ⟨40, 25⟩ 20
    let r : Rect ℚ := ⟨0, 0, 10, 10⟩
    let larger : Rect ℚ := ⟨0, 0, 30, 40⟩
    (c.IsBuilt .x ∧ (0 : ℚ) < 2) ∧
      (Between (c.source.along .x) (c.target.along .x) (c.mainStart.along .x) ∧
        c.length = (c.target - c.source).manhattanLength) ∧
      (c.crossing other 2 = 4 ∧ c.crossing other 2 = other.crossing c 2) ∧
      ((2 : ℚ) ≤ 6 ∧ c.crossing other 2 ≤ c.crossing other 6) ∧
      (larger.contains r = true ∧ c.coverage r 2 ≤ c.coverage larger 2) := by
  intro c other r larger
  have hbuilt : c.IsBuilt .x := ((IsBuilt.vertical ⟨0, 0⟩ ⟨20, 30⟩ 0).translate _).translate _
  have hwidth : (0 : ℚ) < 2 := by decide +kernel
  have hbetween : Between (c.source.along .x) (c.target.along .x) (c.mainStart.along .x) :=
    Or.inl (by decide +kernel)
  have hwider : (2 : ℚ) ≤ 6 := by decide +kernel
  have hlarger : larger.contains r = true := by decide +kernel
  obtain ⟨-, ⟨-, -, hlength⟩, -, hmutual, -, -, hwidens, hgrows⟩ :=
    hbuilt.route_laws other r hwidth
  exact ⟨⟨hbuilt, hwidth⟩, ⟨hbetween, hlength.mpr hbetween⟩, ⟨by decide +kernel, hmutual⟩,
    ⟨hwider, (hwidens 6 hwider).2⟩, hlarger, hgrows larger hlarger⟩

end Connector

end DiagramLayout
