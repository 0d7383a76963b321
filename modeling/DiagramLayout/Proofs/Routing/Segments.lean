import DiagramLayout.Geometry.Connector
import DiagramLayout.Proofs.Rect

/-!
# Segments and straight shortcuts

A connector is a *shortcut* of another if it is shorter and runs straight within one of the other's
segments (`Connector.Shortcut`). A segment that lies within another one covers a part of what that
one covers (`Segment.Holds.thick`).

Connectors can be read from their other end and be mirrored on the diagonal of the plane. Both keep
lengths and shortcuts, so one orientation stands for four.
-/

namespace DiagramLayout

namespace Scalar

/-- The legs of a hypotenuse may be exchanged. -/
lemma hypot_comm (x y : ℚ) : hypot x y = hypot y x := by
  change Exact.hypot x y = Exact.hypot y x
  unfold Exact.hypot
  rw [add_comm (x * x)]
  split_ifs with hy hx
  · rw [hx, hy]
  all_goals rfl

/-- A hypotenuse does not depend on the directions of its legs. -/
lemma hypot_neg (x y : ℚ) : hypot (-x) (-y) = hypot x y := by
  have habs (z : ℚ) : Exact.abs (-z) = Exact.abs z :=
    (abs_exact (-z)).trans ((abs_neg z).trans (abs_exact z).symm)
  change Exact.hypot (-x) (-y) = Exact.hypot x y
  simp only [Exact.hypot, neg_eq_zero, habs, neg_mul_neg]

end Scalar

/-! ## Segments -/

/-- Points with the same coordinates are the same. -/
lemma Point.eq_of_coordinates {p q : Point ℚ} (hx : p.x = q.x) (hy : p.y = q.y) : p = q := by
  cases p
  cases q
  exact congrArg₂ Point.mk hx hy

/-- The point mirrored on the diagonal. -/
def Point.transpose (p : Point ℚ) : Point ℚ := ⟨p.y, p.x⟩

/-- The rectangle mirrored on the diagonal. -/
def Rect.transpose (r : Rect ℚ) : Rect ℚ := ⟨r.minY, r.minX, r.maxY, r.maxX⟩

namespace Segment

/-- The point lies on the segment, at a fraction of the way from its start. -/
def HasPoint (s : Segment ℚ) (p : Point ℚ) : Prop :=
  ∃ k : ℚ, 0 ≤ k ∧ k ≤ 1 ∧ p = s.start + (s.stop - s.start).scale k

/-- The segment is vertical or horizontal. -/
def IsAxisParallel (s : Segment ℚ) : Prop := s.start.x = s.stop.x ∨ s.start.y = s.stop.y

/-- No point of the segment lies inside the rectangle. -/
def Avoids (s : Segment ℚ) (r : Rect ℚ) : Prop := ∀ p, s.HasPoint p → ¬ r.HasInside p

/-- Both ends lie beyond the same side of the rectangle or on it. -/
def Passes (s : Segment ℚ) (r : Rect ℚ) : Prop :=
  s.start.x ≤ r.minX ∧ s.stop.x ≤ r.minX ∨ r.maxX ≤ s.start.x ∧ r.maxX ≤ s.stop.x ∨
    s.start.y ≤ r.minY ∧ s.stop.y ≤ r.minY ∨ r.maxY ≤ s.start.y ∧ r.maxY ≤ s.stop.y

/-- Both ends of the second segment lie in the least rectangle around the first. -/
def Holds (t s : Segment ℚ) : Prop :=
  (Rect.spanning t.start t.stop).contains (Rect.spanning s.start s.stop) = true

/-- A coordinate on the way between two others stays on their side of a bound. -/
lemma between_of_le {a b k : ℚ} (hk : 0 ≤ k) (hk' : k ≤ 1) :
    min a b ≤ a + (b - a) * k ∧ a + (b - a) * k ≤ max a b := by
  have hmix : a + (b - a) * k = (1 - k) * a + k * b := by ring
  have hsum : 1 - k + k = 1 := by ring
  rw [hmix]
  have hleft : 0 ≤ 1 - k := by linarith
  constructor
  · calc min a b = (1 - k) * min a b + k * min a b := by ring
      _ ≤ (1 - k) * a + k * b := add_le_add
        (mul_le_mul_of_nonneg_left (min_le_left a b) hleft)
        (mul_le_mul_of_nonneg_left (min_le_right a b) hk)
  · calc (1 - k) * a + k * b ≤ (1 - k) * max a b + k * max a b := add_le_add
          (mul_le_mul_of_nonneg_left (le_max_left a b) hleft)
          (mul_le_mul_of_nonneg_left (le_max_right a b) hk)
      _ = max a b := by ring

/-- A segment that passes a rectangle on one side does not run through its inside. -/
lemma Passes.avoids {s : Segment ℚ} {r : Rect ℚ} (h : s.Passes r) : s.Avoids r := by
  rintro p ⟨k, hk, hk', rfl⟩ ⟨hleft, hright, htop, hbottom⟩
  obtain ⟨hminX, hmaxX⟩ := between_of_le (a := s.start.x) (b := s.stop.x) hk hk'
  obtain ⟨hminY, hmaxY⟩ := between_of_le (a := s.start.y) (b := s.stop.y) hk hk'
  simp only [Point.add_x, Point.add_y, Point.scale, Point.sub_x, Point.sub_y] at *
  rcases h with ⟨h, h'⟩ | ⟨h, h'⟩ | ⟨h, h'⟩ | ⟨h, h'⟩
  · exact absurd (hmaxX.trans (max_le h h')) (not_le.mpr hleft)
  · exact absurd ((le_min h h').trans hminX) (not_le.mpr hright)
  · exact absurd (hmaxY.trans (max_le h h')) (not_le.mpr htop)
  · exact absurd ((le_min h h').trans hminY) (not_le.mpr hbottom)

/-- The rectangle around a segment of some extent is the one around its ends, padded by half the
width of the line. -/
lemma thick_exact {s : Segment ℚ} (hs : s.start ≠ s.stop) {w : ℚ} (hw : 0 ≤ w) :
    s.thick w = (Rect.spanning s.start s.stop).pad (.uniform (w / 2)) := by
  have hextent : ¬ (s.stop - s.start).isOrigin = true := by
    intro horigin
    simp only [Point.isOrigin, Bool.and_eq_true, Scalar.isZero_exact, Point.sub_x, Point.sub_y,
      sub_eq_zero] at horigin
    exact hs (Point.eq_of_coordinates horigin.1.symm horigin.2.symm)
  have hwide : 0 ≤ (Rect.spanning s.start s.stop).width + w := by
    simp only [Rect.width, Rect.spanning, Scalar.min_exact, Scalar.max_exact]
    exact add_nonneg (sub_nonneg.mpr min_le_max) hw
  have hhigh : 0 ≤ (Rect.spanning s.start s.stop).height + w := by
    simp only [Rect.height, Rect.spanning, Scalar.min_exact, Scalar.max_exact]
    exact add_nonneg (sub_nonneg.mpr min_le_max) hw
  rw [thick, if_neg hextent, Rect.expand, Scalar.max_exact, Scalar.max_exact, max_eq_left hwide,
    max_eq_left hhigh]
  simp only [Rect.centered, Rect.center, Rect.width, Rect.height, Rect.pad, Insets.uniform,
    Scalar.num_exact, Rect.mk.injEq]
  refine ⟨?_, ?_, ?_, ?_⟩ <;> push_cast <;> ring

/-- A segment without extent covers nothing. -/
lemma thick_of_eq {s : Segment ℚ} (hs : s.start = s.stop) (w : ℚ) : s.thick w = .empty := by
  have horigin : (s.stop - s.start).isOrigin = true := by
    simp [Point.isOrigin, Scalar.isZero_exact, hs]
  rw [thick, if_pos horigin]

/-- A segment holds itself. -/
lemma holds_self (s : Segment ℚ) : s.Holds s := Rect.contains_self _

/-- A segment that is held by another has no extent or covers a part of what the other covers when
it is drawn at least as wide. -/
lemma Holds.thick {t s : Segment ℚ} (h : t.Holds s) {w w' : ℚ} (hw : 0 ≤ w) (hle : w ≤ w') :
    s.thick w = .empty ∨ (t.thick w').contains (s.thick w) = true := by
  by_cases hs : s.start = s.stop
  · exact Or.inl (thick_of_eq hs w)
  · right
    have ht : t.start ≠ t.stop := by
      intro ht
      refine hs ?_
      have hin := Rect.contains_iff.mp h
      simp only [Rect.spanning, ht, Scalar.min_exact, Scalar.max_exact, min_self, max_self,
        le_min_iff, max_le_iff] at hin
      obtain ⟨⟨hx, hx'⟩, ⟨hy, hy'⟩, ⟨hX, hX'⟩, hY, hY'⟩ := hin
      exact Point.eq_of_coordinates ((le_antisymm hX hx).trans (le_antisymm hx' hX'))
        ((le_antisymm hY hy).trans (le_antisymm hy' hY'))
    rw [thick_exact hs hw, thick_exact ht (hw.trans hle)]
    refine Rect.contains_trans (Rect.contains_pad_of_le _ ?_) (Rect.contains_pad_pad h _)
    exact div_le_div_of_nonneg_right hle zero_le_two

/-- The segment read from its other end. -/
def flip (s : Segment ℚ) : Segment ℚ := ⟨s.stop, s.start⟩

/-- The segment mirrored on the diagonal. -/
def transpose (s : Segment ℚ) : Segment ℚ := ⟨s.start.transpose, s.stop.transpose⟩

/-- A segment is as long from its other end. -/
lemma length_flip (s : Segment ℚ) : s.flip.length = s.length := by
  have hneg (a b : ℚ) : a - b = -(b - a) := by ring
  simp only [length, flip, Point.length, Point.sub_x, Point.sub_y]
  rw [hneg s.start.x, hneg s.start.y, Scalar.hypot_neg]

/-- A mirrored segment is as long. -/
lemma length_transpose (s : Segment ℚ) : s.transpose.length = s.length :=
  Scalar.hypot_comm _ _

/-- A vertical segment is as long as its coordinates differ. -/
lemma length_of_x_eq {s : Segment ℚ} (h : s.start.x = s.stop.x) :
    s.length = |s.stop.y - s.start.y| := by
  rw [length, Point.length, Point.sub_x, Point.sub_y, h, sub_self, Scalar.hypot_zero_left]

/-- A horizontal segment is as long as its coordinates differ. -/
lemma length_of_y_eq {s : Segment ℚ} (h : s.start.y = s.stop.y) :
    s.length = |s.stop.x - s.start.x| := by
  rw [length, Point.length, Point.sub_x, Point.sub_y, h, sub_self, Scalar.hypot_zero_right]

/-- A segment read from its other end passes the same rectangles. -/
lemma passes_flip {s : Segment ℚ} {r : Rect ℚ} : s.flip.Passes r ↔ s.Passes r := by
  simp only [Passes, flip, and_comm]

/-- A mirrored segment passes the mirrored rectangles. -/
lemma passes_transpose {s : Segment ℚ} {r : Rect ℚ} :
    s.transpose.Passes r.transpose ↔ s.Passes r := by
  simp only [Passes, transpose, Point.transpose, Rect.transpose]
  tauto

/-- A segment read from its other end holds what it held, from either end. -/
lemma Holds.flip {t s : Segment ℚ} (h : t.Holds s) : t.flip.Holds s.flip := by
  simp only [Holds, Segment.flip, Rect.spanning, Scalar.min_exact, Scalar.max_exact] at h ⊢
  rwa [min_comm t.stop.x, min_comm t.stop.y, max_comm t.stop.x, max_comm t.stop.y,
    min_comm s.stop.x, min_comm s.stop.y, max_comm s.stop.x, max_comm s.stop.y]

/-- A mirrored segment holds what it held, mirrored. -/
lemma Holds.transpose {t s : Segment ℚ} (h : t.Holds s) : t.transpose.Holds s.transpose := by
  obtain ⟨hx, hy, hX, hY⟩ := Rect.contains_iff.mp h
  exact Rect.contains_iff.mpr ⟨hy, hx, hY, hX⟩

end Segment

/-! ## Connectors -/

namespace Connector

/-- The connector read from its target. -/
def reverse (c : Connector ℚ) : Connector ℚ := ⟨c.target, c.mainEnd, c.mainStart, c.source⟩

/-- The connector mirrored on the diagonal. -/
def transpose (c : Connector ℚ) : Connector ℚ :=
  ⟨c.source.transpose, c.mainStart.transpose, c.mainEnd.transpose, c.target.transpose⟩

/-- Every segment of the connector passes the rectangle on one of its sides. -/
def Passes (c : Connector ℚ) (r : Rect ℚ) : Prop := ∀ s ∈ c.segments, s.Passes r

/-- The connector is a single line, which lies within a segment of another connector. -/
structure StraightWithin (c' c : Connector ℚ) : Prop where
  start : c'.source = c'.mainStart
  stop : c'.mainEnd = c'.target
  main : ∃ t ∈ c.segments, t.Holds ⟨c'.mainStart, c'.mainEnd⟩

/-- The connector is shorter than another and a single line within a segment of it. -/
structure Shortcut (c' c : Connector ℚ) : Prop where
  straight : c'.StraightWithin c
  shorter : c'.length < c.length

/-- The length of a connector is that of its three segments. -/
lemma length_eq (c : Connector ℚ) :
    c.length = Segment.length ⟨c.source, c.mainStart⟩ + Segment.length ⟨c.mainStart, c.mainEnd⟩ +
      Segment.length ⟨c.mainEnd, c.target⟩ := by
  simp only [length, segments, List.map_cons, List.map_nil, Scalar.sum_exact, List.sum_cons,
    List.sum_nil]
  ring

/-- The length of a connector with a vertical main line. -/
lemma length_vertical (p q : Point ℚ) (x : ℚ) :
    (vertical p q x).length = |x - p.x| + |q.y - p.y| + |q.x - x| := by
  rw [length_eq]
  exact congrArg₂ _ (congrArg₂ _ (Segment.length_of_y_eq rfl) (Segment.length_of_x_eq rfl))
    (Segment.length_of_y_eq rfl)

/-- The length of a connector with a horizontal main line. -/
lemma length_horizontal (p q : Point ℚ) (y : ℚ) :
    (horizontal p q y).length = |y - p.y| + |q.x - p.x| + |q.y - y| := by
  rw [length_eq]
  exact congrArg₂ _ (congrArg₂ _ (Segment.length_of_x_eq rfl) (Segment.length_of_y_eq rfl))
    (Segment.length_of_x_eq rfl)

/-- The segments of a connector read from its target. -/
lemma segments_reverse (c : Connector ℚ) :
    c.reverse.segments = (c.segments.map Segment.flip).reverse :=
  rfl

/-- The segments of a mirrored connector. -/
lemma segments_transpose (c : Connector ℚ) :
    c.transpose.segments = c.segments.map Segment.transpose :=
  rfl

/-- A connector is as long from its target. -/
lemma length_reverse (c : Connector ℚ) : c.reverse.length = c.length := by
  have hlength : (Segment.length ∘ Segment.flip : Segment ℚ → ℚ) = Segment.length :=
    funext Segment.length_flip
  rw [length, length, segments_reverse, Scalar.sum_exact, Scalar.sum_exact, List.map_reverse,
    List.sum_reverse, List.map_map, hlength]

/-- A mirrored connector is as long. -/
lemma length_transpose (c : Connector ℚ) : c.transpose.length = c.length := by
  have hlength : (Segment.length ∘ Segment.transpose : Segment ℚ → ℚ) = Segment.length :=
    funext Segment.length_transpose
  rw [length, length, segments_transpose, List.map_map, hlength]

/-- A connector read from its target passes the same rectangles. -/
lemma Passes.reverse {c : Connector ℚ} {r : Rect ℚ} (h : c.Passes r) : c.reverse.Passes r := by
  intro s hs
  rw [segments_reverse, List.mem_reverse] at hs
  obtain ⟨t, ht, rfl⟩ := List.mem_map.mp hs
  exact Segment.passes_flip.mpr (h t ht)

/-- A mirrored connector passes the mirrored rectangles. -/
lemma Passes.transpose {c : Connector ℚ} {r : Rect ℚ} (h : c.Passes r) :
    c.transpose.Passes r.transpose := by
  intro s hs
  rw [segments_transpose] at hs
  obtain ⟨t, ht, rfl⟩ := List.mem_map.mp hs
  exact Segment.passes_transpose.mpr (h t ht)

/-- A shortcut is one from the target as well. -/
lemma Shortcut.reverse {c' c : Connector ℚ} (h : c'.Shortcut c) :
    c'.reverse.Shortcut c.reverse := by
  obtain ⟨⟨hstart, hstop, t, ht, hholds⟩, hshorter⟩ := h
  refine ⟨⟨hstop.symm, hstart.symm, t.flip, ?_, hholds.flip⟩, ?_⟩
  · rw [segments_reverse, List.mem_reverse]
    exact List.mem_map_of_mem ht
  · rwa [length_reverse, length_reverse]

/-- A shortcut is one in the mirror as well. -/
lemma Shortcut.transpose {c' c : Connector ℚ} (h : c'.Shortcut c) :
    c'.transpose.Shortcut c.transpose := by
  obtain ⟨⟨hstart, hstop, t, ht, hholds⟩, hshorter⟩ := h
  refine ⟨⟨congrArg Point.transpose hstart, congrArg Point.transpose hstop, t.transpose, ?_,
    hholds.transpose⟩, ?_⟩
  · rw [segments_transpose]
    exact List.mem_map_of_mem ht
  · rwa [length_transpose, length_transpose]

end Connector

end DiagramLayout
