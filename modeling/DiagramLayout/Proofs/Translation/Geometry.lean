import DiagramLayout.Classifiers.Stranger
import DiagramLayout.Geometry.Connector
import DiagramLayout.Proofs.Composing
import DiagramLayout.Proofs.Scale

/-!
# Geometry that does not depend on where the origin is

Over exact numbers the operations on rectangles, connectors and scales commute with a translation of
everything, and the numbers that are read off, such as extents, areas and offsets, stay the same.

There is one exception. What has no area is at times the empty rectangle at the origin, and that
stays where it is when everything else moves: an overlap, a strip beside an obstacle and a label of
no extent move by `Rect.translateArea`. Such a rectangle shares no area with any other, so no area
that is compared tells the difference.
-/

namespace DiagramLayout

namespace Point

/-- Points that are moved by the same offset keep their difference. -/
@[simp] lemma add_sub_add (p q v : Point ℚ) : (p + v) - (q + v) = p - q := by
  have hx : p.x + v.x - (q.x + v.x) = p.x - q.x := add_sub_add_right_eq_sub _ _ _
  have hy : p.y + v.y - (q.y + v.y) = p.y - q.y := add_sub_add_right_eq_sub _ _ _
  exact congrArg₂ Point.mk hx hy

/-- It does not matter which of two offsets is added first. -/
lemma add_add_right_comm (p q v : Point ℚ) : p + v + q = p + q + v :=
  congrArg₂ Point.mk (add_right_comm p.x v.x q.x) (add_right_comm p.y v.y q.y)

/-- The midpoint moves with the points. -/
lemma midpoint_add (p q v : Point ℚ) : (p + v).midpoint (q + v) = p.midpoint q + v := by
  have haxis (a b d : ℚ) : (a + d + (b + d)) / (2 : ℕ) = (a + b) / (2 : ℕ) + d := by
    push_cast
    ring
  exact congrArg₂ Point.mk (haxis p.x q.x v.x) (haxis p.y q.y v.y)

end Point

/-- Pushing a number into an interval that moves with it moves the result. -/
lemma clamp_add (low high x d : ℚ) :
    clamp (low + d) (high + d) (x + d) = (· + d) <$> clamp low high x := by
  refine Guarded.ext_parts ?_ ?_
  · rw [Guarded.value_map]
    unfold clamp
    dsimp only
    simp only [add_lt_add_iff_right]
    split_ifs <;> rfl
  · rw [Guarded.defined_map]
    simp only [clamp, add_le_add_iff_right]

namespace Rect

/-! ## Rectangles -/

/-- The rectangle moved by an offset, or left where it is if it has no area. -/
def translateArea (r : Rect ℚ) (v : Point ℚ) : Rect ℚ := if r.isEmpty then r else r.translate v

variable (r : Rect ℚ) (v : Point ℚ)

/-- The center moves with the rectangle. -/
@[simp] lemma center_translate : (r.translate v).center = r.center + v :=
  Point.midpoint_add ⟨r.minX, r.minY⟩ ⟨r.maxX, r.maxY⟩ v

/-- Moving keeps the size. -/
@[simp] lemma size_translate : (r.translate v).size = r.size := by
  rw [size, size, width_translate, height_translate]

/-- Moving keeps the area. -/
@[simp] lemma area_translate : (r.translate v).area = r.area := by
  rw [area, area, isEmpty_translate, width_translate, height_translate]

/-- It does not matter which of two moves comes first. -/
lemma translate_comm (w : Point ℚ) : (r.translate v).translate w = (r.translate w).translate v := by
  simp only [translate, add_right_comm _ v.x w.x, add_right_comm _ v.y w.y]

/-- A move may be made in two parts. -/
lemma translate_add (w : Point ℚ) : r.translate (v + w) = (r.translate v).translate w := by
  simp only [translate, Point.add_x, Point.add_y, add_assoc]

/-- The area outside a rectangle is kept if both move. -/
@[simp] lemma areaOutside_translate (outer : Rect ℚ) :
    (r.translate v).areaOutside (outer.translate v) = r.areaOutside outer := by
  rw [areaOutside, areaOutside, area_translate, overlapArea_translate]

/-- Rectangles that move together overlap as before. -/
@[simp] lemma overlaps_translate (b : Rect ℚ) :
    (r.translate v).overlaps (b.translate v) = r.overlaps b := by
  rw [Bool.eq_iff_iff, overlaps_exact, overlaps_exact, overlapArea_translate]

/-! ### Rectangles without area -/

/-- A rectangle has an area if it has both extents. -/
lemma isEmpty_eq_false_iff {r : Rect ℚ} : r.isEmpty = false ↔ 0 < r.width ∧ 0 < r.height := by
  simp [isEmpty]

/-- A rectangle with an area moves. -/
lemma translateArea_of_not_isEmpty {r : Rect ℚ} (h : r.isEmpty = false) (v : Point ℚ) :
    r.translateArea v = r.translate v := by
  rw [translateArea, if_neg (by simp [h])]

/-- The empty rectangle stays where it is. -/
@[simp] lemma translateArea_empty : (empty : Rect ℚ).translateArea v = empty := by
  rw [translateArea, if_pos]
  simp [isEmpty, width, empty]

/-- What has an area has it wherever it is. -/
@[simp] lemma isEmpty_translateArea : (r.translateArea v).isEmpty = r.isEmpty := by
  unfold translateArea
  split_ifs
  · rfl
  · exact isEmpty_translate r v

/-- A rectangle without area shares none. -/
lemma overlapArea_of_isEmpty {r : Rect ℚ} (h : r.isEmpty = true) (b : Rect ℚ) :
    r.overlapArea b = 0 := by
  have hsides : r.maxX - r.minX ≤ 0 ∨ r.maxY - r.minY ≤ 0 := by
    simpa [isEmpty, width, height] using h
  rw [overlapArea_exact]
  rcases hsides with hx | hy
  · have hshared : r.sharedX b = 0 :=
      max_eq_right ((sub_le_sub (min_le_left _ _) (le_max_left _ _)).trans hx)
    rw [hshared, zero_mul]
  · have hshared : r.sharedY b = 0 :=
      max_eq_right ((sub_le_sub (min_le_left _ _) (le_max_left _ _)).trans hy)
    rw [hshared, mul_zero]

/-- Whether a rectangle without area moves makes no difference to the area that is shared. -/
@[simp] lemma overlapArea_translateArea_left (b : Rect ℚ) :
    (r.translateArea v).overlapArea (b.translate v) = r.overlapArea b := by
  unfold translateArea
  split_ifs with hempty
  · rw [overlapArea_of_isEmpty hempty, overlapArea_of_isEmpty hempty]
  · exact overlapArea_translate v

/-- Whether a rectangle without area moves makes no difference to the area that is shared. -/
@[simp] lemma overlapArea_translateArea_right (b : Rect ℚ) :
    (b.translate v).overlapArea (r.translateArea v) = b.overlapArea r := by
  rw [overlapArea_comm, overlapArea_translateArea_left, overlapArea_comm]

/-- Whether a rectangle without area moves makes no difference to the area outside another. -/
@[simp] lemma areaOutside_translateArea (outer : Rect ℚ) :
    (r.translateArea v).areaOutside (outer.translate v) = r.areaOutside outer := by
  unfold translateArea
  split_ifs with hempty
  · rw [areaOutside, areaOutside, overlapArea_of_isEmpty hempty, overlapArea_of_isEmpty hempty]
  · exact areaOutside_translate r v outer

/-- The overlap moves with the rectangles, if there is one. -/
lemma overlap_translate (b : Rect ℚ) :
    (r.translate v).overlap (b.translate v) = (r.overlap b).translateArea v := by
  unfold overlap
  simp only [translate_minX, translate_minY, translate_maxX, translate_maxY, Scalar.min_exact,
    Scalar.max_exact, min_add_add_right, max_add_add_right, add_le_add_iff_right, Bool.or_eq_true,
    decide_eq_true_eq]
  split_ifs with hapart
  · exact (translateArea_empty v).symm
  · obtain ⟨hx, hy⟩ := not_or.mp hapart
    rw [translateArea_of_not_isEmpty]
    · rfl
    · exact isEmpty_eq_false_iff.mpr ⟨sub_pos.mpr (not_le.mp hx), sub_pos.mpr (not_le.mp hy)⟩

/-- The one empty rectangle stays where it is, and all others move. -/
lemma orEmpty_translate : (r.translate v).orEmpty = r.orEmpty.translateArea v := by
  unfold orEmpty
  rw [isEmpty_translate]
  split_ifs with hempty
  · exact (translateArea_empty v).symm
  · exact (translateArea_of_not_isEmpty (by simpa using hempty) v).symm

/-- The strips beside an obstacle move with the rectangle and the obstacle. -/
lemma stripsOutside_translate (obstacle : Rect ℚ) :
    (r.translate v).stripsOutside (obstacle.translate v) =
      (r.stripsOutside obstacle).map (translateArea · v) := by
  simp only [stripsOutside, List.map_cons, List.map_nil, ← orEmpty_translate, translate,
    Scalar.min_exact, Scalar.max_exact, min_add_add_right, max_add_add_right]

/-! ### Rectangles made from others -/

/-- A rectangle moves with its corner. -/
lemma ofCorner_add (left top width height : ℚ) :
    ofCorner (left + v.x) (top + v.y) width height =
      (ofCorner left top width height).translate v := by
  simp only [ofCorner, translate, add_right_comm _ _ width, add_right_comm _ _ height]

/-- A rectangle moves with its center. -/
lemma centered_add (center : Point ℚ) (size : Size ℚ) :
    centered (center + v) size = (centered center size).translate v := by
  simp only [centered, translate, Point.add_x, Point.add_y, add_sub_right_comm,
    add_right_comm center.x v.x, add_right_comm center.y v.y]

/-- The rectangle between two points moves with them. -/
lemma spanning_add (p q : Point ℚ) : spanning (p + v) (q + v) = (spanning p q).translate v := by
  simp only [spanning, translate, Point.add_x, Point.add_y, Scalar.min_exact, Scalar.max_exact,
    min_add_add_right, max_add_add_right]

/-- Growing around the center and moving commute. -/
lemma expand_translate (width height : ℚ) :
    (r.translate v).expand width height = (r.expand width height).translate v := by
  rw [expand, expand, center_translate, width_translate, height_translate, centered_add]

/-- Growing from the corner and moving commute. -/
lemma enlarge_translate (width height : ℚ) :
    (r.translate v).enlarge width height = (r.enlarge width height).translate v := by
  unfold enlarge
  rw [width_translate, height_translate]
  simp only [translate, add_right_comm _ v.x, add_right_comm _ v.y]

/-- The offset into a rectangle is the same wherever both are. -/
@[simp] lemma offsetInto_translate (outer : Rect ℚ) :
    (r.translate v).offsetInto (outer.translate v) = r.offsetInto outer := by
  have haxis (low high outerLow outerHigh d : ℚ) :
      offsetIntoAxis (low + d) (high + d) (outerLow + d) (outerHigh + d) =
        offsetIntoAxis low high outerLow outerHigh := by
    simp only [offsetIntoAxis, add_sub_add_right_eq_sub, add_lt_add_iff_right]
  simp only [offsetInto, translate, haxis]

/-- The nearest point moves with the rectangle and the point. -/
lemma nearestPoint_translate (p : Point ℚ) :
    (r.translate v).nearestPoint (p + v) = (· + v) <$> r.nearestPoint p := by
  unfold nearestPoint
  simp only [translate, Point.add_x, Point.add_y, Scalar.max_exact, max_add_add_right, clamp_add,
    bind_map_left, map_bind, map_pure]
  rfl

end Rect

/-- The region for the center of a box moves with the rectangle around it. -/
lemma centerRegion_translate (free : Rect ℚ) (size : Size ℚ) (v : Point ℚ) :
    centerRegion (free.translate v) size = (centerRegion free size).translate v := by
  rw [centerRegion, centerRegion, ← Rect.spanning_add]
  refine congrArg₂ Rect.spanning ?_ ?_
  · exact congrArg₂ Point.mk (add_right_comm _ _ _) (add_right_comm _ _ _)
  · exact congrArg₂ Point.mk (add_sub_right_comm _ _ _) (add_sub_right_comm _ _ _)

/-! ## Lines -/

namespace Segment

/-- The segment moved by an offset. -/
def translate (s : Segment ℚ) (v : Point ℚ) : Segment ℚ := ⟨s.start + v, s.stop + v⟩

variable (s : Segment ℚ) (v : Point ℚ)

@[simp] lemma length_translate : (s.translate v).length = s.length := by
  rw [length, length, translate, Point.add_sub_add]

/-- A drawn line moves with the segment, if it covers anything. -/
lemma thick_translate {lineWidth : ℚ} (hwidth : 0 < lineWidth) :
    (s.translate v).thick lineWidth = (s.thick lineWidth).translateArea v := by
  unfold thick
  rw [translate, Point.add_sub_add]
  split_ifs
  · exact (Rect.translateArea_empty v).symm
  · rw [Rect.spanning_add, Rect.expand_translate, Rect.translateArea_of_not_isEmpty]
    have hordered : 0 ≤ (Rect.spanning s.start s.stop).width ∧
        0 ≤ (Rect.spanning s.start s.stop).height := by
      simp only [Rect.spanning, Rect.width, Rect.height, Scalar.min_exact, Scalar.max_exact,
        sub_nonneg]
      exact ⟨min_le_max, min_le_max⟩
    have hpositive (extent : ℚ) (h : 0 ≤ extent) : 0 < max (extent + lineWidth) 0 :=
      lt_max_of_lt_left (add_pos_of_nonneg_of_pos h hwidth)
    rw [Rect.isEmpty_eq_false_iff, Rect.expand, Rect.width_centered, Rect.height_centered]
    simp only [Scalar.max_exact]
    exact ⟨hpositive _ hordered.1, hpositive _ hordered.2⟩

end Segment

namespace Connector

variable (c : Connector ℚ) (v : Point ℚ)

/-- The segments move with the connector. -/
lemma segments_translate : (c.translate v).segments = c.segments.map (·.translate v) := rfl

/-- A vertical main line moves with its ends. -/
lemma vertical_add (source target : Point ℚ) (x : ℚ) :
    vertical (source + v) (target + v) (x + v.x) = (vertical source target x).translate v := rfl

/-- A horizontal main line moves with its ends. -/
lemma horizontal_add (source target : Point ℚ) (y : ℚ) :
    horizontal (source + v) (target + v) (y + v.y) = (horizontal source target y).translate v := rfl

@[simp] lemma length_translate : (c.translate v).length = c.length := by
  rw [length, length, segments_translate, List.map_map]
  simp only [Function.comp_def, Segment.length_translate]

@[simp] lemma middle_translate : (c.translate v).middle = c.middle + v :=
  Point.midpoint_add c.mainStart c.mainEnd v

variable {lineWidth : ℚ}

/-- A drawn connector covers as much of a rectangle that moves with it. -/
lemma coverage_translate (hwidth : 0 < lineWidth) (r : Rect ℚ) :
    (c.translate v).coverage (r.translate v) lineWidth = c.coverage r lineWidth := by
  rw [coverage, coverage, segments_translate, List.map_map]
  simp only [Function.comp_def, Segment.thick_translate _ v hwidth,
    Rect.overlapArea_translateArea_left]

/-- As much of a drawn connector is outside a rectangle that moves with it. -/
lemma areaOutside_translate (hwidth : 0 < lineWidth) (outer : Rect ℚ) :
    (c.translate v).areaOutside (outer.translate v) lineWidth = c.areaOutside outer lineWidth := by
  rw [areaOutside, areaOutside, segments_translate, List.map_map]
  simp only [Function.comp_def, Segment.thick_translate _ v hwidth, Rect.areaOutside_translateArea]

/-- Drawn connectors that move together cover as much of each other. -/
lemma crossing_translate (hwidth : 0 < lineWidth) (other : Connector ℚ) :
    (c.translate v).crossing (other.translate v) lineWidth = c.crossing other lineWidth := by
  have harea (r b : Rect ℚ) : (r.translateArea v).overlapArea (b.translateArea v) =
      r.overlapArea b := by
    by_cases hempty : b.isEmpty = true
    · have hempty' : (b.translateArea v).isEmpty = true := by rwa [Rect.isEmpty_translateArea]
      rw [Rect.overlapArea_comm, Rect.overlapArea_of_isEmpty hempty', Rect.overlapArea_comm,
        Rect.overlapArea_of_isEmpty hempty]
    · rw [Rect.translateArea_of_not_isEmpty (Bool.eq_false_iff.mpr hempty),
        Rect.overlapArea_translateArea_left]
  simp only [crossing, segments_translate, List.map_map, Function.comp_def,
    Segment.thick_translate _ v hwidth, harea]

end Connector

/-! ## Scales -/

namespace Scale

/-- The scale with its range and its anchors moved. -/
def translate (s : Scale ℚ) (d : ℚ) : Scale ℚ :=
  { s with
    lower := s.lower + d
    upper := s.upper + d
    locations := s.locations.map (· + d) }

variable (s : Scale ℚ) (d : ℚ)

/-- The order of the ends is that of the moved ends. -/
lemma orderedRange_add (lower upper : ℚ) : orderedRange (lower + d) (upper + d) =
    ((orderedRange lower upper).1 + d, (orderedRange lower upper).2 + d) := by
  unfold orderedRange
  simp only [add_le_add_iff_right]
  split_ifs <;> rfl

/-- A range moves with its ends. -/
lemma spanning_add (lower upper : ℚ) :
    spanning (lower + d) (upper + d) = (spanning lower upper).translate d := by
  unfold spanning translate
  rw [orderedRange_add]
  rfl

/-- The middles of the cells move with the range. -/
lemma middles_translate : (s.translate d).middles = s.middles.map (· + d) := by
  have hcell : (s.translate d).cell = s.cell := by
    rw [cell, cell, translate, add_sub_add_right_eq_sub]
  unfold middles
  rw [hcell, List.map_map]
  refine List.map_congr_left fun i _ => ?_
  exact add_right_comm _ _ _

/-- Anchors are placed on a moved range as on the range. -/
lemma relocate_translate : (s.translate d).relocate = s.relocate.translate d := by
  rw [relocate, middles_translate]
  rfl

/-- A key is registered on a moved range as on the range. -/
lemma addKey_translate (key : OrderKey) :
    (s.translate d).addKey key = (s.addKey key).translate d := by
  unfold addKey
  have hkeys : (s.translate d).keys = s.keys := rfl
  rw [hkeys]
  split_ifs
  · rfl
  · exact relocate_translate { s with keys := insertKey key s.keys } d

/-- Keys are registered on a moved range as on the range. -/
lemma foldl_addKey_translate (keys : List OrderKey) :
    keys.foldl addKey (s.translate d) = (keys.foldl addKey s).translate d :=
  List.foldl_hom (translate · d) fun s key => addKey_translate s d key

/-- What was the range before makes no difference to the range that is set. -/
lemma setRange_translate (lower upper : ℚ) :
    (s.translate d).setRange (lower + d) (upper + d) = (s.setRange lower upper).translate d := by
  unfold setRange
  rw [orderedRange_add]
  exact relocate_translate
    { s with lower := (orderedRange lower upper).1, upper := (orderedRange lower upper).2 } d

/-- A location among anchors moves with them. -/
lemma locate_add (key : OrderKey) (beyond : ℚ) (anchors : List (OrderKey × ℚ)) :
    locate key (beyond + d) (anchors.map fun a => (a.1, a.2 + d)) =
      locate key beyond anchors + d := by
  induction anchors with
  | nil => rfl
  | cons a anchors ih =>
    rcases anchors with _ | ⟨b, anchors⟩
    · rfl
    · simp only [List.map_cons, locate, add_sub_add_right_eq_sub, apply_ite (· + d)] at ih ⊢
      rw [ih, add_right_comm]

/-- The location of a key moves with the range. -/
theorem location_translate (key : OrderKey) :
    (s.translate d).location key = s.location key + d := by
  have hanchors : (s.translate d).anchors = s.anchors.map fun a => (a.1, a.2 + d) :=
    List.zip_map_right ..
  have hends : (s.translate d).anchorsWithEnds =
      s.anchorsWithEnds.map fun a => (a.1, a.2 + d) := by
    unfold anchorsWithEnds
    rw [hanchors, List.map_append, List.map_append]
    have hkeys : (s.translate d).keys = s.keys := rfl
    rw [hkeys]
    split_ifs <;> rfl
  rw [location, hends]
  exact locate_add d key s.upper s.anchorsWithEnds

end Scale

/-- The grid with both scales moved. -/
def Grid.translate (g : Grid ℚ) (v : Point ℚ) : Grid ℚ :=
  ⟨g.kind, g.x.translate v.x, g.y.translate v.y⟩

namespace Grid

variable (g : Grid ℚ) (v : Point ℚ)

/-- A grid moves with the area it covers. -/
lemma spanning_translate (area : Rect ℚ) (kind : GridKind) :
    spanning (area.translate v) kind = (spanning area kind).translate v := by
  simp only [spanning, translate, Rect.translate_minX, Rect.translate_maxX, Rect.translate_minY,
    Rect.translate_maxY, Scale.spanning_add]

/-- The point that belongs to a pair of keys moves with the grid. -/
lemma location_translate (xKey yKey : OrderKey) :
    (g.translate v).location xKey yKey = g.location xKey yKey + v :=
  congrArg₂ Point.mk (Scale.location_translate g.x v.x xKey) (Scale.location_translate g.y v.y yKey)

/-- Keys are registered on the moved grid as on the grid. -/
lemma addKeys_translate (xKey yKey : OrderKey) :
    (g.translate v).addKeys xKey yKey = (g.addKeys xKey yKey).translate v := by
  rw [addKeys_eq, addKeys_eq, translate, translate]
  dsimp only
  rw [Scale.addKey_translate, Scale.addKey_translate]
  split_ifs <;> rfl

end Grid

end DiagramLayout
