import DiagramLayout.Drawing.Record
import DiagramLayout.Proofs.Rect.Strips

/-!
# Rectangles over exact numbers

The area that two rectangles share is the product of what they share along each axis
(`Rect.overlapArea_exact`), and everything about overlaps follows from that product: it is
symmetric, it does not change when both rectangles move together, and it grows with either of them.

A rectangle is *ordered* if no axis of it is reversed. Containment is meant edge by edge, so it is
useful for reversed rectangles as well.
-/

namespace DiagramLayout

namespace Rect

/-- No axis of the rectangle is reversed; it may lack extent. -/
structure Ordered (r : Rect ℚ) : Prop where
  x : r.minX ≤ r.maxX
  y : r.minY ≤ r.maxY

/-- Whether a rectangle is ordered is decided axis by axis. -/
instance (r : Rect ℚ) : Decidable r.Ordered :=
  decidable_of_iff (r.minX ≤ r.maxX ∧ r.minY ≤ r.maxY) ⟨fun h => ⟨h.1, h.2⟩, fun h => ⟨h.x, h.y⟩⟩

/-- The rectangle has extent along both axes. -/
structure Solid (r : Rect ℚ) : Prop where
  x : r.minX < r.maxX
  y : r.minY < r.maxY

/-- The point lies within the rectangle and not on its edges. -/
structure HasInside (r : Rect ℚ) (p : Point ℚ) : Prop where
  left : r.minX < p.x
  right : p.x < r.maxX
  top : r.minY < p.y
  bottom : p.y < r.maxY

/-- The point lies on an edge of the rectangle. -/
def OnBoundary (r : Rect ℚ) (p : Point ℚ) : Prop :=
  r.containsPoint p = true ∧ ¬ r.HasInside p

/-- What two rectangles share along `x`. -/
def sharedX (a b : Rect ℚ) : ℚ := max (min a.maxX b.maxX - max a.minX b.minX) 0

/-- What two rectangles share along `y`. -/
def sharedY (a b : Rect ℚ) : ℚ := max (min a.maxY b.maxY - max a.minY b.minY) 0

/-! ## Extent and inside -/

/-- Exact edges are numbers. -/
lemma hasNumbers_exact (r : Rect ℚ) : r.HasNumbers :=
  ⟨Scalar.isNaN_exact _, Scalar.isNaN_exact _, Scalar.isNaN_exact _, Scalar.isNaN_exact _⟩

/-- A rectangle is solid exactly if it is not empty. -/
lemma solid_iff {r : Rect ℚ} : r.Solid ↔ r.isEmpty = false := by
  rw [← Bool.not_eq_true, isEmpty, Bool.or_eq_true, decide_eq_true_eq, decide_eq_true_eq, not_or,
    not_le, not_le]
  exact ⟨fun h => ⟨sub_pos.mpr h.x, sub_pos.mpr h.y⟩,
    fun h => ⟨sub_pos.mp h.1, sub_pos.mp h.2⟩⟩

/-- A rectangle is solid exactly if there are points inside it. -/
lemma solid_iff_exists_hasInside {r : Rect ℚ} : r.Solid ↔ ∃ p, r.HasInside p := by
  constructor
  · rintro ⟨hx, hy⟩
    obtain ⟨x, hleft, hright⟩ := exists_between hx
    obtain ⟨y, htop, hbottom⟩ := exists_between hy
    exact ⟨⟨x, y⟩, hleft, hright, htop, hbottom⟩
  · rintro ⟨p, hleft, hright, htop, hbottom⟩
    exact ⟨hleft.trans hright, htop.trans hbottom⟩

/-- There is no point inside the empty rectangle. -/
lemma not_hasInside_empty (p : Point ℚ) : ¬ (empty : Rect ℚ).HasInside p := by
  rintro ⟨hleft, hright, -, -⟩
  exact lt_asymm hleft hright

/-- The points inside an overlap are those inside both rectangles. -/
lemma hasInside_overlap {a b : Rect ℚ} {p : Point ℚ} :
    (a.overlap b).HasInside p ↔ a.HasInside p ∧ b.HasInside p := by
  unfold overlap
  simp only [Scalar.min_exact, Scalar.max_exact, Bool.or_eq_true, decide_eq_true_eq]
  split_ifs with hapart
  · refine iff_of_false (not_hasInside_empty p) ?_
    rintro ⟨⟨hleft, hright, htop, hbottom⟩, ⟨hleft', hright', htop', hbottom'⟩⟩
    rcases hapart with hx | hy
    · exact not_lt.mpr hx ((max_lt hleft hleft').trans (lt_min hright hright'))
    · exact not_lt.mpr hy ((max_lt htop htop').trans (lt_min hbottom hbottom'))
  · constructor
    · rintro ⟨hleft, hright, htop, hbottom⟩
      rw [max_lt_iff] at hleft htop
      rw [lt_min_iff] at hright hbottom
      exact ⟨⟨hleft.1, hright.1, htop.1, hbottom.1⟩, ⟨hleft.2, hright.2, htop.2, hbottom.2⟩⟩
    · rintro ⟨⟨hleft, hright, htop, hbottom⟩, ⟨hleft', hright', htop', hbottom'⟩⟩
      exact ⟨max_lt hleft hleft', lt_min hright hright', max_lt htop htop',
        lt_min hbottom hbottom'⟩

/-! ## Containment -/

/-- What is inside a rectangle is inside every one that contains it. -/
lemma HasInside.of_contains {r inner : Rect ℚ} {p : Point ℚ} (hp : inner.HasInside p)
    (h : r.contains inner = true) : r.HasInside p := by
  obtain ⟨hx, hy, hX, hY⟩ := contains_iff.mp h
  exact ⟨hx.trans_lt hp.left, hp.right.trans_le hX, hy.trans_lt hp.top, hp.bottom.trans_le hY⟩

/-- What two rectangles share lies in both, if they share anything. -/
lemma contains_overlap {a b : Rect ℚ} (h : (a.overlap b).Solid) :
    a.contains (a.overlap b) = true ∧ b.contains (a.overlap b) = true := by
  rw [contains_iff, contains_iff]
  unfold overlap at h ⊢
  simp only [Scalar.min_exact, Scalar.max_exact] at h ⊢
  split_ifs at h ⊢
  · exact absurd h.x (lt_irrefl 0)
  · exact ⟨⟨le_max_left _ _, le_max_left _ _, min_le_left _ _, min_le_left _ _⟩,
      ⟨le_max_right _ _, le_max_right _ _, min_le_right _ _, min_le_right _ _⟩⟩

/-- What has extent and lies in both rectangles lies in what they share. -/
lemma Solid.contains_overlap {r a b : Rect ℚ} (hr : r.Solid) (ha : a.contains r = true)
    (hb : b.contains r = true) : (a.overlap b).contains r = true := by
  obtain ⟨hx, hy, hX, hY⟩ := contains_iff.mp ha
  obtain ⟨hx', hy', hX', hY'⟩ := contains_iff.mp hb
  unfold overlap
  simp only [Scalar.min_exact, Scalar.max_exact, Bool.or_eq_true, decide_eq_true_eq]
  split_ifs with hapart
  · rcases hapart with h | h
    · exact absurd ((le_min hX hX').trans (h.trans (max_le hx hx'))) (not_le.mpr hr.x)
    · exact absurd ((le_min hY hY').trans (h.trans (max_le hy hy'))) (not_le.mpr hr.y)
  · exact contains_iff.mpr ⟨max_le hx hx', max_le hy hy', le_min hX hX', le_min hY hY'⟩

/-- Every rectangle contains itself. -/
@[simp] lemma contains_self (r : Rect ℚ) : r.contains r = true :=
  contains_iff.mpr ⟨le_rfl, le_rfl, le_rfl, le_rfl⟩

/-- Containment goes through a rectangle in between. -/
lemma contains_trans {a b c : Rect ℚ} (hab : a.contains b = true) (hbc : b.contains c = true) :
    a.contains c = true := by
  rw [contains_iff] at hab hbc ⊢
  obtain ⟨hx, hy, hX, hY⟩ := hab
  obtain ⟨hx', hy', hX', hY'⟩ := hbc
  exact ⟨hx.trans hx', hy.trans hy', hX'.trans hX, hY'.trans hY⟩

/-- A rectangle is not wider than one that contains it. -/
lemma width_le_of_contains {r inner : Rect ℚ} (h : r.contains inner = true) :
    inner.width ≤ r.width := by
  obtain ⟨hx, -, hX, -⟩ := contains_iff.mp h
  exact sub_le_sub hX hx

/-- A rectangle is not higher than one that contains it. -/
lemma height_le_of_contains {r inner : Rect ℚ} (h : r.contains inner = true) :
    inner.height ≤ r.height := by
  obtain ⟨-, hy, -, hY⟩ := contains_iff.mp h
  exact sub_le_sub hY hy

/-- A rectangle joined with another contains itself. -/
lemma contains_join_left (a b : Rect ℚ) : (a.join b).contains a = true := by
  rw [contains_iff]
  simp only [join, Scalar.min_exact, Scalar.max_exact]
  exact ⟨min_le_left _ _, min_le_left _ _, le_max_left _ _, le_max_left _ _⟩

/-- A rectangle joined with another contains the other. -/
lemma contains_join_right (a b : Rect ℚ) : (a.join b).contains b = true := by
  rw [contains_iff]
  simp only [join, Scalar.min_exact, Scalar.max_exact]
  exact ⟨min_le_right _ _, min_le_right _ _, le_max_right _ _, le_max_right _ _⟩

/-- Rectangles in order stay so when they are joined. -/
lemma Ordered.join {a : Rect ℚ} (ha : a.Ordered) (b : Rect ℚ) : (a.join b).Ordered := by
  have hin := contains_iff.mp (contains_join_left a b)
  exact ⟨hin.1.trans (ha.x.trans hin.2.2.1), hin.2.1.trans (ha.y.trans hin.2.2.2)⟩

/-- Padding that is not negative keeps the edges in order. -/
lemma Ordered.pad {r : Rect ℚ} (hr : r.Ordered) {distance : ℚ} (hd : 0 ≤ distance) :
    (r.pad (.uniform distance)).Ordered := by
  obtain ⟨hx, hy⟩ := hr
  constructor
  · change r.minX - distance ≤ r.maxX + distance
    linarith
  · change r.minY - distance ≤ r.maxY + distance
    linarith

/-- Padding that is not negative contains what is padded. -/
lemma contains_pad (r : Rect ℚ) {distance : ℚ} (hd : 0 ≤ distance) :
    (r.pad (.uniform distance)).contains r = true := by
  rw [contains_iff]
  change r.minX - distance ≤ r.minX ∧ r.minY - distance ≤ r.minY ∧
    r.maxX ≤ r.maxX + distance ∧ r.maxY ≤ r.maxY + distance
  refine ⟨?_, ?_, ?_, ?_⟩ <;> linarith

/-- More padding contains less. -/
lemma contains_pad_of_le (r : Rect ℚ) {distance distance' : ℚ} (h : distance ≤ distance') :
    (r.pad (.uniform distance')).contains (r.pad (.uniform distance)) = true :=
  contains_iff.mpr ⟨sub_le_sub_left h _, sub_le_sub_left h _, add_le_add_right h _,
    add_le_add_right h _⟩

/-- Padding keeps containment. -/
lemma contains_pad_pad {a b : Rect ℚ} (h : a.contains b = true) (insets : Insets ℚ) :
    (a.pad insets).contains (b.pad insets) = true := by
  rw [contains_iff] at h ⊢
  obtain ⟨hx, hy, hX, hY⟩ := h
  exact ⟨sub_le_sub_right hx _, sub_le_sub_right hy _, add_le_add_left hX _, add_le_add_left hY _⟩

/-! ## Rectangles around a center -/

/-- A rectangle around a center has the width that was asked for. -/
@[simp] lemma width_centered (center : Point ℚ) (size : Size ℚ) :
    (centered center size).width = size.width := by
  simp only [centered, width, Scalar.num_exact]
  push_cast
  ring

/-- A rectangle around a center has the height that was asked for. -/
@[simp] lemma height_centered (center : Point ℚ) (size : Size ℚ) :
    (centered center size).height = size.height := by
  simp only [centered, height, Scalar.num_exact]
  push_cast
  ring

/-- A rectangle of a size that is not negative is ordered around any center. -/
lemma ordered_centered (center : Point ℚ) (size : Size ℚ) (hwidth : 0 ≤ size.width)
    (hheight : 0 ≤ size.height) : (centered center size).Ordered := by
  constructor
  · exact sub_nonneg.mp (hwidth.trans_eq (width_centered center size).symm)
  · exact sub_nonneg.mp (hheight.trans_eq (height_centered center size).symm)

/-! ## Areas -/

/-- The area of a rectangle over exact numbers. -/
lemma area_exact (r : Rect ℚ) :
    r.area = max (r.maxX - r.minX) 0 * max (r.maxY - r.minY) 0 := by
  have hwidth : r.width = r.maxX - r.minX := rfl
  have hheight : r.height = r.maxY - r.minY := rfl
  unfold area isEmpty
  rw [hwidth, hheight]
  simp only [Bool.or_eq_true, decide_eq_true_eq]
  split_ifs with hempty
  · rcases hempty with hx | hy
    · rw [max_eq_right hx, zero_mul]
    · rw [max_eq_right hy, mul_zero]
  · obtain ⟨hx, hy⟩ := not_or.mp hempty
    rw [max_eq_left (not_le.mp hx).le, max_eq_left (not_le.mp hy).le]

/-- Area is not negative. -/
lemma area_nonneg (r : Rect ℚ) : 0 ≤ r.area := by
  rw [area_exact]
  exact mul_nonneg (le_max_right _ _) (le_max_right _ _)

/-- Only a solid rectangle has an area. -/
lemma area_pos_iff {r : Rect ℚ} : 0 < r.area ↔ r.Solid := by
  rw [solid_iff, area]
  cases hempty : r.isEmpty with
  | true => simp
  | false =>
    have hwidth : 0 < r.width := sub_pos.mpr (solid_iff.mpr hempty).x
    have hheight : 0 < r.height := sub_pos.mpr (solid_iff.mpr hempty).y
    simpa using mul_pos hwidth hheight

/-- A larger rectangle has more area. -/
lemma area_le_of_contains {a a' : Rect ℚ} (h : a'.contains a = true) : a.area ≤ a'.area := by
  obtain ⟨hx, hy, hX, hY⟩ := contains_iff.mp h
  rw [area_exact, area_exact]
  exact mul_le_mul (max_le_max_right 0 (sub_le_sub hX hx)) (max_le_max_right 0 (sub_le_sub hY hy))
    (le_max_right _ _) (le_max_right _ _)

/-- The shared area is the product of what is shared along the axes. -/
theorem overlapArea_exact (a b : Rect ℚ) : a.overlapArea b = a.sharedX b * a.sharedY b := by
  unfold overlapArea overlap
  simp only [Scalar.min_exact, Scalar.max_exact, Bool.or_eq_true, decide_eq_true_eq]
  split_ifs with hapart
  · have hzero : (empty : Rect ℚ).area = 0 := by simp [area_exact, empty]
    rw [hzero]
    rcases hapart with hx | hy
    · rw [sharedX, max_eq_right (sub_nonpos.mpr hx), zero_mul]
    · rw [sharedY, max_eq_right (sub_nonpos.mpr hy), mul_zero]
  · exact area_exact _

/-- What is shared along `x` is not negative. -/
lemma sharedX_nonneg (a b : Rect ℚ) : 0 ≤ a.sharedX b := le_max_right _ _

/-- What is shared along `y` is not negative. -/
lemma sharedY_nonneg (a b : Rect ℚ) : 0 ≤ a.sharedY b := le_max_right _ _

/-- Shared area is not negative. -/
lemma overlapArea_nonneg (a b : Rect ℚ) : 0 ≤ a.overlapArea b :=
  area_nonneg (a.overlap b)

/-- Area is shared mutually. -/
lemma overlapArea_comm (a b : Rect ℚ) : a.overlapArea b = b.overlapArea a := by
  rw [overlapArea_exact, overlapArea_exact]
  unfold sharedX sharedY
  rw [min_comm a.maxX, max_comm a.minX, min_comm a.maxY, max_comm a.minY]

/-- What is shared along `x` grows with the rectangle. -/
lemma sharedX_le_of_contains {a a' : Rect ℚ} (h : a'.contains a = true) (b : Rect ℚ) :
    a.sharedX b ≤ a'.sharedX b := by
  obtain ⟨hx, -, hX, -⟩ := contains_iff.mp h
  exact max_le_max_right 0 (sub_le_sub (min_le_min_right _ hX) (max_le_max_right _ hx))

/-- What is shared along `y` grows with the rectangle. -/
lemma sharedY_le_of_contains {a a' : Rect ℚ} (h : a'.contains a = true) (b : Rect ℚ) :
    a.sharedY b ≤ a'.sharedY b := by
  obtain ⟨-, hy, -, hY⟩ := contains_iff.mp h
  exact max_le_max_right 0 (sub_le_sub (min_le_min_right _ hY) (max_le_max_right _ hy))

/-- A larger rectangle shares more. -/
lemma overlapArea_le_of_contains {a a' : Rect ℚ} (h : a'.contains a = true) (b : Rect ℚ) :
    a.overlapArea b ≤ a'.overlapArea b := by
  rw [overlapArea_exact, overlapArea_exact]
  exact mul_le_mul (sharedX_le_of_contains h b) (sharedY_le_of_contains h b)
    (sharedY_nonneg a b) (sharedX_nonneg a' b)

/-- Within a rectangle that shares nothing, nothing is shared. -/
lemma overlapArea_eq_zero_of_contains {a a' b : Rect ℚ} (h : a'.contains a = true)
    (hzero : a'.overlapArea b = 0) : a.overlapArea b = 0 :=
  le_antisymm (hzero ▸ overlapArea_le_of_contains h b) (overlapArea_nonneg a b)

/-- What a rectangle has along an axis beyond what it shares there grows with the rectangle. -/
lemma unshared_le {low high low' high' : ℚ} (hlow : low' ≤ low) (hhigh : high ≤ high')
    (outerLow outerHigh : ℚ) :
    0 ≤ max (high - low) 0 - max (min high outerHigh - max low outerLow) 0 ∧
      max (high - low) 0 - max (min high outerHigh - max low outerLow) 0 ≤
        max (high' - low') 0 - max (min high' outerHigh - max low' outerLow) 0 := by
  constructor
  · exact sub_nonneg.mpr (max_le_max_right 0 (sub_le_sub (min_le_left _ _) (le_max_left _ _)))
  · grind

/-- The area of a larger rectangle outside another is larger. -/
lemma areaOutside_le_of_contains {a a' : Rect ℚ} (h : a'.contains a = true) (outer : Rect ℚ) :
    a.areaOutside outer ≤ a'.areaOutside outer := by
  obtain ⟨hx, hy, hX, hY⟩ := contains_iff.mp h
  obtain ⟨hleftX, hgrowsX⟩ := unshared_le hx hX outer.minX outer.maxX
  obtain ⟨hleftY, hgrowsY⟩ := unshared_le hy hY outer.minY outer.maxY
  have hwidth : max (a.maxX - a.minX) 0 ≤ max (a'.maxX - a'.minX) 0 :=
    max_le_max_right 0 (sub_le_sub hX hx)
  -- what is outside is a strip beside the shared columns and the rest of these columns
  have hsplit (b : Rect ℚ) : b.area - b.overlapArea outer =
      max (b.maxX - b.minX) 0 * (max (b.maxY - b.minY) 0 - b.sharedY outer) +
        (max (b.maxX - b.minX) 0 - b.sharedX outer) * b.sharedY outer := by
    rw [area_exact, overlapArea_exact]
    ring
  unfold areaOutside
  rw [Scalar.max_exact, Scalar.max_exact, hsplit, hsplit]
  refine max_le_max_right 0 (add_le_add ?_ ?_)
  · exact mul_le_mul hwidth hgrowsY hleftY (le_max_right _ _)
  · exact mul_le_mul hgrowsX (sharedY_le_of_contains h outer) (sharedY_nonneg a outer)
      (hleftX.trans hgrowsX)

/-- The area outside a rectangle is not negative. -/
lemma areaOutside_nonneg (a outer : Rect ℚ) : 0 ≤ a.areaOutside outer := by
  rw [areaOutside, Scalar.max_exact]
  exact le_max_right _ _

/-- What lies within a rectangle has no area outside it. -/
lemma areaOutside_eq_zero {r inner : Rect ℚ} (h : r.contains inner = true) :
    inner.areaOutside r = 0 := by
  obtain ⟨hx, hy, hX, hY⟩ := contains_iff.mp h
  rw [areaOutside, Scalar.max_exact, area_exact, overlapArea_exact, sharedX, sharedY,
    min_eq_left hX, max_eq_left hx, min_eq_left hY, max_eq_left hy, sub_self, max_self]

/-- Two rectangles overlap exactly if they share area. -/
lemma overlaps_exact {a b : Rect ℚ} : a.overlaps b = true ↔ 0 < a.overlapArea b := by
  rw [overlaps, Bool.not_eq_true', ← solid_iff]
  exact area_pos_iff.symm

/-- Rectangles that do not overlap share no area. -/
lemma overlapArea_eq_zero {a b : Rect ℚ} (h : a.overlaps b = false) : a.overlapArea b = 0 := by
  refine le_antisymm (not_lt.mp fun hpos => ?_) (overlapArea_nonneg a b)
  rw [overlaps_exact.mpr hpos] at h
  cases h

/-! ## Moving -/

section Translate

variable (r : Rect ℚ) (v : Point ℚ)

@[simp] lemma translate_minX : (r.translate v).minX = r.minX + v.x := rfl

@[simp] lemma translate_minY : (r.translate v).minY = r.minY + v.y := rfl

@[simp] lemma translate_maxX : (r.translate v).maxX = r.maxX + v.x := rfl

@[simp] lemma translate_maxY : (r.translate v).maxY = r.maxY + v.y := rfl

/-- An offset of zero moves nothing. -/
@[simp] lemma translate_origin : r.translate .origin = r := by
  cases r
  simp [translate, Point.origin]

/-- Moving keeps the width. -/
@[simp] lemma width_translate : (r.translate v).width = r.width := by
  change r.maxX + v.x - (r.minX + v.x) = r.maxX - r.minX
  ring

/-- Moving keeps the height. -/
@[simp] lemma height_translate : (r.translate v).height = r.height := by
  change r.maxY + v.y - (r.minY + v.y) = r.maxY - r.minY
  ring

/-- Moving makes nothing empty that was not. -/
@[simp] lemma isEmpty_translate : (r.translate v).isEmpty = r.isEmpty := by
  simp [isEmpty]

variable {r}

/-- Moving keeps the edges in order. -/
lemma Ordered.translate (hr : r.Ordered) : (r.translate v).Ordered :=
  ⟨add_le_add_left hr.x v.x, add_le_add_left hr.y v.y⟩

/-- A rectangle contains another wherever both are moved to. -/
@[simp] lemma contains_translate {inner : Rect ℚ} :
    (r.translate v).contains (inner.translate v) = r.contains inner := by
  rw [Bool.eq_iff_iff, contains_iff, contains_iff]
  simp

/-- Rectangles that move together share the same area. -/
@[simp] lemma overlapArea_translate {b : Rect ℚ} :
    (r.translate v).overlapArea (b.translate v) = r.overlapArea b := by
  rw [overlapArea_exact, overlapArea_exact]
  simp only [sharedX, sharedY, translate_minX, translate_minY, translate_maxX, translate_maxY,
    min_add_add_right, max_add_add_right, add_sub_add_right_eq_sub]

/-- Joining and moving commute. -/
lemma join_translate (b : Rect ℚ) :
    (r.translate v).join (b.translate v) = (r.join b).translate v := by
  simp [join, translate, min_add_add_right, max_add_add_right]

/-- Padding and moving commute. -/
lemma pad_translate (insets : Insets ℚ) :
    (r.translate v).pad insets = (r.pad insets).translate v := by
  simp only [pad, translate, add_sub_right_comm, add_right_comm _ v.x insets.right,
    add_right_comm _ v.y insets.bottom]

end Translate

/-! ## Strips beside an obstacle -/

/-- A strip that is cut off towards one side is empty, or it is a solid part of the rectangle and
shares nothing with the obstacle. -/
lemma strip_spec {r obstacle strip : Rect ℚ} (h : strip ∈ r.stripsOutside obstacle) :
    strip = empty ∨
      strip.Solid ∧ r.contains strip = true ∧ strip.overlapArea obstacle = 0 := by
  refine (strip_within (hasNumbers_exact r) h).imp_right ?_
  rintro ⟨hextent, hin⟩
  exact ⟨solid_iff.mpr hextent, hin, strip_apart (hasNumbers_exact obstacle) h⟩

/-! ## Nearest points -/

/-- There always is a nearest point. -/
lemma defined_nearestPoint (r : Rect ℚ) (p : Point ℚ) : (r.nearestPoint p).defined = true := by
  simp [nearestPoint, defined_clamp]

/-- The nearest point of an ordered rectangle lies in it. -/
lemma Ordered.containsPoint_nearestPoint {r : Rect ℚ} (hr : r.Ordered) (p : Point ℚ) :
    r.containsPoint (r.nearestPoint p).value = true := by
  simp only [nearestPoint, Guarded.value_bind, Guarded.value_pure, Scalar.max_exact,
    max_eq_left hr.x, max_eq_left hr.y]
  obtain ⟨hleft, hright⟩ := clamp_within hr.x p.x
  obtain ⟨htop, hbottom⟩ := clamp_within hr.y p.y
  exact containsPoint_iff.mpr ⟨hleft, hright, htop, hbottom⟩

end Rect

/-! ## Envelopes -/

/-- An envelope moves with its symbol and its label. -/
lemma envelopeOf_translate (symbol label : Rect ℚ) (v : Point ℚ) :
    envelopeOf (symbol.translate v) (label.translate v) =
      (envelopeOf symbol label).translate v := by
  unfold envelopeOf
  rw [Rect.isEmpty_translate, Rect.join_translate]
  split_ifs <;> rfl

/-- An envelope contains its symbol. -/
lemma contains_envelopeOf (symbol label : Rect ℚ) :
    (envelopeOf symbol label).contains symbol = true := by
  unfold envelopeOf
  split_ifs
  · exact Rect.contains_self symbol
  · exact Rect.contains_join_left symbol label

/-- The envelope of an ordered symbol is ordered. -/
lemma Rect.Ordered.envelopeOf {symbol : Rect ℚ} (h : symbol.Ordered) (label : Rect ℚ) :
    (envelopeOf symbol label).Ordered := by
  unfold DiagramLayout.envelopeOf
  split_ifs
  · exact h
  · exact h.join label

end DiagramLayout
