import DiagramLayout.Proofs.Routing.Segments
import DiagramLayout.Routing.Free

/-!
# The connectors that are tried between two symbols

All six connectors between two symbols start and end on the boundaries of the symbols, with segments
that are vertical or horizontal. Not all of them keep out of the symbols: a vertical main line
through the source may turn towards the target within the height of the source. Then the target
faces the source, and the horizontal line at the middle of the target is a shortcut
(`verticalAt_passes_or_shortcut`). With source and target exchanged and with the plane mirrored on
its diagonal this says of every connector that it passes both symbols or has a shortcut among the
six (`passes_or_shortcut`).
-/

namespace DiagramLayout

/-! ## Solid rectangles -/

namespace Rect

/-- The rectangles are beside one another along an axis. -/
def Apart (a b : Rect ℚ) : Prop :=
  a.maxX ≤ b.minX ∨ b.maxX ≤ a.minX ∨ a.maxY ≤ b.minY ∨ b.maxY ≤ a.minY

/-- Solid rectangles without a common point inside are apart. -/
lemma apart_of_no_common {a b : Rect ℚ} (ha : a.Solid) (hb : b.Solid)
    (h : ∀ p, ¬ (a.HasInside p ∧ b.HasInside p)) : a.Apart b := by
  by_contra hnear
  simp only [Apart, not_or, not_le] at hnear
  obtain ⟨hab, hba, hab', hba'⟩ := hnear
  obtain ⟨x, hx, hx'⟩ := exists_between (max_lt (lt_min ha.x hba) (lt_min hab hb.x))
  obtain ⟨y, hy, hy'⟩ := exists_between (max_lt (lt_min ha.y hba') (lt_min hab' hb.y))
  rw [max_lt_iff] at hx hy
  rw [lt_min_iff] at hx' hy'
  exact h ⟨x, y⟩ ⟨⟨hx.1, hx'.1, hy.1, hy'.1⟩, ⟨hx.2, hx'.2, hy.2, hy'.2⟩⟩

/-- Being apart is mutual. -/
lemma Apart.symm {a b : Rect ℚ} (h : a.Apart b) : b.Apart a := by
  rcases h with h | h | h | h
  · exact Or.inr (Or.inl h)
  · exact Or.inl h
  · exact Or.inr (Or.inr (Or.inr h))
  · exact Or.inr (Or.inr (Or.inl h))

/-- Rectangles that are apart are apart in the mirror. -/
lemma Apart.transpose {a b : Rect ℚ} (h : a.Apart b) : a.transpose.Apart b.transpose := by
  rcases h with h | h | h | h
  · exact Or.inr (Or.inr (Or.inl h))
  · exact Or.inr (Or.inr (Or.inr h))
  · exact Or.inl h
  · exact Or.inr (Or.inl h)

namespace Solid

variable {r : Rect ℚ}

/-- A solid rectangle is solid in the mirror. -/
lemma transpose (h : r.Solid) : r.transpose.Solid := ⟨h.y, h.x⟩

/-- The center of a solid rectangle is off its left edge. -/
lemma minX_lt_center (h : r.Solid) : r.minX < r.center.x := by
  have hx := h.x
  simp only [center, Scalar.num_exact]
  push_cast
  linarith

/-- The center of a solid rectangle is off its right edge. -/
lemma center_lt_maxX (h : r.Solid) : r.center.x < r.maxX := by
  have hx := h.x
  simp only [center, Scalar.num_exact]
  push_cast
  linarith

/-- The center of a solid rectangle is off its upper edge. -/
lemma minY_lt_center (h : r.Solid) : r.minY < r.center.y :=
  h.transpose.minX_lt_center

/-- The center of a solid rectangle is off its lower edge. -/
lemma center_lt_maxY (h : r.Solid) : r.center.y < r.maxY :=
  h.transpose.center_lt_maxX

end Solid

end Rect

/-! ## Where the connectors attach -/

/-- A connector ends at a symbol and at no feature of it. -/
def atSymbol (r : Rect ℚ) : RouteEnd ℚ := ⟨r, none⟩

section Attach

variable {r : Rect ℚ} {x : ℚ}

/-- A vertical main line through a symbol starts at its lower or its upper side. -/
lemma attachVertical_through (hleft : r.minX ≤ x) (hright : x ≤ r.maxX) (toward : Point ℚ) :
    (atSymbol r).attachVertical x toward =
      ⟨x, if r.center.y ≤ toward.y then r.maxY else r.minY⟩ := by
  have hthrough : (decide (r.minX ≤ x) && decide (x ≤ r.maxX)) = true := by simp [hleft, hright]
  exact if_pos hthrough

/-- A vertical main line on the right of a symbol starts at the middle of its right side. -/
lemma attachVertical_right (hr : r.Solid) (hx : r.maxX < x) (toward : Point ℚ) :
    (atSymbol r).attachVertical x toward = ⟨r.maxX, r.center.y⟩ := by
  have hcenter : r.center.x ≤ x := (hr.center_lt_maxX.trans hx).le
  simp [atSymbol, RouteEnd.attachVertical, not_le.mpr hx, hcenter]

/-- A vertical main line on the left of a symbol starts at the middle of its left side. -/
lemma attachVertical_left (hr : r.Solid) (hx : x < r.minX) (toward : Point ℚ) :
    (atSymbol r).attachVertical x toward = ⟨r.minX, r.center.y⟩ := by
  have hcenter : ¬ r.center.x ≤ x := not_le.mpr (hx.trans hr.minX_lt_center)
  simp [atSymbol, RouteEnd.attachVertical, not_le.mpr hx, hcenter]

/-- Every vertical main line starts on the boundary of the symbol. -/
lemma onBoundary_attachVertical (hr : r.Solid) (x : ℚ) (toward : Point ℚ) :
    r.OnBoundary ((atSymbol r).attachVertical x toward) := by
  have hX := hr.x
  have hY := hr.y
  have hleft := hr.minY_lt_center.le
  have hright := hr.center_lt_maxY.le
  rcases lt_or_ge x r.minX with hbefore | hminX
  · rw [attachVertical_left hr hbefore]
    exact ⟨Rect.containsPoint_iff.mpr ⟨le_rfl, hX.le, hleft, hright⟩,
      fun hin => lt_irrefl _ hin.left⟩
  rcases lt_or_ge r.maxX x with hbeyond | hmaxX
  · rw [attachVertical_right hr hbeyond]
    exact ⟨Rect.containsPoint_iff.mpr ⟨hX.le, le_rfl, hleft, hright⟩,
      fun hin => lt_irrefl _ hin.right⟩
  · rw [attachVertical_through hminX hmaxX]
    split_ifs
    · exact ⟨Rect.containsPoint_iff.mpr ⟨hminX, hmaxX, hY.le, le_rfl⟩,
        fun hin => lt_irrefl _ hin.bottom⟩
    · exact ⟨Rect.containsPoint_iff.mpr ⟨hminX, hmaxX, le_rfl, hY.le⟩,
        fun hin => lt_irrefl _ hin.top⟩

/-- Where a horizontal main line starts is where a vertical one starts in the mirror. -/
lemma attachHorizontal_eq (r : Rect ℚ) (y : ℚ) (toward : Point ℚ) :
    (atSymbol r).attachHorizontal y toward =
      ((atSymbol r.transpose).attachVertical y toward.transpose).transpose := by
  by_cases hthrough : (decide (r.minY ≤ y) && decide (y ≤ r.maxY)) = true
  · have hhorizontal : (atSymbol r).attachHorizontal y toward =
        ⟨if r.center.x ≤ toward.x then r.maxX else r.minX, y⟩ := if_pos hthrough
    have hvertical : (atSymbol r.transpose).attachVertical y toward.transpose =
        ⟨y, if r.center.x ≤ toward.x then r.maxX else r.minX⟩ := if_pos hthrough
    rw [hhorizontal, hvertical]
    rfl
  · have hhorizontal : (atSymbol r).attachHorizontal y toward =
        ⟨r.center.x, if r.center.y ≤ y then r.maxY else r.minY⟩ := if_neg hthrough
    have hvertical : (atSymbol r.transpose).attachVertical y toward.transpose =
        ⟨if r.center.y ≤ y then r.maxY else r.minY, r.center.x⟩ := if_neg hthrough
    rw [hhorizontal, hvertical]
    rfl

/-- A point on the boundary is on it in the mirror. -/
lemma Rect.OnBoundary.transpose {p : Point ℚ} (h : r.OnBoundary p) :
    r.transpose.OnBoundary p.transpose := by
  obtain ⟨hleft, hright, htop, hbottom⟩ := Rect.containsPoint_iff.mp h.1
  exact ⟨Rect.containsPoint_iff.mpr ⟨htop, hbottom, hleft, hright⟩,
    fun hin => h.2 ⟨hin.top, hin.bottom, hin.left, hin.right⟩⟩

/-- Every horizontal main line starts on the boundary of the symbol. -/
lemma onBoundary_attachHorizontal (hr : r.Solid) (y : ℚ) (toward : Point ℚ) :
    r.OnBoundary ((atSymbol r).attachHorizontal y toward) := by
  rw [attachHorizontal_eq]
  exact (onBoundary_attachVertical hr.transpose y toward.transpose).transpose

/-- A horizontal main line through a symbol starts at its right or its left side. -/
lemma attachHorizontal_through {y : ℚ} (htop : r.minY ≤ y) (hbottom : y ≤ r.maxY)
    (toward : Point ℚ) :
    (atSymbol r).attachHorizontal y toward =
      ⟨if r.center.x ≤ toward.x then r.maxX else r.minX, y⟩ := by
  rw [attachHorizontal_eq, attachVertical_through htop hbottom]
  rfl

end Attach

/-! ## Connectors between symbols -/

/-- The connector with a vertical main line between two symbols. -/
def verticalAt (a b : Rect ℚ) (x : ℚ) : Connector ℚ :=
  .vertical ((atSymbol a).attachVertical x b.center) ((atSymbol b).attachVertical x a.center) x

/-- The connector with a horizontal main line between two symbols. -/
def horizontalAt (a b : Rect ℚ) (y : ℚ) : Connector ℚ :=
  .horizontal ((atSymbol a).attachHorizontal y b.center)
    ((atSymbol b).attachHorizontal y a.center) y

/-- A horizontal connector is a vertical one in the mirror. -/
lemma transpose_verticalAt (a b : Rect ℚ) (y : ℚ) :
    (verticalAt a.transpose b.transpose y).transpose = horizontalAt a b y := by
  rw [horizontalAt, attachHorizontal_eq, attachHorizontal_eq]
  rfl

/-- A vertical connector is a horizontal one in the mirror. -/
lemma transpose_horizontalAt (a b : Rect ℚ) (x : ℚ) :
    (horizontalAt a.transpose b.transpose x).transpose = verticalAt a b x := by
  rw [← transpose_verticalAt]
  rfl

/-- The connectors between two symbols. -/
lemma connectorsBetween_atSymbol (a b : Rect ℚ) :
    connectorsBetween (atSymbol a) (atSymbol b) =
      [a.center.x, b.center.x, (a.center.midpoint b.center).x].map (verticalAt a b) ++
        [a.center.y, b.center.y, (a.center.midpoint b.center).y].map (horizontalAt a b) :=
  rfl

/-! ## Passing both symbols -/

section Sides

variable {r : Rect ℚ} {p q : Point ℚ} {x : ℚ}

/-- A connector with a vertical main line passes what its segments pass. -/
lemma passes_vertical (hstart : Segment.Passes ⟨p, ⟨x, p.y⟩⟩ r)
    (hmain : Segment.Passes ⟨⟨x, p.y⟩, ⟨x, q.y⟩⟩ r) (hstop : Segment.Passes ⟨⟨x, q.y⟩, q⟩ r) :
    (Connector.vertical p q x).Passes r := by
  intro s hs
  simp only [Connector.segments, Connector.vertical, List.mem_cons, List.not_mem_nil,
    or_false] at hs
  rcases hs with rfl | rfl | rfl
  · exact hstart
  · exact hmain
  · exact hstop

/-- A connector on the left of a rectangle passes it. -/
lemma passes_of_left (hp : p.x ≤ r.minX) (hx : x ≤ r.minX) (hq : q.x ≤ r.minX) :
    (Connector.vertical p q x).Passes r :=
  passes_vertical (Or.inl ⟨hp, hx⟩) (Or.inl ⟨hx, hx⟩) (Or.inl ⟨hx, hq⟩)

/-- A connector on the right of a rectangle passes it. -/
lemma passes_of_right (hp : r.maxX ≤ p.x) (hx : r.maxX ≤ x) (hq : r.maxX ≤ q.x) :
    (Connector.vertical p q x).Passes r :=
  passes_vertical (Or.inr (Or.inl ⟨hp, hx⟩)) (Or.inr (Or.inl ⟨hx, hx⟩)) (Or.inr (Or.inl ⟨hx, hq⟩))

/-- A connector above a rectangle passes it. -/
lemma passes_of_above (hp : p.y ≤ r.minY) (hq : q.y ≤ r.minY) :
    (Connector.vertical p q x).Passes r :=
  passes_vertical (Or.inr (Or.inr (Or.inl ⟨hp, hp⟩))) (Or.inr (Or.inr (Or.inl ⟨hp, hq⟩)))
    (Or.inr (Or.inr (Or.inl ⟨hq, hq⟩)))

/-- A connector below a rectangle passes it. -/
lemma passes_of_below (hp : r.maxY ≤ p.y) (hq : r.maxY ≤ q.y) :
    (Connector.vertical p q x).Passes r :=
  passes_vertical (Or.inr (Or.inr (Or.inr ⟨hp, hp⟩))) (Or.inr (Or.inr (Or.inr ⟨hp, hq⟩)))
    (Or.inr (Or.inr (Or.inr ⟨hq, hq⟩)))

end Sides

/-- The number lies between two others, whichever of them is the smaller one. -/
def Between (a b x : ℚ) : Prop := a ≤ x ∧ x ≤ b ∨ b ≤ x ∧ x ≤ a

/-- Of two ends either may be named first. -/
lemma Between.symm {a b x : ℚ} (h : Between a b x) : Between b a x := Or.symm h

section Vertical

variable {a b : Rect ℚ} {x : ℚ}

/-- A vertical main line through both symbols passes them: where they are above one another it runs
between them, and where they are side by side it runs along the edges at which they touch. -/
lemma verticalAt_passes_of_both (ha : a.Solid) (hb : b.Solid) (hapart : a.Apart b)
    (hax : a.minX ≤ x ∧ x ≤ a.maxX) (hbx : b.minX ≤ x ∧ x ≤ b.maxX) :
    (verticalAt a b x).Passes a ∧ (verticalAt a b x).Passes b := by
  unfold verticalAt
  rw [attachVertical_through hax.1 hax.2, attachVertical_through hbx.1 hbx.2]
  rcases hapart with h | h | h | h
  · have hxa : a.maxX ≤ x := h.trans hbx.1
    have hxb : x ≤ b.minX := hax.2.trans h
    exact ⟨passes_of_right hxa hxa hxa, passes_of_left hxb hxb hxb⟩
  · have hxa : x ≤ a.minX := hbx.2.trans h
    have hxb : b.maxX ≤ x := h.trans hax.1
    exact ⟨passes_of_left hxa hxa hxa, passes_of_right hxb hxb hxb⟩
  · have hbelow : a.center.y < b.center.y :=
      ha.center_lt_maxY.trans (lt_of_le_of_lt h hb.minY_lt_center)
    rw [if_pos hbelow.le, if_neg (not_le.mpr hbelow)]
    exact ⟨passes_of_below le_rfl h, passes_of_above h le_rfl⟩
  · have habove : b.center.y < a.center.y :=
      hb.center_lt_maxY.trans (lt_of_le_of_lt h ha.minY_lt_center)
    rw [if_neg (not_le.mpr habove), if_pos habove.le]
    exact ⟨passes_of_above le_rfl h, passes_of_below h le_rfl⟩

/-- A vertical main line between two symbols and through neither passes them. -/
lemma verticalAt_passes_of_neither (ha : a.Solid) (hb : b.Solid)
    (hx : Between a.center.x b.center.x x) (hax : ¬ (a.minX ≤ x ∧ x ≤ a.maxX))
    (hbx : ¬ (b.minX ≤ x ∧ x ≤ b.maxX)) :
    (verticalAt a b x).Passes a ∧ (verticalAt a b x).Passes b := by
  unfold verticalAt
  rcases hx with ⟨hxa, hxb⟩ | ⟨hxb, hxa⟩
  · have hright : a.maxX < x :=
      not_le.mp fun h => hax ⟨(ha.minX_lt_center.trans_le hxa).le, h⟩
    have hleft : x < b.minX :=
      not_le.mp fun h => hbx ⟨h, (hxb.trans_lt hb.center_lt_maxX).le⟩
    rw [attachVertical_right ha hright, attachVertical_left hb hleft]
    exact ⟨passes_of_right le_rfl hright.le (hright.trans hleft).le,
      passes_of_left (hright.trans hleft).le hleft.le le_rfl⟩
  · have hleft : x < a.minX :=
      not_le.mp fun h => hax ⟨h, (hxa.trans_lt ha.center_lt_maxX).le⟩
    have hright : b.maxX < x :=
      not_le.mp fun h => hbx ⟨(hb.minX_lt_center.trans_le hxb).le, h⟩
    rw [attachVertical_left ha hleft, attachVertical_right hb hright]
    exact ⟨passes_of_left le_rfl hleft.le (hright.trans hleft).le,
      passes_of_right (hright.trans hleft).le hright.le le_rfl⟩

/-- A straight line between facing edges is a shortcut of a connector that comes from within one of
the symbols and turns at that height. -/
lemma shortcut_of_facing {x y₀ y e f : ℚ} (hy : y₀ ≠ y) (he : Between x f e) :
    (Connector.horizontal ⟨e, y⟩ ⟨f, y⟩ y).Shortcut (.vertical ⟨x, y₀⟩ ⟨f, y⟩ x) := by
  refine ⟨⟨rfl, rfl, ⟨⟨x, y⟩, ⟨f, y⟩⟩, ?_, ?_⟩, ?_⟩
  · simp [Connector.segments, Connector.vertical]
  · simp only [Segment.Holds, Connector.horizontal, Rect.contains_iff, Rect.spanning,
      Scalar.min_exact, Scalar.max_exact, le_rfl, true_and, and_true]
    rcases he with ⟨hxe, hef⟩ | ⟨hfe, hex⟩
    · exact ⟨le_min (min_le_of_left_le hxe) (min_le_right _ _),
        max_le (le_max_of_le_right hef) (le_max_right _ _)⟩
    · exact ⟨le_min (min_le_of_right_le hfe) (min_le_right _ _),
        max_le (le_max_of_le_left hex) (le_max_right _ _)⟩
  · rw [Connector.length_horizontal, Connector.length_vertical]
    have hdetour : 0 < |y - y₀| := abs_pos.mpr (sub_ne_zero.mpr hy.symm)
    have hmain : |f - e| ≤ |f - x| := by
      rcases he with ⟨hxe, hef⟩ | ⟨hfe, hex⟩
      · rw [abs_of_nonneg (sub_nonneg.mpr hef), abs_of_nonneg (sub_nonneg.mpr (hxe.trans hef))]
        exact sub_le_sub_left hxe f
      · rw [abs_of_nonpos (sub_nonpos.mpr hfe), abs_of_nonpos (sub_nonpos.mpr (hfe.trans hex))]
        exact neg_le_neg (sub_le_sub_left hex f)
    simp only [sub_self, abs_zero, zero_add, add_zero]
    linarith

/-- A vertical main line that is attached to one end only at the height of the other end has the
straight line at that height for a shortcut. -/
lemma shortcut_of_source_only (ha : a.Solid) (hb : b.Solid) (hapart : a.Apart b)
    (hx : Between a.center.x b.center.x x) (hax : a.minX ≤ x ∧ x ≤ a.maxX)
    (hbx : ¬ (b.minX ≤ x ∧ x ≤ b.maxX)) (htop : a.minY < b.center.y)
    (hbottom : b.center.y < a.maxY) :
    (horizontalAt a b b.center.y).Shortcut (verticalAt a b x) := by
  have hbtop := hb.minY_lt_center
  have hbbottom := hb.center_lt_maxY
  have hturns : (if a.center.y ≤ b.center.y then a.maxY else a.minY) ≠ b.center.y := by
    split_ifs
    · exact hbottom.ne'
    · exact htop.ne
  -- the heights overlap, so the symbols are side by side
  have hside : a.maxX ≤ b.minX ∨ b.maxX ≤ a.minX := by
    rcases hapart with h | h | h | h
    · exact Or.inl h
    · exact Or.inr h
    · exact absurd (hbtop.trans hbottom) (not_lt.mpr h)
    · exact absurd (htop.trans hbbottom) (not_lt.mpr h)
  unfold verticalAt horizontalAt
  rw [attachVertical_through hax.1 hax.2, attachHorizontal_through htop.le hbottom.le,
    attachHorizontal_through hbtop.le hbbottom.le]
  rcases hx with ⟨hxa, hxb⟩ | ⟨hxb, hxa⟩
  · have hleft : x < b.minX := not_le.mp fun h => hbx ⟨h, (hxb.trans_lt hb.center_lt_maxX).le⟩
    have hface : a.maxX ≤ b.minX := hside.resolve_right fun h =>
      absurd (hb.x.trans_le (h.trans hax.1)) (not_lt.mpr hleft.le)
    have hcenters : a.center.x < b.center.x :=
      ha.center_lt_maxX.trans (hface.trans_lt hb.minX_lt_center)
    rw [attachVertical_left hb hleft, if_pos hcenters.le, if_neg (not_le.mpr hcenters)]
    exact shortcut_of_facing hturns (Or.inl ⟨hax.2, hface⟩)
  · have hright : b.maxX < x := not_le.mp fun h => hbx ⟨(hb.minX_lt_center.trans_le hxb).le, h⟩
    have hface : b.maxX ≤ a.minX := hside.resolve_left fun h =>
      absurd ((hax.2.trans h).trans_lt hb.x) (not_lt.mpr hright.le)
    have hcenters : b.center.x < a.center.x :=
      hb.center_lt_maxX.trans (hface.trans_lt ha.minX_lt_center)
    rw [attachVertical_right hb hright, if_neg (not_le.mpr hcenters), if_pos hcenters.le]
    exact shortcut_of_facing hturns (Or.inr ⟨hface, hax.1⟩)

/-- A vertical main line through one of two symbols passes them, unless the middle of the other one
is at the height of the symbol. -/
lemma verticalAt_passes_of_source_only (hb : b.Solid) (hx : Between a.center.x b.center.x x)
    (hax : a.minX ≤ x ∧ x ≤ a.maxX) (hbx : ¬ (b.minX ≤ x ∧ x ≤ b.maxX)) (ha : a.Solid)
    (hheight : b.center.y ≤ a.minY ∨ a.maxY ≤ b.center.y) :
    (verticalAt a b x).Passes a ∧ (verticalAt a b x).Passes b := by
  have hpasses (q : Point ℚ) (hq : q.y = b.center.y) :
      (Connector.vertical ⟨x, if a.center.y ≤ b.center.y then a.maxY else a.minY⟩ q
        x).Passes a := by
    rcases hheight with habove | hbelow
    · rw [if_neg (not_le.mpr (habove.trans_lt ha.minY_lt_center))]
      exact passes_of_above le_rfl (hq.le.trans habove)
    · rw [if_pos (ha.center_lt_maxY.le.trans hbelow)]
      exact passes_of_below le_rfl (hbelow.trans hq.ge)
  unfold verticalAt
  rw [attachVertical_through hax.1 hax.2]
  rcases hx with ⟨hxa, hxb⟩ | ⟨hxb, hxa⟩
  · have hleft : x < b.minX := not_le.mp fun h => hbx ⟨h, (hxb.trans_lt hb.center_lt_maxX).le⟩
    rw [attachVertical_left hb hleft]
    exact ⟨hpasses _ rfl, passes_of_left hleft.le hleft.le le_rfl⟩
  · have hright : b.maxX < x := not_le.mp fun h => hbx ⟨(hb.minX_lt_center.trans_le hxb).le, h⟩
    rw [attachVertical_right hb hright]
    exact ⟨hpasses _ rfl, passes_of_right hright.le hright.le le_rfl⟩

/-- A vertical main line through one of two symbols passes them or has a shortcut. -/
lemma verticalAt_of_source_only (ha : a.Solid) (hb : b.Solid) (hapart : a.Apart b)
    (hx : Between a.center.x b.center.x x) (hax : a.minX ≤ x ∧ x ≤ a.maxX)
    (hbx : ¬ (b.minX ≤ x ∧ x ≤ b.maxX)) :
    ((verticalAt a b x).Passes a ∧ (verticalAt a b x).Passes b) ∨
      (horizontalAt a b b.center.y).Shortcut (verticalAt a b x) := by
  rcases le_or_gt b.center.y a.minY with habove | htop
  · exact Or.inl (verticalAt_passes_of_source_only hb hx hax hbx ha (Or.inl habove))
  rcases le_or_gt a.maxY b.center.y with hbelow | hbottom
  · exact Or.inl (verticalAt_passes_of_source_only hb hx hax hbx ha (Or.inr hbelow))
  · exact Or.inr (shortcut_of_source_only ha hb hapart hx hax hbx htop hbottom)

/-- A vertical main line between the centers passes both symbols, or the horizontal line at the
middle of one of them is a shortcut. -/
theorem verticalAt_passes_or_shortcut (ha : a.Solid) (hb : b.Solid) (hapart : a.Apart b)
    (hx : Between a.center.x b.center.x x) :
    ((verticalAt a b x).Passes a ∧ (verticalAt a b x).Passes b) ∨
      ∃ y, (y = a.center.y ∨ y = b.center.y) ∧
        (horizontalAt a b y).Shortcut (verticalAt a b x) := by
  by_cases hax : a.minX ≤ x ∧ x ≤ a.maxX
  · by_cases hbx : b.minX ≤ x ∧ x ≤ b.maxX
    · exact Or.inl (verticalAt_passes_of_both ha hb hapart hax hbx)
    · exact (verticalAt_of_source_only ha hb hapart hx hax hbx).imp_right
        fun h => ⟨b.center.y, Or.inr rfl, h⟩
  · by_cases hbx : b.minX ≤ x ∧ x ≤ b.maxX
    · -- read from its target the connector comes from within its source
      rcases verticalAt_of_source_only hb ha hapart.symm hx.symm hbx hax with ⟨hb', ha'⟩ | h
      · exact Or.inl ⟨ha'.reverse, hb'.reverse⟩
      · exact Or.inr ⟨a.center.y, Or.inl rfl, h.reverse⟩
    · exact Or.inl (verticalAt_passes_of_neither ha hb hx hax hbx)

/-- A horizontal main line between the centers passes both symbols, or the vertical line at the
middle of one of them is a shortcut. -/
theorem horizontalAt_passes_or_shortcut {y : ℚ} (ha : a.Solid) (hb : b.Solid)
    (hapart : a.Apart b) (hy : Between a.center.y b.center.y y) :
    ((horizontalAt a b y).Passes a ∧ (horizontalAt a b y).Passes b) ∨
      ∃ x, (x = a.center.x ∨ x = b.center.x) ∧
        (verticalAt a b x).Shortcut (horizontalAt a b y) := by
  rw [← transpose_verticalAt]
  rcases verticalAt_passes_or_shortcut ha.transpose hb.transpose hapart.transpose hy with
    ⟨ha', hb'⟩ | ⟨x, hx, h⟩
  · exact Or.inl ⟨ha'.transpose, hb'.transpose⟩
  · refine Or.inr ⟨x, hx, ?_⟩
    rw [← transpose_horizontalAt]
    exact h.transpose

end Vertical

/-! ## Among the six -/

/-- Of two numbers each lies between them. -/
lemma between_left (a b : ℚ) : Between a b a :=
  (le_total a b).imp (fun h => ⟨le_rfl, h⟩) fun h => ⟨h, le_rfl⟩

/-- The middle of two numbers lies between them. -/
lemma between_middle (a b : ℚ) : Between a b ((a + b) / 2) := by
  rcases le_total a b with h | h
  · exact Or.inl ⟨by linarith, by linarith⟩
  · exact Or.inr ⟨by linarith, by linarith⟩

/-- A connector between two symbols that are apart passes both, or another one that is tried is a
shortcut of it. -/
theorem passes_or_shortcut {a b : Rect ℚ} (ha : a.Solid) (hb : b.Solid) (hapart : a.Apart b)
    {c : Connector ℚ} (hc : c ∈ connectorsBetween (atSymbol a) (atSymbol b)) :
    (c.Passes a ∧ c.Passes b) ∨
      ∃ c' ∈ connectorsBetween (atSymbol a) (atSymbol b), c'.Shortcut c := by
  have hcoordinates (s t z : ℚ) (hz : z ∈ [s, t, (s + t) / 2]) : Between s t z := by
    simp only [List.mem_cons, List.not_mem_nil, or_false] at hz
    rcases hz with rfl | rfl | rfl
    · exact between_left _ _
    · exact (between_left _ _).symm
    · exact between_middle _ _
  have hvertical {x : ℚ} (hx : x = a.center.x ∨ x = b.center.x) :
      verticalAt a b x ∈ connectorsBetween (atSymbol a) (atSymbol b) := by
    rw [connectorsBetween_atSymbol]
    rcases hx with rfl | rfl <;> simp
  have hhorizontal {y : ℚ} (hy : y = a.center.y ∨ y = b.center.y) :
      horizontalAt a b y ∈ connectorsBetween (atSymbol a) (atSymbol b) := by
    rw [connectorsBetween_atSymbol]
    rcases hy with rfl | rfl <;> simp
  rw [connectorsBetween_atSymbol, List.mem_append, List.mem_map, List.mem_map] at hc
  rcases hc with ⟨x, hx, rfl⟩ | ⟨y, hy, rfl⟩
  · exact (verticalAt_passes_or_shortcut ha hb hapart (hcoordinates _ _ x hx)).imp_right
      fun ⟨y, hy, h⟩ => ⟨_, hhorizontal hy, h⟩
  · exact (horizontalAt_passes_or_shortcut ha hb hapart (hcoordinates _ _ y hy)).imp_right
      fun ⟨x, hx, h⟩ => ⟨_, hvertical hx, h⟩

/-- A connector between two symbols starts and ends on their boundaries, and its segments are
vertical or horizontal. -/
theorem attached_of_mem {a b : Rect ℚ} (ha : a.Solid) (hb : b.Solid) {c : Connector ℚ}
    (hc : c ∈ connectorsBetween (atSymbol a) (atSymbol b)) :
    a.OnBoundary c.source ∧ b.OnBoundary c.target ∧ ∀ s ∈ c.segments, s.IsAxisParallel := by
  rw [connectorsBetween_atSymbol, List.mem_append, List.mem_map, List.mem_map] at hc
  rcases hc with ⟨x, -, rfl⟩ | ⟨y, -, rfl⟩
  · refine ⟨onBoundary_attachVertical ha x _, onBoundary_attachVertical hb x _, ?_⟩
    simp [verticalAt, Connector.vertical, Connector.segments, Segment.IsAxisParallel]
  · refine ⟨onBoundary_attachHorizontal ha y _, onBoundary_attachHorizontal hb y _, ?_⟩
    simp [horizontalAt, Connector.horizontal, Connector.segments, Segment.IsAxisParallel]

end DiagramLayout
