import DiagramLayout.Proofs.Rect

/-!
# The algebra of overlaps, joins and areas

An overlap is in a normal form: it is solid, or it is the one empty rectangle at the origin
(`Rect.overlap_isNormal`). A rectangle in this form is determined by the points inside it
(`Rect.IsNormal.eq_of_hasInside`), and the points inside an overlap are those inside both
rectangles. So overlaps obey the laws of the intersection of sets, whatever kept two rectangles
apart and whether or not a third one covers the origin.

A join is the least rectangle that contains both, and the area of a rectangle is what it shares with
another and what lies outside that one.
-/

namespace DiagramLayout

namespace Rect

/-- The rectangle is solid or the one empty rectangle at the origin. -/
def IsNormal (r : Rect ℚ) : Prop := r.Solid ∨ r = empty

/-! ## Overlaps -/

/-- Rectangles that contain each other are the same. -/
lemma contains_antisymm {r s : Rect ℚ} (h : r.contains s = true) (h' : s.contains r = true) :
    r = s := by
  obtain ⟨hx, hy, hX, hY⟩ := contains_iff.mp h
  obtain ⟨hx', hy', hX', hY'⟩ := contains_iff.mp h'
  cases r
  cases s
  rw [mk.injEq]
  exact ⟨le_antisymm hx hx', le_antisymm hy hy', le_antisymm hX' hX, le_antisymm hY' hY⟩

/-- A solid rectangle lies in every rectangle that has all of its inside. -/
lemma Solid.contains_of_hasInside {r s : Rect ℚ} (hr : r.Solid)
    (h : ∀ p, r.HasInside p → s.HasInside p) : s.contains r = true := by
  obtain ⟨p, hleft, hright, htop, hbottom⟩ := solid_iff_exists_hasInside.mp hr
  have hx : Set.Ioo r.minX r.maxX ⊆ Set.Ioo s.minX s.maxX := by
    intro x hx
    have hin := h ⟨x, p.y⟩ ⟨hx.1, hx.2, htop, hbottom⟩
    exact ⟨hin.left, hin.right⟩
  have hy : Set.Ioo r.minY r.maxY ⊆ Set.Ioo s.minY s.maxY := by
    intro y hy
    have hin := h ⟨p.x, y⟩ ⟨hleft, hright, hy.1, hy.2⟩
    exact ⟨hin.top, hin.bottom⟩
  rw [Set.Ioo_subset_Ioo_iff hr.x] at hx
  rw [Set.Ioo_subset_Ioo_iff hr.y] at hy
  exact contains_iff.mpr ⟨hx.1, hy.1, hx.2, hy.2⟩

/-- Rectangles in normal form with the same inside are the same. -/
lemma IsNormal.eq_of_hasInside {r s : Rect ℚ} (hr : r.IsNormal) (hs : s.IsNormal)
    (h : ∀ p, r.HasInside p ↔ s.HasInside p) : r = s := by
  have hsolid : r.Solid ↔ s.Solid := by
    rw [solid_iff_exists_hasInside, solid_iff_exists_hasInside]
    exact exists_congr h
  rcases hr with hr | rfl
  · exact contains_antisymm ((hsolid.mp hr).contains_of_hasInside fun p => (h p).mpr)
      (hr.contains_of_hasInside fun p => (h p).mp)
  · rcases hs with hs | rfl
    · exact absurd (hsolid.mpr hs).x (lt_irrefl 0)
    · rfl

/-- Overlaps are in normal form. -/
lemma overlap_isNormal (a b : Rect ℚ) : (a.overlap b).IsNormal := by
  unfold overlap
  simp only [Scalar.min_exact, Scalar.max_exact, Bool.or_eq_true, decide_eq_true_eq]
  split_ifs with hapart
  · exact Or.inr rfl
  · obtain ⟨hx, hy⟩ := not_or.mp hapart
    exact Or.inl ⟨not_le.mp hx, not_le.mp hy⟩

/-- Rectangles overlap mutually. -/
lemma overlap_comm (a b : Rect ℚ) : a.overlap b = b.overlap a := by
  refine (overlap_isNormal a b).eq_of_hasInside (overlap_isNormal b a) fun p => ?_
  rw [hasInside_overlap, hasInside_overlap]
  exact and_comm

/-- It does not matter which of three rectangles are overlapped first. -/
lemma overlap_assoc (a b c : Rect ℚ) : (a.overlap b).overlap c = a.overlap (b.overlap c) := by
  refine (overlap_isNormal _ c).eq_of_hasInside (overlap_isNormal a _) fun p => ?_
  rw [hasInside_overlap, hasInside_overlap, hasInside_overlap, hasInside_overlap]
  exact and_assoc

/-! ## Joins and areas -/

/-- A join lies in exactly those rectangles that contain both. -/
lemma contains_join_iff {a b box : Rect ℚ} :
    box.contains (a.join b) = true ↔ box.contains a = true ∧ box.contains b = true := by
  constructor
  · intro h
    exact ⟨contains_trans h (contains_join_left a b), contains_trans h (contains_join_right a b)⟩
  · rintro ⟨ha, hb⟩
    obtain ⟨hx, hy, hX, hY⟩ := contains_iff.mp ha
    obtain ⟨hx', hy', hX', hY'⟩ := contains_iff.mp hb
    rw [contains_iff]
    simp only [join, Scalar.min_exact, Scalar.max_exact]
    exact ⟨le_min hx hx', le_min hy hy', max_le hX hX', max_le hY hY'⟩

/-- The rectangle between two points lies in exactly those rectangles that have both. -/
lemma contains_spanning_iff {p q : Point ℚ} {box : Rect ℚ} :
    box.contains (spanning p q) = true ↔
      box.containsPoint p = true ∧ box.containsPoint q = true := by
  rw [contains_iff, containsPoint_iff, containsPoint_iff]
  simp only [spanning, Scalar.min_exact, Scalar.max_exact, le_min_iff, max_le_iff]
  tauto

/-- No more is shared than there is. -/
lemma overlapArea_le_area (a b : Rect ℚ) : a.overlapArea b ≤ a.area := by
  rcases overlap_isNormal a b with hsolid | hempty
  · exact area_le_of_contains (contains_overlap hsolid).1
  · have hzero : a.overlapArea b = 0 := by
      rw [overlapArea, hempty]
      simp [area_exact, empty]
    exact hzero.trans_le (area_nonneg a)

/-- The area of a rectangle is what it shares with another and what lies outside that one. -/
lemma area_eq_overlapArea_add_areaOutside (a b : Rect ℚ) :
    a.area = a.overlapArea b + a.areaOutside b := by
  rw [areaOutside, Scalar.max_exact, max_eq_left (sub_nonneg.mpr (overlapArea_le_area a b))]
  exact (add_sub_cancel _ _).symm

/-- Overlapping is commutative and associative, and what is inside an overlap is inside both
rectangles. A join is the least rectangle that contains both. A larger rectangle shares more, and an
area is split into what is shared and what lies outside. The rectangles may be empty or reversed. -/
theorem overlap_join_laws (a b c : Rect ℚ) :
    (a.overlap b = b.overlap a ∧ (a.overlap b).overlap c = a.overlap (b.overlap c)) ∧
      (∀ p, (a.overlap b).HasInside p ↔ a.HasInside p ∧ b.HasInside p) ∧
      ((a.join b).contains a = true ∧ (a.join b).contains b = true ∧
        ∀ box : Rect ℚ, box.contains a = true → box.contains b = true →
          box.contains (a.join b) = true) ∧
      (∀ a' : Rect ℚ, a'.contains a = true → a.overlapArea b ≤ a'.overlapArea b) ∧
      (a.area = a.overlapArea b + a.areaOutside b ∧
        0 ≤ a.overlapArea b ∧ 0 ≤ a.areaOutside b) := by
  refine ⟨⟨overlap_comm a b, overlap_assoc a b c⟩, fun p => hasInside_overlap, ?_, ?_, ?_⟩
  · refine ⟨contains_join_left a b, contains_join_right a b, ?_⟩
    intro box ha hb
    exact contains_join_iff.mpr ⟨ha, hb⟩
  · intro a' ha'
    exact overlapArea_le_of_contains ha' b
  · exact ⟨area_eq_overlapArea_add_areaOutside a b, overlapArea_nonneg a b,
      areaOutside_nonneg a b⟩

/-- Rectangles that merely touch have an empty overlap, which stays empty although the third one
covers the origin. -/
theorem overlap_join_laws_touching :
    let a : Rect ℚ := ⟨-10, -10, 10, 10⟩
    let wider : Rect ℚ := ⟨-10, -10, 15, 10⟩
    let b : Rect ℚ := ⟨10, 0, 30, 20⟩
    let c : Rect ℚ := ⟨-5, -5, 40, 40⟩
    let box : Rect ℚ := ⟨-10, -10, 30, 20⟩
    (a.overlap b = empty ∧ b.overlap c = b ∧ (a.overlap b).overlap c = a.overlap (b.overlap c)) ∧
      (box.contains a = true ∧ box.contains b = true ∧ box.contains (a.join b) = true) ∧
      (wider.contains a = true ∧ wider.overlapArea b = 50 ∧
        a.overlapArea b ≤ wider.overlapArea b) := by
  intro a wider b c box
  obtain ⟨⟨-, hassoc⟩, -, ⟨-, -, hleast⟩, hgrows, -⟩ := overlap_join_laws a b c
  have ha : box.contains a = true := by decide +kernel
  have hb : box.contains b = true := by decide +kernel
  have hwider : wider.contains a = true := by decide +kernel
  exact ⟨⟨by decide +kernel, by decide +kernel, hassoc⟩, ⟨ha, hb, hleast box ha hb⟩,
    hwider, by decide +kernel, hgrows wider hwider⟩

end Rect

end DiagramLayout
